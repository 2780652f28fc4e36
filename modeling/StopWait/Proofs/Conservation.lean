import StopWait.Proofs.Operations

/-!
# Conservation in a connection

A connection that is used in any order, by any caller, keeps its send window in balance with the
data segment that it has on its way.

* `Connection.Balanced`: the window is conserved, and what is in flight is one data segment.
* `Connection.Solvent`: the same, but for bytes that are lost.
* `Balanced.perform`: each operation keeps the balance, unless the transfer log refuses the record
  of an acknowledgment.
* `Solvent.perform_ne_overflow`: no operation leaves the words of the window.
* `window_conserved`: **every sequence of operations on a fresh connection keeps the balance.**
-/

namespace StopWait.Connection

/-- **The window is in balance with what is in flight.** -/
structure Balanced (c : Connection) : Prop where
  window : c.window.Conserved (c.inFlight.elim 0 UInt32.toNat)
  flight : ∀ n, c.inFlight = some n → 1 ≤ n.toNat ∧ n.toNat ≤ mss.toNat

/-- **The window covers what is in flight**, and bytes that are lost: neither in flight any more nor
refunded. -/
structure Solvent (c : Connection) : Prop where
  window : ∃ lost, c.window.Conserved (c.inFlight.elim 0 UInt32.toNat + lost)
  flight : ∀ n, c.inFlight = some n → 1 ≤ n.toNat ∧ n.toNat ≤ mss.toNat

variable {c d : Connection} {kind : Kind}

theorem Balanced.solvent (h : c.Balanced) : c.Solvent := ⟨⟨0, h.window⟩, h.flight⟩

theorem Solvent.congr (h : c.Solvent) (hw : d.window = c.window)
    (hf : d.inFlight = c.inFlight) : d.Solvent :=
  ⟨by rw [hw, hf]; exact h.window, by rw [hf]; exact h.flight⟩

theorem Solvent.conserved_of_some (h : c.Solvent) {n : UInt32} (hf : c.inFlight = some n) :
    ∃ lost, c.window.Conserved (n.toNat + lost) := by
  have := h.window
  rwa [hf] at this

theorem Balanced.congr (h : c.Balanced) (hw : d.window = c.window)
    (hf : d.inFlight = c.inFlight) : d.Balanced :=
  ⟨by rw [hw, hf]; exact h.window, by rw [hf]; exact h.flight⟩

theorem Balanced.conserved_of_none (h : c.Balanced) (hf : c.inFlight = none) :
    c.window.Conserved 0 := by
  have := h.window
  rwa [hf] at this

theorem Balanced.conserved_of_some (h : c.Balanced) {n : UInt32} (hf : c.inFlight = some n) :
    c.window.Conserved n.toNat := by
  have := h.window
  rwa [hf] at this

theorem balanced_opened (settings : Settings) (role : Role) (sink : Option Log.Sink) :
    (opened settings role sink).Balanced := by
  cases sink <;> exact ⟨SendWindow.conserved_initial, fun n hn => by cases hn⟩

/-- With nothing in flight, a data segment may carry `mss` bytes. -/
theorem Balanced.budget_eq (h : c.Balanced) (hf : c.inFlight = none) : c.budget = mss.toNat :=
  (h.conserved_of_none hf).budget_eq

theorem toNat_length {payload : List UInt8} (h : payload.length ≤ mss.toNat) :
    (UInt32.ofNat payload.length).toNat = payload.length := by
  have hm : mss.toNat = 536 := rfl
  exact UInt32.toNat_ofNat_of_lt' (by unfold UInt32.size; omega)

theorem Balanced.afterData (h : c.Balanced) (hf : c.inFlight = none) {payload : List UInt8}
    (hp : payload ≠ []) (hlen : payload.length ≤ mss.toNat) : (c.afterData payload).Balanced := by
  have hn := toNat_length hlen
  constructor
  · exact (h.conserved_of_none hf).spend (by rw [hn]; exact hlen)
  · intro n hn'
    obtain rfl : UInt32.ofNat payload.length = n := Option.some.inj hn'
    have := List.length_pos_iff.2 hp
    omega

theorem logData_fst (dir : Log.Direction) (len : UInt32) :
    (c.logData dir len).1 =
      { c with log := (c.log.record ⟨dir, c.window.swnd, c.window.remainder, len⟩).1 } := rfl

/-- **What building a segment comes to**: nothing, a record in the transfer log, a control
segment, or a data segment out of the budget. -/
theorem segment_cases (c : Connection) (kind : Kind) (payload : List UInt8) :
    (∃ e, c.segment kind payload = (c, .error e) ∧ ∀ o, e ≠ .overflow o) ∨
    (kind = .data ∧ ∃ e, (c.logData .send (UInt32.ofNat payload.length)).2 = .error e ∧
      c.segment kind payload =
        ((c.logData .send (UInt32.ofNat payload.length)).1, .error (.log e))) ∨
    (kind ≠ .data ∧ c.done = false ∧ payload = [] ∧
      c.segment kind payload = (c.noteSent kind (c.compose kind []), .ok (c.compose kind []))) ∨
    (kind = .data ∧ c.done = false ∧ c.inFlight = none ∧ payload ≠ [] ∧
      payload.length ≤ mss.toNat ∧
      (c.logData .send (UInt32.ofNat payload.length)).2 = .ok () ∧
      c.segment kind payload =
        ((c.logData .send (UInt32.ofNat payload.length)).1.afterData payload,
          .ok (c.compose .data payload))) := by
  by_cases hd : c.done = true
  · exact .inl ⟨.closed, by simp [segment, sendFault, hd], fun o => by simp⟩
  simp only [Bool.not_eq_true] at hd
  by_cases hfault : Segment.payloadFault kind payload = none
  · by_cases hk : kind = .data
    · subst hk
      obtain ⟨hp, hlen⟩ : payload ≠ [] ∧ payload.length ≤ mss.toNat := by
        simpa using payloadFault_eq_none.1 hfault
      -- the payload keeps the rule, so it is a matter of what is in flight and of the log
      cases hf : c.inFlight with
      | some n =>
        exact .inl ⟨.dataInFlight n, by simp [segment, sendFault, hd, hf], fun o => by simp⟩
      | none =>
        have hs := segment_data hd hf hp hlen
        rcases hlog : c.logData .send (UInt32.ofNat payload.length) with ⟨d, r⟩
        rw [hlog] at hs
        cases r with
        | error e => exact .inr (.inl ⟨rfl, e, rfl, hs⟩)
        | ok u => exact .inr (.inr (.inr ⟨rfl, hd, rfl, hp, hlen, rfl, hs⟩))
    · have hp : payload = [] := by simpa [hk] using payloadFault_eq_none.1 hfault
      subst hp
      exact .inr (.inr (.inl ⟨hk, hd, rfl, segment_control hd hk⟩))
  · obtain ⟨e, he⟩ := Option.ne_none_iff_exists'.1 hfault
    -- a payload that breaks the rule is refused, and not for an overflow
    cases hs : c.sendFault kind with
    | some e' =>
      refine .inl ⟨e', by simp [segment, hs], fun o ho => ?_⟩
      subst ho
      unfold sendFault at hs
      split at hs
      · simp at hs
      · split at hs <;> simp at hs
    | none => exact .inl ⟨.build e, by simp [segment, hs, Segment.build, he], fun o => by simp⟩

/-- **The sequence space of a segment that is built is a word**, so that it can be noted without a
check. -/
theorem seqLenFits_of_segment {payload : List UInt8} {s : Segment}
    (h : c.segment kind payload = (d, .ok s)) : s.seqLenFits = true := by
  have hlimit : mss.toNat + 2 < Word.limit32 := by decide
  obtain ⟨e, hs, -⟩ | ⟨-, e, -, hs⟩ | ⟨-, -, -, hs⟩ | ⟨-, -, -, -, hlen, -, hs⟩ :=
    segment_cases c kind payload <;> rw [h] at hs <;> cases hs
  · exact Segment.seqLenFits_of_length (show 0 + 2 < _ by decide)
  · refine Segment.seqLenFits_of_length ?_
    show payload.length + 2 < _
    omega

/-- **What an acknowledgment comes to** while the window covers what is in flight: it grows for
that, or the transfer log refuses the record of it. -/
theorem Solvent.acknowledge_cases (h : c.Solvent) :
    (c.inFlight = none ∧ c.acknowledge = (c, .ok ())) ∨
    ∃ n, c.inFlight = some n ∧
      let d := ({ c with inFlight := none }.logData .recv n).1
      (∃ e, ({ c with inFlight := none }.logData .recv n).2 = .error e ∧
        c.acknowledge = (d, .error (.log e))) ∨
      (({ c with inFlight := none }.logData .recv n).2 = .ok () ∧
        c.acknowledge = ({ d with window := c.window.grown n }, .ok ())) := by
  cases hf : c.inFlight with
  | none =>
    refine .inl ⟨rfl, ?_⟩
    obtain ⟨lost, hw⟩ := h.window
    -- a mere control acknowledgment leaves the window
    simp only [Connection.acknowledge, hf, grow, SendWindow.acknowledge_control hw.swnd]
    rw [← hf]
  | some n =>
    refine .inr ⟨n, rfl, ?_⟩
    obtain ⟨lost, hn⟩ := h.conserved_of_some hf
    rcases hlog : { c with inFlight := none }.logData .recv n with ⟨d, r⟩
    have hw : d.window = c.window := by
      have := congrArg Prod.fst hlog
      simp only [logData_fst] at this
      rw [← this]
    simp only [hlog]
    cases r with
    | error e => exact .inl ⟨e, rfl, by simp only [Connection.acknowledge, hf, hlog]⟩
    | ok u =>
      refine .inr ⟨rfl, ?_⟩
      simp only [Connection.acknowledge, hf, hlog, grow, hw, hn.acknowledge_part.1]

/-- **What an acknowledgment comes to** while the balance is kept. -/
theorem Balanced.acknowledge_cases (h : c.Balanced) :
    (c.inFlight = none ∧ c.acknowledge = (c, .ok ())) ∨
    ∃ n, c.inFlight = some n ∧
      let d := ({ c with inFlight := none }.logData .recv n).1
      (∃ e, ({ c with inFlight := none }.logData .recv n).2 = .error e ∧
        c.acknowledge = (d, .error (.log e))) ∨
      (({ c with inFlight := none }.logData .recv n).2 = .ok () ∧
        c.acknowledge = ({ d with window := c.window.grown n }, .ok ())) :=
  h.solvent.acknowledge_cases

/-- **What taking in an awaited segment comes to**: nothing, or, without and with the ACK bit
awaited, notes about the segment and an acknowledgment. -/
theorem accept_cases (c : Connection) (kind : Kind) (s : Segment) :
    (∃ e, c.accept kind s = (c, .error e) ∧ ∀ o, e ≠ .overflow (.window o)) ∨
    (c.done = false ∧ kind.accepts s.header.control = true ∧ s.seqLenFits = true ∧
      kind.control.ack = false ∧
      c.accept kind s = ((c.noteReceived s).advance kind s, .ok ())) ∨
    (c.done = false ∧ kind.accepts s.header.control = true ∧ s.seqLenFits = true ∧
      kind.control.ack = true ∧
      c.accept kind s = ((c.noteReceived s).advance kind s).acknowledge) := by
  by_cases hd : c.done = true
  · exact .inl ⟨.closed, by simp [accept, hd], fun o => by simp⟩
  simp only [Bool.not_eq_true] at hd
  by_cases hk : kind.accepts s.header.control = true
  · obtain ⟨e, hr, he⟩ | ⟨-, hfits, -⟩ := c.record_cases s
    · exact .inl ⟨e, by simp [accept, hd, hk, hr], he⟩
    have := accept_eq hd hk hfits
    cases ha : kind.control.ack with
    | false => exact .inr (.inl ⟨hd, hk, hfits, rfl, by simpa [ha] using this⟩)
    | true => exact .inr (.inr ⟨hd, hk, hfits, rfl, by simpa [ha] using this⟩)
  · exact .inl ⟨.unexpectedSegment kind s.kind, by simp [accept, hd, hk], fun o => by simp⟩

theorem Solvent.advance (h : c.Solvent) (s : Segment) :
    ((c.noteReceived s).advance kind s).Solvent :=
  h.congr (advance_window s) (advance_inFlight s)

theorem Balanced.advance (h : c.Balanced) (s : Segment) :
    ((c.noteReceived s).advance kind s).Balanced :=
  h.congr (advance_window s) (advance_inFlight s)

/-- Whether the transfer log refuses the record of an acknowledgment that an operation takes in. -/
def refusesAcknowledgment (c : Connection) (op : Op) : Bool :=
  match op, (c.perform op).2 with
  | .accept _ _, some (.log _) => true
  | _, _ => false

/-- **Each operation keeps the balance**, unless the transfer log refuses the record of an
acknowledgment. -/
theorem Balanced.perform (h : c.Balanced) {op : Op} (hop : c.refusesAcknowledgment op = false) :
    (c.perform op).1.Balanced := by
  cases op with
  | apply t =>
    simp only [Connection.perform, apply]
    by_cases hd : c.done = true
    · simpa [hd] using h
    · cases c.state.on t <;> simp only [hd, if_false, Bool.false_eq_true] <;> exact h.congr rfl rfl
  | segment kind payload =>
    obtain ⟨e, hs, -⟩ | ⟨-, e, -, hs⟩ | ⟨-, -, -, hs⟩ | ⟨-, -, hf, hp, hlen, -, hs⟩ :=
      segment_cases c kind payload
    · simpa only [Connection.perform, hs] using h
    · simp only [Connection.perform, hs]
      exact h.congr rfl rfl
    · simp only [Connection.perform, hs]
      exact h.congr rfl rfl
    · simp only [Connection.perform, hs]
      exact (h.congr (d := (c.logData .send _).1) rfl rfl).afterData hf hp hlen
  | accept kind s =>
    obtain ⟨e, hs, -⟩ | ⟨-, -, -, -, hs⟩ | ⟨-, -, -, -, hs⟩ := accept_cases c kind s
    · simpa only [Connection.perform, hs] using h
    · simp only [Connection.perform, hs]
      exact h.advance s
    · have hb : ((c.noteReceived s).advance kind s).Balanced := h.advance s
      obtain ⟨-, ha⟩ | ⟨n, hf, ⟨e, -, ha⟩ | ⟨-, ha⟩⟩ := hb.acknowledge_cases
      · simpa only [Connection.perform, hs, ha] using hb
      · -- the log refuses the record, which is the exception
        simp [refusesAcknowledgment, Connection.perform, hs, ha] at hop
      · simp only [Connection.perform, hs, ha]
        -- what was in flight is refunded
        exact ⟨(hb.conserved_of_some hf).acknowledge_data.2, fun m hm => by cases hm⟩
  | record s =>
    obtain ⟨e, hs, -⟩ | hs := c.perform_record_cases s <;> rw [hs]
    · exact h
    · exact h.congr rfl rfl
  | finish =>
    simp only [Connection.perform, finish]
    split
    · exact h.congr rfl rfl
    · exact h

/-- **No operation leaves the words of a window** that covers what is in flight. -/
theorem Solvent.perform_ne_overflow (h : c.Solvent) (op : Op) (o : SendWindow.Overflow) :
    (c.perform op).2 ≠ some (.overflow (.window o)) := by
  cases op with
  | apply t =>
    simp only [Connection.perform, apply]
    by_cases hd : c.done = true
    · simp [hd]
    · cases c.state.on t with
      | ok r => simp [hd]
      | error e => by_cases he : e.blamesCaller = true <;> simp [hd, Error.ofTransition, he]
  | segment kind payload =>
    obtain ⟨e, hs, he⟩ | ⟨-, e, -, hs⟩ | ⟨-, -, -, hs⟩ | ⟨-, -, -, -, -, -, hs⟩ :=
      segment_cases c kind payload
    · simpa only [Connection.perform, hs, ne_eq, Option.some.injEq] using he (.window o)
    all_goals simp only [Connection.perform, hs]; simp
  | accept kind s =>
    obtain ⟨e, hs, he⟩ | ⟨-, -, -, -, hs⟩ | ⟨-, -, -, -, hs⟩ := accept_cases c kind s
    · simpa only [Connection.perform, hs, ne_eq, Option.some.injEq] using he o
    · simp [Connection.perform, hs]
    · have hb : ((c.noteReceived s).advance kind s).Solvent := h.advance s
      obtain ⟨-, ha⟩ | ⟨n, hf, ⟨e, -, ha⟩ | ⟨-, ha⟩⟩ := hb.acknowledge_cases <;>
        simp [Connection.perform, hs, ha]
  | record s =>
    obtain ⟨e, hs, he⟩ | hs := c.perform_record_cases s <;> rw [hs]
    · simpa only [ne_eq, Option.some.injEq] using he o
    · simp
  | finish => simp [Connection.perform]

/-- Whether no operation of a sequence has the record of an acknowledgment refused by the transfer
log. -/
def keepsRecords (c : Connection) : List Op → Bool
  | [] => true
  | op :: ops => !c.refusesAcknowledgment op && (c.perform op).1.keepsRecords ops

theorem Balanced.performAll (h : c.Balanced) {ops : List Op} (hops : c.keepsRecords ops = true) :
    (c.performAll ops).Balanced := by
  induction ops generalizing c with
  | nil => exact h
  | cons op ops ih =>
    simp only [keepsRecords, Bool.and_eq_true, Bool.not_eq_true'] at hops
    exact ih (h.perform hops.1) hops.2

/-- A data segment that is built out of a balanced window fits the budget, and the remainder pays
for every byte of it. -/
theorem Balanced.segment_data_spends (h : c.Balanced) {payload : List UInt8} {s : Segment}
    (hs : c.segment .data payload = (d, .ok s)) :
    payload.length ≤ c.budget ∧
      d.window.remainder.toNat + payload.length = c.window.remainder.toNat := by
  obtain ⟨e, hs', -⟩ | ⟨-, e, -, hs'⟩ | ⟨hk, -⟩ | ⟨-, -, hf, -, hlen, -, hs'⟩ :=
    segment_cases c .data payload
  · simp [hs] at hs'
  · simp [hs] at hs'
  · exact absurd rfl hk
  · obtain ⟨rfl, -⟩ : d = (c.logData .send _).1.afterData payload ∧ _ := by
      simpa [hs] using hs'
    have hn := toNat_length hlen
    -- what is taken off the remainder is not cut at zero
    have hle : UInt32.ofNat payload.length ≤ c.window.remainder :=
      (h.conserved_of_none hf).le_remainder (by rw [hn]; exact hlen)
    refine ⟨by rw [h.budget_eq hf]; exact hlen, ?_⟩
    show (c.window.spend _).remainder.toNat + _ = _
    rw [SendWindow.spend, if_pos hle, UInt32.toNat_sub_of_le _ _ hle, hn]
    rw [UInt32.le_iff_toNat_le, hn] at hle
    omega

/-- **The send window is conserved.** Whatever is done with a fresh connection, in any order and
state, as long as the transfer log takes the record of each acknowledgment: the remainder and what
is in flight add up to the send window, which is the congestion window capped at 3072; the
congestion window stays between 536 and 287297, and at most 536 bytes are in flight. With nothing
in flight the budget is a full segment, a data segment that is built never asks for more than the
remainder, and nothing that can be done next leaves the words of the window. -/
theorem window_conserved (settings : Settings) (role : Role) (sink : Option Log.Sink)
    (ops : List Op) (hops : (opened settings role sink).keepsRecords ops = true) :
    let c := (opened settings role sink).performAll ops
    c.window.remainder.toNat + (c.inFlight.getD 0).toNat = c.window.swnd.toNat ∧
    c.window.swnd = min c.window.cwnd 3072 ∧
    536 ≤ c.window.cwnd.toNat ∧ c.window.cwnd.toNat ≤ 287297 ∧
    (∀ n, c.inFlight = some n → 1 ≤ n.toNat ∧ n.toNat ≤ 536) ∧
    (c.inFlight = none → c.budget = 536) ∧
    (∀ payload d s, c.segment .data payload = (d, .ok s) → payload.length ≤ c.budget ∧
      d.window.remainder.toNat + payload.length = c.window.remainder.toNat) ∧
    (∀ op o, (c.perform op).2 ≠ some (.overflow (.window o))) := by
  intro c
  have h : c.Balanced := (balanced_opened settings role sink).performAll hops
  refine ⟨?_, h.window.swnd, h.window.lower, h.window.upper, h.flight, h.budget_eq,
    fun payload d s => h.segment_data_spends, h.solvent.perform_ne_overflow⟩
  have ht := h.window.total
  cases hf : c.inFlight with
  | none => simpa [hf] using ht
  | some n => simpa [hf] using ht

/-- A data segment that the transfer log refuses, the same one again, one too many, and an
acknowledgment. -/
def refusedOnce : List Op :=
  [.apply (.start .active), .segment .syn [], .segment .data [1, 2, 3], .segment .data [1, 2, 3],
   .segment .data [4], .accept .ack ⟨⟨0, 0, 7, 4, 5, Kind.ack.control, 100, 0, 0⟩, []⟩]

/-- The refusal of a record of a data segment is no exception to conservation. -/
theorem window_conserved_refusedOnce :
    (opened {} .active (some { refused := [0] })).keepsRecords refusedOnce = true ∧
    let c := (opened {} .active (some { refused := [0] })).performAll refusedOnce
    c.window.remainder.toNat + (c.inFlight.getD 0).toNat = c.window.swnd.toNat :=
  ⟨by decide +kernel, (window_conserved {} .active (some { refused := [0] }) refusedOnce
    (by decide +kernel)).1⟩

end StopWait.Connection
