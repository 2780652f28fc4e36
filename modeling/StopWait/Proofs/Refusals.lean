import StopWait.Proofs.Solvency

/-!
# Refusals

What is left of a connection by an operation that fails.

* `Log.Writer.HoldsBack`: what a line that its sink refuses leaves of a transfer log.
* `rejection_leaves_no_trace`: a transition or a segment of our own that is refused changes at most
  the transfer log.
* `Solvent.accept_flight`: **what an acknowledgment of the data in flight comes to.**
* `failed_accept_leaves`: a segment of the peer that is refused changes nothing, unless it is the
  transfer log that refuses. In that case the notes about the segment stand and what was in flight
  is lost.
* `refused_record_loses_flight`: this does happen.
-/

namespace StopWait.Log.Writer

/-- **What was put stays put**: `v` is the writer `w` after something else was put. -/
structure Extends (w v : Writer) : Prop where
  contents : w.sink.contents <+: v.sink.contents
  offered : w.offered <+: v.offered

variable {u v w : Writer}

theorem extends_refl (w : Writer) : w.Extends w := ⟨List.prefix_rfl, List.prefix_rfl⟩

theorem Extends.trans (h : u.Extends v) (h' : v.Extends w) : u.Extends w :=
  ⟨h.contents.trans h'.contents, h.offered.trans h'.offered⟩

/-- The number of columns says nothing about what was put. -/
theorem Extends.columns (h : w.Extends v) (n : Nat) : w.Extends { v with columns := n } :=
  ⟨h.contents, h.offered⟩

theorem extends_push (w : Writer) (b : UInt8) : w.Extends (w.push b) :=
  ⟨List.prefix_rfl, [b], (offered_push w b).symm⟩

theorem extends_flush (w : Writer) : w.Extends w.flush.1 := by
  refine ⟨?_, (offered_flush w).symm ▸ List.prefix_rfl⟩
  show w.sink.contents <+: (w.sink.write w.pending).contents
  rw [Sink.contents_write]
  split
  · exact List.prefix_rfl
  · exact List.prefix_append _ _

theorem extends_put (w : Writer) (bytes : List UInt8) : w.Extends (w.put bytes).1 := by
  fun_induction put w bytes with
  | case1 w => exact w.extends_refl
  | case2 w b bs _ ih => exact (w.extends_push b).trans ih
  | case3 w b bs _ _ ih => exact (w.extends_flush.trans (w.flush.1.extends_push b)).trans ih
  | case4 w b bs => exact w.extends_flush

theorem extends_column (w : Writer) (text : List UInt8) : w.Extends (w.column text).1 := by
  have h := w.extends_put (if w.columns = 0 then text else 9 :: text)
  unfold column
  split <;> rename_i heq <;> rw [heq] at h
  · exact h.columns _
  · exact h

theorem extends_columnAll (w : Writer) (texts : List (List UInt8)) :
    w.Extends (w.columnAll texts).1 := by
  induction texts generalizing w with
  | nil => exact w.extends_refl
  | cons text rest ih =>
    have h := w.extends_column text
    unfold columnAll
    split <;> rename_i heq <;> rw [heq] at h
    · exact h.trans (ih _)
    · exact h

theorem extends_endLine (w : Writer) : w.Extends w.endLine.1 := by
  have h := w.extends_put [10]
  unfold endLine
  split
  · split <;> rename_i heq <;> rw [heq] at h
    · exact h.columns 0
    · exact h
  · exact w.extends_refl

/-- **A record takes nothing back**, whatever the sink does. -/
theorem extends_record (w : Writer) (r : Record) : w.Extends (w.record r).1 := by
  have hc := w.extends_columnAll r.columns
  unfold record
  split <;> rename_i heq <;> rw [heq] at hc
  · exact hc
  · rename_i v
    have he := v.extends_endLine
    split <;> rename_i heq <;> rw [heq] at he
    · exact hc.trans he
    · exact (hc.trans he).trans (extends_flush _)

/-- **What a line that the sink refused leaves of a writer.** It takes nothing back, and a line that
fits into the buffer waits there, all of it, behind what was already waiting. -/
structure HoldsBack (w : Writer) (line : List UInt8) (v : Writer) : Prop extends w.Extends v where
  whole : w.columns = 0 → w.pending.length + line.length ≤ capacity →
    v = { w with
      sink := { w.sink with calls := w.sink.calls + 1 }
      pending := w.pending ++ line }

theorem record_refused {r : Record} {e : Error} (h : (w.record r).2 = .error e) :
    w.HoldsBack r.line (w.record r).1 := by
  refine ⟨w.extends_record r, fun hc hroom => ?_⟩
  have hr := record_of_room w r hc hroom
  cases hrefuses : w.sink.refuses with
  | false => simp [hr, hrefuses] at h
  | true => simp [hr, Sink.write, hrefuses]

end StopWait.Log.Writer

namespace StopWait.Connection

variable {c d : Connection} {kind : Kind} {payload : List UInt8} {s : Segment} {n : UInt32}

/-- **A line that the transfer log refused** leaves all but the log as it was. -/
theorem logData_refused {direction : Log.Direction} {len : UInt32} {l : Log.Error}
    (h : (c.logData direction len).2 = .error l) :
    ∃ w v, c.log = .writing w ∧ (c.logData direction len).1 = { c with log := .writing v } ∧
      w.HoldsBack (c.entry direction len).line v := by
  unfold logData TransferLog.record at h ⊢
  cases hl : c.log with
  | absent => simp [hl] at h
  | released sink => simp [hl] at h
  | writing w =>
    simp only [hl] at h ⊢
    exact ⟨w, _, rfl, rfl, Log.Writer.record_refused h⟩

/-- **What a refusal leaves of a segment of our own**: nothing, or a line in the buffer of the
transfer log. -/
theorem segment_refused {e : Connection.Error} (h : c.segment kind payload = (d, .error e)) :
    d = c ∨ ∃ l w v, kind = .data ∧ e = .log l ∧ c.log = .writing w ∧
      d = { c with log := .writing v } ∧
      w.HoldsBack (c.entry .send (UInt32.ofNat payload.length)).line v := by
  obtain ⟨e', hs, -⟩ | ⟨hk, l, hl, hs⟩ | ⟨-, -, -, hs⟩ | ⟨-, -, -, -, -, -, hs⟩ :=
    segment_cases c kind payload <;> rw [hs] at h <;> cases h
  · exact .inl rfl
  · obtain ⟨w, v, hw, hd, hv⟩ := logData_refused hl
    exact .inr ⟨l, w, v, hk, rfl, hw, hd, hv⟩

/-- **When a data segment can be sent.** -/
theorem segment_data_iff : (∃ d s, c.segment .data payload = (d, .ok s)) ↔
    c.done = false ∧ c.inFlight = none ∧ 1 ≤ payload.length ∧ payload.length ≤ mss.toNat ∧
      (c.logData .send (UInt32.ofNat payload.length)).2 = .ok () := by
  constructor
  · rintro ⟨d, s, h⟩
    obtain ⟨e, hs, -⟩ | ⟨-, e, -, hs⟩ | ⟨hk, -⟩ | ⟨-, hd, hf, hp, hlen, hlog, -⟩ :=
      segment_cases c .data payload
    · simp [hs] at h
    · simp [hs] at h
    · exact absurd rfl hk
    · exact ⟨hd, hf, List.length_pos_iff.2 hp, hlen, hlog⟩
  · rintro ⟨hd, hf, hp, hlen, hlog⟩
    have hs := segment_data hd hf (List.length_pos_iff.1 hp) hlen
    rcases hr : c.logData .send (UInt32.ofNat payload.length) with ⟨d, r⟩
    rw [hr] at hs hlog
    obtain rfl : r = .ok () := hlog
    exact ⟨_, _, hs⟩

/-- **When a control segment can be sent.** -/
theorem segment_control_iff (hk : kind ≠ .data) :
    (∃ d s, c.segment kind payload = (d, .ok s)) ↔ c.done = false ∧ payload = [] := by
  constructor
  · rintro ⟨d, s, h⟩
    obtain ⟨e, hs, -⟩ | ⟨hd, -⟩ | ⟨-, hd, hp, -⟩ | ⟨hd, -⟩ := segment_cases c kind payload
    · simp [hs] at h
    · exact absurd hd hk
    · exact ⟨hd, hp⟩
    · exact absurd hd hk
  · rintro ⟨hd, rfl⟩
    exact ⟨_, _, segment_control hd hk⟩

/-- **A rejected transition or segment leaves no trace.** In whatever state a connection is, a
trigger that finds no transition, or comes too late, leaves it as it was. So does a segment that
cannot be sent, but for a line that waits in the buffer of the transfer log if it is the log that
refuses. Data can be sent as long as the connection is not done, none is in flight, it is 1 to 536
bytes and the log takes the line; a control segment as long as the connection is not done and the
segment has no payload. -/
theorem rejection_leaves_no_trace (c : Connection) :
    (∀ t d e, c.perform (.apply t) = (d, some e) → d = c) ∧
    (∀ kind payload d e, c.segment kind payload = (d, .error e) → d = c ∨
      ∃ l w v, kind = .data ∧ e = .log l ∧ c.log = .writing w ∧ d = { c with log := .writing v } ∧
        w.HoldsBack (c.entry .send (UInt32.ofNat payload.length)).line v) ∧
    (∀ payload, (∃ d s, c.segment .data payload = (d, .ok s)) ↔
      c.done = false ∧ c.inFlight = none ∧ 1 ≤ payload.length ∧ payload.length ≤ 536 ∧
        (c.logData .send (UInt32.ofNat payload.length)).2 = .ok ()) ∧
    (∀ kind payload, kind ≠ .data →
      ((∃ d s, c.segment kind payload = (d, .ok s)) ↔ c.done = false ∧ payload = [])) := by
  refine ⟨fun t d e h => ?_, fun kind payload d e => segment_refused,
    fun payload => segment_data_iff, fun kind payload => segment_control_iff⟩
  simp only [perform] at h
  split at h <;> cases h
  rfl

theorem eq_error {α β ε : Type} {x : α × Except ε β} (h : x.2.isOk = false) :
    ∃ e, x = (x.1, .error e) := by
  obtain ⟨a, _ | b⟩ := x
  · exact ⟨_, rfl⟩
  · cases h

/-- A connection that has sent its SYN and has a transfer log whose sink refuses the first line. -/
def greeted : Connection :=
  (opened {} .active (some { refused := [0] })).performAll
    [.apply (.start .active), .segment .syn []]

/-- A data segment whose line is refused is not sent, and only its line is left. -/
theorem rejection_leaves_no_trace_greeted :
    (greeted.segment .data [1, 2, 3]).1 ≠ greeted ∧
    ∃ v, (greeted.segment .data [1, 2, 3]).1 = { greeted with log := .writing v } ∧
      Log.Writer.HoldsBack { sink := { refused := [0] } } (greeted.entry .send 3).line v := by
  have hne : (greeted.segment .data [1, 2, 3]).1 ≠ greeted := by decide +kernel
  obtain ⟨e, herr⟩ : ∃ e, greeted.segment .data [1, 2, 3] =
      ((greeted.segment .data [1, 2, 3]).1, .error e) := eq_error (by decide +kernel)
  obtain ⟨-, hsegment, -⟩ := rejection_leaves_no_trace greeted
  obtain h | ⟨l, w, v, -, -, hw, hd, hback⟩ := hsegment .data [1, 2, 3] _ _ herr
  · exact absurd h hne
  · cases hw
    exact ⟨hne, v, hd, hback⟩

/-- **An acknowledgment of the data in flight** is taken in as far as the transfer log takes the
record of it. By then the segment is noted, and nothing is in flight any more. -/
theorem Solvent.accept_flight (h : c.Solvent) (hd : c.done = false)
    (hk : kind.accepts s.header.control = true) (hfits : s.seqLenFits = true)
    (ha : kind.control.ack = true) (hn : c.inFlight = some n) :
    (∃ l, (c.logData .recv n).2 = .error l ∧ c.accept kind s =
      ({ (c.noteReceived s).advance kind s with
          inFlight := none
          log := (c.logData .recv n).1.log }, .error (.log l))) ∨
    ((c.logData .recv n).2 = .ok () ∧ ∃ d, c.accept kind s = (d, .ok ())) := by
  have hadv : ((c.noteReceived s).advance kind s).Solvent := h.advance s
  have hlog : { (c.noteReceived s).advance kind s with inFlight := none }.logData .recv n =
      ({ (c.noteReceived s).advance kind s with
          inFlight := none
          log := (c.logData .recv n).1.log }, (c.logData .recv n).2) := by
    simp only [logData, advance_log, advance_window]
    rfl
  have haccept := accept_eq hd hk hfits
  rw [if_pos ha] at haccept
  obtain ⟨hnone, -⟩ | ⟨m, hsome, hcases⟩ := hadv.acknowledge_cases
  · rw [advance_inFlight] at hnone
    cases hn.symm.trans hnone
  · rw [advance_inFlight] at hsome
    obtain rfl : n = m := Option.some.inj (hn.symm.trans hsome)
    rw [hlog] at hcases
    obtain ⟨l, hl, herr⟩ | ⟨hok, hs⟩ := hcases
    · exact .inl ⟨l, hl, haccept.trans herr⟩
    · exact .inr ⟨hok, _, haccept.trans hs⟩

/-- **A segment that will do is refused** for the record of the acknowledgment alone. -/
theorem Solvent.accept_unrecorded (hc : c.Solvent) (hd : c.done = false)
    (hk : kind.accepts s.header.control = true) (hfits : s.seqLenFits = true)
    {e : Connection.Error} (h : c.accept kind s = (d, .error e)) :
    ∃ l n w v, kind.control.ack = true ∧ c.inFlight = some n ∧ e = .log l ∧ c.log = .writing w ∧
      w.HoldsBack (c.entry .recv n).line v ∧
      d = { (c.noteReceived s).advance kind s with inFlight := none, log := .writing v } := by
  cases ha : kind.control.ack with
  | false => simp [accept_eq hd hk hfits, ha] at h
  | true =>
    cases hf : c.inFlight with
    | none =>
      -- a mere control acknowledgment is not refused
      have hadv : ((c.noteReceived s).advance kind s).Solvent := hc.advance s
      rw [accept_eq hd hk hfits, if_pos ha] at h
      obtain ⟨-, hok⟩ | ⟨n, hsome, -⟩ := hadv.acknowledge_cases
      · rw [hok] at h
        cases h
      · rw [advance_inFlight] at hsome
        cases hf.symm.trans hsome
    | some n =>
      obtain ⟨l, hl, herr⟩ | ⟨-, d', hok⟩ := hc.accept_flight hd hk hfits ha hf
      · rw [herr] at h
        cases h
        obtain ⟨w, v, hw, hv, hback⟩ := logData_refused hl
        exact ⟨l, n, w, v, rfl, rfl, rfl, hw, hback, by rw [hv]⟩
      · rw [hok] at h
        cases h

/-- **When an awaited segment is refused, and what that leaves.** -/
theorem Solvent.accept_refused (hc : c.Solvent) {e : Connection.Error}
    (h : c.accept kind s = (d, .error e)) :
    (d = c ∧ c.done = true ∧ e = .closed) ∨
    (d = c ∧ c.done = false ∧ kind.accepts s.header.control = false ∧
      e = .unexpectedSegment kind s.kind) ∨
    (d = c ∧ c.done = false ∧ kind.accepts s.header.control = true ∧ s.seqLenFits = false ∧
      e = .overflow .seqLen) ∨
    ∃ l n w v, c.done = false ∧ kind.accepts s.header.control = true ∧ s.seqLenFits = true ∧
      kind.control.ack = true ∧ c.inFlight = some n ∧ e = .log l ∧ c.log = .writing w ∧
      w.HoldsBack (c.entry .recv n).line v ∧
      d = { (c.noteReceived s).advance kind s with inFlight := none, log := .writing v } := by
  by_cases hd : c.done = true
  · obtain ⟨rfl, rfl⟩ : d = c ∧ e = .closed := by
      simpa [accept, hd, eq_comm] using h
    exact .inl ⟨rfl, hd, rfl⟩
  simp only [Bool.not_eq_true] at hd
  cases hk : kind.accepts s.header.control with
  | false =>
    obtain ⟨rfl, rfl⟩ : d = c ∧ e = .unexpectedSegment kind s.kind := by
      simpa [accept, hd, hk, eq_comm] using h
    exact .inr (.inl ⟨rfl, hd, rfl, rfl⟩)
  | true =>
    cases hfits : s.seqLenFits with
    | false =>
      rw [accept_overflow hd hk hfits] at h
      cases h
      exact .inr (.inr (.inl ⟨rfl, hd, rfl, rfl, rfl⟩))
    | true =>
      obtain ⟨l, n, w, v, hrefused⟩ := hc.accept_unrecorded hd hk hfits h
      exact .inr (.inr (.inr ⟨l, n, w, v, hd, rfl, rfl, hrefused⟩))

theorem ne_syn_of_ack (ha : kind.control.ack = true) : kind ≠ .syn := by
  rintro rfl
  cases ha

/-- An acknowledgment that is awaited brings the number of the next segment. -/
theorem advance_of_ack (ha : kind.control.ack = true) (s : Segment) :
    c.advance kind s = { c with nextSeq := s.header.ack } := by
  rw [advance, if_neg (ne_syn_of_ack ha)]

/-- **A segment of the peer that is refused leaves no trace, unless the transfer log refuses.** A
connection that is done, or awaits control bits that the segment lacks, is left as it was, and so is
one that comes upon a segment whose sequence space is no word. The log refuses only the record of an
acknowledgment. The segment is noted by then, the next segment is to bear its acknowledgment number,
and what was in flight is gone without being refunded: out of a window in balance, what remains
falls short of the send window. Nothing else has changed. -/
theorem failed_accept_leaves (hc : Reachable c) {e : Connection.Error}
    (h : c.accept kind s = (d, .error e)) :
    (d = c ∧ c.done = true ∧ e = .closed) ∨
    (d = c ∧ c.done = false ∧ kind.accepts s.header.control = false ∧
      e = .unexpectedSegment kind s.kind) ∨
    (d = c ∧ c.done = false ∧ kind.accepts s.header.control = true ∧ s.seqLenFits = false ∧
      e = .overflow .seqLen) ∨
    ∃ l n w v, c.done = false ∧ kind.accepts s.header.control = true ∧ s.seqLenFits = true ∧
      kind.control.ack = true ∧ c.inFlight = some n ∧ e = .log l ∧ c.log = .writing w ∧
      w.HoldsBack (c.entry .recv n).line v ∧
      d = { c with
        received := ⟨s.header.seq, s.header.ack, s.seqLen, s.header.window⟩
        nextSeq := s.header.ack
        inFlight := none
        log := .writing v } ∧
      (c.window.remainder.toNat + (c.inFlight.getD 0).toNat = c.window.swnd.toNat →
        d.window.remainder.toNat + (d.inFlight.getD 0).toNat < d.window.swnd.toNat) := by
  obtain hclosed | hbits | hlong | ⟨l, n, w, v, hd, hk, hfits, ha, hf, he, hw, hback, rfl⟩ :=
    hc.solvent.accept_refused h
  · exact .inl hclosed
  · exact .inr (.inl hbits)
  · exact .inr (.inr (.inl hlong))
  · refine .inr (.inr (.inr ⟨l, n, w, v, hd, hk, hfits, ha, hf, he, hw, hback, ?_,
      fun hbalance => ?_⟩))
    · rw [advance_of_ack ha]
      rfl
    · rw [advance_of_ack ha]
      rw [hf] at hbalance
      show c.window.remainder.toNat + 0 < c.window.swnd.toNat
      have := (hc.solvent.flight n hf).1
      simp only [Option.getD_some] at hbalance
      omega

/-- Three bytes are sent, of which the first is numbered 1. -/
def threeBytes : List Op :=
  [.apply (.start .active), .segment .syn [], .segment .data [1, 2, 3]]

/-- A segment of the peer that acknowledges everything below a number. -/
def ackOf (number : UInt32) : Segment :=
  ⟨⟨0, 0, 7, number, 5, Kind.ack.control, 100, 0, 0⟩, []⟩

/-- A connection that has sent three bytes, whose sink is going to refuse the record of their
acknowledgment. -/
def unwritable : Connection :=
  (opened {} .active (some { refused := [1] })).performAll threeBytes

theorem reachable_unwritable : Reachable unwritable :=
  (reachable_opened {} .active (some { refused := [1] })).performAll threeBytes

theorem failed_accept_leaves_unwritable :
    ∃ d e, unwritable.accept .ack (ackOf 4) = (d, .error e) ∧ d.inFlight = none ∧
      d.nextSeq = 4 ∧ d.window.remainder.toNat < d.window.swnd.toNat := by
  obtain ⟨e, herr⟩ := eq_error (x := unwritable.accept .ack (ackOf 4)) (by decide +kernel)
  obtain ⟨-, hdone, -⟩ | ⟨-, -, hbits, -⟩ | ⟨-, -, -, hlong, -⟩ |
    ⟨l, n, w, v, -, -, -, -, -, -, -, -, hd, hshort⟩ :=
    failed_accept_leaves reachable_unwritable herr
  · exact absurd hdone (by decide +kernel)
  · exact absurd hbits (by decide +kernel)
  · exact absurd hlong (by decide +kernel)
  · have hfall := hshort (by decide +kernel)
    refine ⟨_, e, herr, ?_, ?_, ?_⟩ <;> rw [hd] at hfall ⊢
    · rfl
    · exact Nat.lt_of_le_of_lt (Nat.le_add_right _ _) hfall

/-- **Bytes in flight are lost with the record of their acknowledgment**: it is not so that a
segment that is refused leaves all but the transfer log as it was. -/
theorem refused_record_loses_flight : ¬ ∀ c kind s d e, Reachable c →
    c.accept kind s = (d, .error e) → d = { c with log := d.log } := by
  intro hall
  obtain ⟨e, herr⟩ := eq_error (x := unwritable.accept .ack (ackOf 4)) (by decide +kernel)
  have h := hall unwritable .ack (ackOf 4) _ e reachable_unwritable herr
  exact absurd (congrArg Connection.inFlight h) (by decide +kernel)

end StopWait.Connection
