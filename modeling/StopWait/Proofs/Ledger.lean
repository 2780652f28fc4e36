import Mathlib.Algebra.Group.Nat.Defs
import StopWait.Proofs.ReadBack
import StopWait.Proofs.Trail

/-!
# The transfer log of a session

The log is written from the congestion window and audited from the send window alone. Both come to
the same remainder, line after line.

* `Log.audit_append`: an audit goes on where it left off.
* `SendWindow.Conserved.growth_swnd`: the audit's growth of a send window is the sender's.
* `Connection.Audited`: the lines so far pass the audit and foretell the remainder.
* `Session.log_audited`: **whatever happens to a session, its log reads back and passes the audit**
  when the session is let go.
-/

namespace StopWait.Log

/-- The remainder that records foretell. -/
def foretold (records : List Record) : UInt32 :=
  records.foldl (fun expected r => r.advance expected) mss

theorem auditFrom_append (line : Nat) (expected : UInt32) (rs qs : List Record) :
    auditFrom line expected (rs ++ qs) = auditFrom line expected rs ++
      auditFrom (line + rs.length) (rs.foldl (fun e r => r.advance e) expected) qs := by
  induction rs generalizing line expected with
  | nil => rfl
  | cons r rs ih =>
    have hline : line + 1 + rs.length = line + (r :: rs).length := by
      rw [List.length_cons]
      omega
    rw [List.cons_append, auditFrom, auditFrom, ih, List.foldl_cons, hline]
    split <;> rfl

theorem audit_append (rs qs : List Record) :
    audit (rs ++ qs) = audit rs ++ auditFrom (1 + rs.length) (foretold rs) qs :=
  auditFrom_append 1 mss rs qs

/-- A record passes after others if they foretell its remainder. -/
theorem audit_concat {rs : List Record} {r : Record} (h : audit rs = [])
    (hr : r.remainder = foretold rs) : audit (rs ++ [r]) = [] := by
  rw [audit_append, h, auditFrom, if_pos hr]
  rfl

theorem foretold_concat (rs : List Record) (r : Record) :
    foretold (rs ++ [r]) = r.advance (foretold rs) := by
  rw [foretold, List.foldl_append]
  rfl

end StopWait.Log

namespace StopWait.SendWindow

variable {w : SendWindow} {flight : Nat}

/-- **The audit's growth of a send window is the sender's.** -/
theorem Conserved.growth_swnd (h : w.Conserved flight) :
    Log.growth w.swnd = min (w.cwnd + growth w.cwnd) maxWindow - w.swnd := by
  have hs := h.toNat_swnd
  have hmax : maxWindow.toNat = 3072 := rfl
  have hslow : slowStartLimit.toNat = 2144 := rfl
  have hm : mss.toNat = 536 := rfl
  have hlower := h.lower
  have hadd := toNat_add_of_lt (add_growth_lt h.upper)
  have hle : w.swnd ≤ min (w.cwnd + growth w.cwnd) maxWindow := by
    rw [UInt32.le_iff_toNat_le, toNat_min, hadd, hs]
    omega
  have hdiff := UInt32.toNat_sub_of_le _ _ hle
  rw [toNat_min, hadd, hs] at hdiff
  apply UInt32.toNat_inj.1
  rw [hdiff]
  by_cases hcap : maxWindow.toNat ≤ w.cwnd.toNat
  · -- at the cap neither grows
    have hsw : w.swnd.toNat = maxWindow.toNat := by omega
    rw [Log.growth, if_neg (by rw [UInt32.lt_iff_toNat_lt]; omega),
      if_neg (by rw [UInt32.lt_iff_toNat_lt]; omega)]
    show 0 = _
    omega
  · -- below it the send window is the congestion window
    have hsw : w.swnd = w.cwnd := UInt32.toNat_inj.1 (by omega)
    have hroom : (maxWindow - w.cwnd).toNat = maxWindow.toNat - w.cwnd.toNat :=
      UInt32.toNat_sub_of_le _ _ (by rw [UInt32.le_iff_toNat_le]; omega)
    rw [Log.growth, hsw, growth]
    by_cases hslow : w.cwnd < slowStartLimit
    · rw [if_pos hslow, if_pos hslow, toNat_min, hroom]
      omega
    · have hlt : w.cwnd < maxWindow := by rw [UInt32.lt_iff_toNat_lt]; omega
      rw [if_neg hslow, if_neg hslow, if_pos hlt, toNat_min, hroom]
      omega

/-- An acknowledged segment brings the remainder that the audit foretells. -/
theorem Conserved.remainder_grown (h : w.Conserved flight) (len : UInt32) :
    (w.grown len).remainder = w.remainder + len + Log.growth w.swnd := by
  rw [h.growth_swnd]
  rfl

/-- A segment that is sent leaves the remainder that the audit foretells. -/
theorem Conserved.remainder_spend (h : w.Conserved 0) {len : UInt32}
    (hlen : len.toNat ≤ mss.toNat) : (w.spend len).remainder = w.remainder - len := by
  rw [SendWindow.spend, if_pos (h.le_remainder hlen)]

end StopWait.SendWindow

namespace StopWait.Log

theorem length_decimal_le {n k : Nat} (hk : 0 < k) (h : n < 10 ^ k) :
    (Text.decimal n).length ≤ k := by
  rw [Text.decimal]
  split
  · exact hk
  · obtain ⟨j, rfl⟩ : ∃ j, k = j + 1 := ⟨k - 1, by omega⟩
    -- the last digit is one, and what is left of the number has one power less
    have hpow : n / 10 < 10 ^ j := by
      rw [Nat.pow_succ] at h
      omega
    have hj : 0 < j := by
      rcases Nat.eq_zero_or_pos j with rfl | hj
      · omega
      · exact hj
    have ih := length_decimal_le hj hpow
    rw [List.length_append, List.length_singleton]
    omega
termination_by n

theorem Record.length_line_le (r : Record) : r.line.length ≤ 39 := by
  have word : ∀ n : UInt32, (Text.decimal n.toNat).length ≤ 10 := by
    intro n
    have := n.toNat_lt
    exact length_decimal_le (by omega) (by omega)
  have h1 := word r.swnd
  have h2 := word r.remainder
  have h3 := word r.bytes
  have h4 : r.direction.bytes.length = 5 := by cases r.direction <;> rfl
  simp only [line, columns, List.intercalate_cons_cons, List.intercalate_singleton,
    List.length_append, List.length_singleton]
  omega

/-- **A writer between two records**: the sink holds the lines of some records, the buffer those of
others. -/
structure Writer.Holds (w : Writer) (kept held : List Record) : Prop where
  columns : w.columns = 0
  sink : w.sink.contents = text kept
  buffer : w.pending = text held

variable {w : Writer} {kept held : List Record}

/-- **While the buffer has room, a record goes out with all that was held back**, or is held back
with it. -/
theorem Writer.Holds.offer (h : w.Holds kept held) (r : Record)
    (hroom : w.pending.length + r.line.length ≤ capacity) :
    (w.sink.refuses = false ∧
      ∃ v, w.record r = (v, .ok ()) ∧ v.Holds (kept ++ held ++ [r]) []) ∨
    (w.sink.refuses = true ∧
      ∃ v, w.record r = (v, .error (.io refusal)) ∧ v.Holds kept (held ++ [r])) := by
  have hrec := record_of_room w r h.columns hroom
  rw [h.buffer, ← text_append] at hrec
  by_cases hr : w.sink.refuses = true
  · -- a refused line stays in the buffer, whole
    rw [if_pos hr, if_pos hr] at hrec
    refine .inr ⟨hr, _, hrec, h.columns, ?_, rfl⟩
    simp [Sink.contents_write, hr, h.sink]
  · rw [if_neg hr, if_neg hr] at hrec
    refine .inl ⟨by simpa using hr, _, hrec, h.columns, ?_, rfl⟩
    simp [Sink.contents_write, hr, h.sink, text]

/-- **A record is written whole or held back whole.** -/
theorem Writer.Holds.record (h : w.Holds kept []) (r : Record) :
    (∃ v, w.record r = (v, .ok ()) ∧ v.Holds (kept ++ [r]) []) ∨
    ∃ v e, w.record r = (v, .error e) ∧ v.Holds kept [r] := by
  have hroom : w.pending.length + r.line.length ≤ capacity := by
    have hline := r.length_line_le
    have hp : w.pending.length = 0 := by rw [h.buffer]; rfl
    unfold capacity
    omega
  obtain ⟨-, v, hv, hk⟩ | ⟨-, v, hv, hk⟩ := h.offer r hroom
  · rw [List.append_nil] at hk
    exact .inl ⟨v, hv, hk⟩
  · exact .inr ⟨v, _, hv, hk⟩

/-- A writer that is closed offers what it holds once more. -/
theorem Writer.Holds.close (h : w.Holds kept held) :
    w.close.contents = text kept ∨ w.close.contents = text (kept ++ held) := by
  unfold Writer.close
  split
  · exact .inl h.sink
  · rw [Sink.contents_write]
    split
    · exact .inl h.sink
    · right
      rw [h.sink, h.buffer]
      simp [text]

end StopWait.Log

namespace StopWait.TransferLog

/-- What a transfer log has written, and what it holds back. -/
def Holds (kept held : List Log.Record) : TransferLog → Prop
  | .absent => False
  | .writing w => w.Holds kept held
  | .released s => s.contents = Log.text kept ∧ held = []

variable {log : TransferLog} {kept held : List Log.Record}

/-- A log that is closed holds nothing back, and has written all or all but what it held back. -/
theorem Holds.close (h : Holds kept held log) :
    log.close.contents = Log.text kept ∨ log.close.contents = Log.text (kept ++ held) := by
  cases log with
  | absent => exact h.elim
  | released s => exact .inl h.1
  | writing w => exact Log.Writer.Holds.close h

end StopWait.TransferLog

namespace StopWait.Connection

/-- **The books of a connection**: the lines of its log pass the audit and foretell the remainder,
and none is held back. -/
structure Audited (c : Connection) (records : List Log.Record) : Prop where
  balanced : c.Balanced
  kept : c.log.Holds records []
  writing : c.done = false → ∃ w, c.log = .writing w
  audit : Log.audit records = []
  foretold : Log.foretold records = c.window.remainder

/-- Whether the log of a connection passes the audit, with or without what it holds back. -/
def Legible (c : Connection) : Prop :=
  ∃ kept held, c.log.Holds kept held ∧ Log.audit (kept ++ held) = []

variable {c d : Connection} {records : List Log.Record}

theorem Audited.legible (h : c.Audited records) : c.Legible :=
  ⟨records, [], h.kept, by rw [List.append_nil]; exact h.audit⟩

theorem Audited.congr (h : c.Audited records) (hw : d.window = c.window)
    (hf : d.inFlight = c.inFlight) (hl : d.log = c.log) (hd : d.done = c.done) :
    d.Audited records := by
  refine ⟨h.balanced.congr hw hf, by rw [hl]; exact h.kept, ?_, h.audit, by rw [hw]; exact h.foretold⟩
  rw [hd, hl]
  exact h.writing

theorem audited_opened (settings : Settings) (role : Role) (refused : List Nat) :
    (opened settings role (some { refused })).Audited [] :=
  ⟨balanced_opened _ _ _, ⟨rfl, rfl, rfl⟩, fun _ => ⟨_, rfl⟩, rfl, rfl⟩

theorem perform_of_done (hd : c.done = true) (op : Op) : (c.perform op).1 = c := by
  cases op with
  | apply t => simp [perform, apply, hd]
  | segment kind payload => simp [perform, segment, sendFault, hd]
  | accept kind s => simp [perform, accept, hd]
  | record s => simp [perform, record, hd]
  | finish => simp [perform, finish, finishes, hd]

/-- The record that would be written about `len` bytes now. -/
def entry (c : Connection) (dir : Log.Direction) (len : UInt32) : Log.Record :=
  ⟨dir, c.window.swnd, c.window.remainder, len⟩

theorem entry_congr (hw : d.window = c.window) : d.entry = c.entry := by
  funext dir len
  rw [entry, hw, entry]

/-- The record that an operation leaves when it is done: of the data segment that it sends, or of
the one whose acknowledgment it takes in. -/
def due (c : Connection) : Op → Option Log.Record
  | .segment .data payload => some (c.entry .send (UInt32.ofNat payload.length))
  | .accept kind _ => if kind.control.ack then c.inFlight.map (c.entry .recv) else none
  | _ => none

theorem due_control {kind : Kind} (hk : kind ≠ .data) (payload : List UInt8) :
    c.due (.segment kind payload) = none := by
  cases kind <;> first | exact absurd rfl hk | rfl

/-- Once a connection has ended, nothing is done that would leave a record. -/
theorem due_of_done (hd : c.done = true) (op : Op) (h : (c.perform op).2 = none) :
    c.due op = none := by
  cases op with
  | segment kind payload => simp [perform, segment, sendFault, hd] at h
  | accept kind s => simp [perform, accept, hd] at h
  | apply | record | finish => rfl

/-- **A line is added to the books, or held back.** -/
theorem Audited.logData (h : c.Audited records) (hd : c.done = false) (dir : Log.Direction)
    (len : UInt32) :
    Log.audit (records ++ [c.entry dir len]) = [] ∧
    ((∃ v, c.logData dir len = ({ c with log := .writing v }, .ok ()) ∧
      v.Holds (records ++ [c.entry dir len]) []) ∨
    ∃ v e, c.logData dir len = ({ c with log := .writing v }, .error e) ∧
      v.Holds records [c.entry dir len]) := by
  obtain ⟨w, hw⟩ := h.writing hd
  have hk : w.Holds records [] := by simpa [hw, TransferLog.Holds] using h.kept
  refine ⟨Log.audit_concat h.audit h.foretold.symm, ?_⟩
  obtain ⟨v, hv, hv'⟩ | ⟨v, e, hv, hv'⟩ := hk.record (c.entry dir len)
  · exact .inl ⟨v, by simp only [Connection.logData, TransferLog.record, hw]; rw [← entry, hv], hv'⟩
  · exact .inr ⟨v, e, by simp only [Connection.logData, TransferLog.record, hw]; rw [← entry, hv],
      hv'⟩

/-- A data segment that is sent is in the books. -/
theorem Audited.afterData (h : c.Audited records) (hf : c.inFlight = none)
    {payload : List UInt8} (hp : payload ≠ []) (hlen : payload.length ≤ mss.toNat)
    {v : Log.Writer}
    (hv : v.Holds (records ++ [c.entry .send (UInt32.ofNat payload.length)]) []) :
    ({ c with log := .writing v }.afterData payload).Audited
      (records ++ [c.entry .send (UInt32.ofNat payload.length)]) := by
  have hn : (UInt32.ofNat payload.length).toNat ≤ mss.toNat := by
    rw [toNat_length hlen]
    exact hlen
  refine ⟨h.balanced.congr (d := { c with log := .writing v }) rfl rfl |>.afterData hf hp hlen,
    hv, fun _ => ⟨v, rfl⟩, Log.audit_concat h.audit h.foretold.symm, ?_⟩
  rw [Log.foretold_concat, h.foretold]
  exact ((h.balanced.conserved_of_none hf).remainder_spend hn).symm

/-- An acknowledgment that is taken in is in the books. -/
theorem Audited.acknowledge (h : c.Audited records) (hd : c.done = false) :
    match c.acknowledge with
    | (d, .ok ()) => d.Audited (records ++ (c.inFlight.map (c.entry .recv)).toList)
    | (d, .error _) => d.Legible := by
  obtain ⟨hf, ha⟩ | ⟨n, hf, hcases⟩ := h.balanced.acknowledge_cases
  · rw [ha, hf]
    exact (List.append_nil records).symm ▸ h
  -- the log does not look at what is in flight
  have hlog := h.logData hd .recv n
  have hsame : { c with inFlight := none }.logData .recv n =
      ({ (c.logData .recv n).1 with inFlight := none }, (c.logData .recv n).2) := rfl
  rw [hsame] at hcases
  obtain ⟨haudit, ⟨v, hv, hk⟩ | ⟨v, e, hv, hk⟩⟩ := hlog <;> simp only [hv] at hcases
  · obtain ⟨e, he, -⟩ | ⟨-, ha⟩ := hcases
    · cases he
    rw [ha, hf]
    -- the line is written, and the window grows as it foretells
    have hc := h.balanced.conserved_of_some hf
    refine ⟨⟨hc.acknowledge_data.2, fun m hm => by cases hm⟩, hk, fun _ => ⟨v, rfl⟩, haudit, ?_⟩
    show Log.foretold (records ++ [c.entry .recv n]) = (c.window.grown n).remainder
    rw [Log.foretold_concat, h.foretold]
    exact (hc.remainder_grown n).symm
  · obtain ⟨e, -, ha⟩ | ⟨he, -⟩ := hcases
    · rw [ha]
      exact ⟨records, _, hk, haudit⟩
    · cases he

/-- A segment that is sent is in the books if it has data. -/
theorem Audited.segment (h : c.Audited records) (hd : c.done = false) (kind : Kind)
    (payload : List UInt8) :
    match c.perform (.segment kind payload) with
    | (d, none) => d.Audited (records ++ (c.due (.segment kind payload)).toList)
    | (d, some _) => d.Legible := by
  have hkept : c.Audited (records ++ []) := (List.append_nil records).symm ▸ h
  obtain ⟨e, hs, -⟩ | ⟨-, e, he, hs⟩ | ⟨hk, -, -, hs⟩ | ⟨rfl, -, hf, hp, hlen, he, hs⟩ :=
    segment_cases c kind payload <;> simp only [Connection.perform, hs]
  · exact h.legible
  · obtain ⟨haudit, ⟨v, hv, hk⟩ | ⟨v, e, hv, hk⟩⟩ :=
      h.logData hd .send (UInt32.ofNat payload.length) <;> rw [hv] at he ⊢
    · cases he
    · exact ⟨records, _, hk, haudit⟩
  · rw [due_control hk payload]
    exact hkept.congr rfl rfl rfl rfl
  · obtain ⟨-, ⟨v, hv, hk⟩ | ⟨v, e, hv, hk⟩⟩ :=
      h.logData hd .send (UInt32.ofNat payload.length) <;> rw [hv] at he ⊢
    · exact h.afterData hf hp hlen hk
    · cases he

/-- A segment that is accepted is in the books if it acknowledges data. -/
theorem Audited.accept (h : c.Audited records) (hd : c.done = false) (kind : Kind) (s : Segment) :
    match c.perform (.accept kind s) with
    | (d, none) => d.Audited (records ++ (c.due (.accept kind s)).toList)
    | (d, some _) => d.Legible := by
  have hadv : ((c.noteReceived s).advance kind s).Audited records :=
    h.congr (advance_window s) (advance_inFlight s) (advance_log s) advance_done
  obtain ⟨e, hs, -⟩ | ⟨-, -, -, hk, hs⟩ | ⟨-, -, -, hk, hs⟩ := accept_cases c kind s <;>
    simp only [Connection.perform, hs]
  · exact h.legible
  · rw [due, hk]
    exact (List.append_nil records).symm ▸ hadv
  · have hack := hadv.acknowledge (advance_done.trans hd)
    have hentry : ((c.noteReceived s).advance kind s).entry = c.entry :=
      entry_congr (advance_window s)
    have hflight : ((c.noteReceived s).advance kind s).inFlight = c.inFlight :=
      advance_inFlight s
    rw [hentry, hflight] at hack
    rw [due, hk]
    rcases ha : ((c.noteReceived s).advance kind s).acknowledge with ⟨d, r⟩
    rw [ha] at hack
    cases r with
    | ok u => exact hack
    | error e => exact hack

/-- A log that is released holds nothing back. -/
theorem Audited.finish (h : c.Audited records) (hd : c.done = false) :
    (c.perform .finish).1.Audited (records ++ (c.due .finish).toList) := by
  simp only [Connection.perform, Connection.finish]
  split
  · obtain ⟨w, hw⟩ := h.writing hd
    have hk : w.Holds records [] := by simpa [hw, TransferLog.Holds] using h.kept
    have hclose : w.close = w.sink := by rw [Log.Writer.close, hk.buffer]; rfl
    refine ⟨h.balanced.congr rfl rfl, ?_, by simp, (List.append_nil records).symm ▸ h.audit,
      (List.append_nil records).symm ▸ h.foretold⟩
    simp only [hw, TransferLog.close, hclose, due, Option.toList_none, List.append_nil]
    exact ⟨hk.sink, rfl⟩
  · exact (List.append_nil records).symm ▸ h

/-- **Each operation keeps the books**: with the record that is due, or it fails and leaves them in
order. -/
theorem Audited.perform (h : c.Audited records) (op : Op) :
    match c.perform op with
    | (d, none) => d.Audited (records ++ (c.due op).toList)
    | (d, some _) => d.Legible := by
  have hkept : c.Audited (records ++ []) := (List.append_nil records).symm ▸ h
  by_cases hd : c.done = true
  · -- a connection that has ended writes nothing
    have hsame := perform_of_done hd op
    have hdue := due_of_done hd op
    rcases hp : c.perform op with ⟨d, e⟩
    rw [hp] at hsame hdue
    obtain rfl : d = c := hsame
    cases e with
    | none =>
      rw [hdue rfl]
      exact hkept
    | some e => exact h.legible
  rw [Bool.not_eq_true] at hd
  cases op with
  | apply t =>
    simp only [Connection.perform, apply, hd, Bool.false_eq_true, if_false]
    cases c.state.on t with
    | error e => exact h.legible
    | ok r => exact hkept.congr rfl rfl rfl hd.symm
  | segment kind payload => exact h.segment hd kind payload
  | accept kind s => exact h.accept hd kind s
  | record s =>
    obtain ⟨e, hr, -⟩ | hr := c.perform_record_cases s <;> rw [hr]
    · exact h.legible
    · exact hkept.congr rfl rfl rfl rfl
  | finish => exact h.finish hd

/-- Operations up to the first that fails keep the books, or leave them in order. -/
theorem Audited.attempt (h : c.Audited records) (ops : List Op) :
    match c.attempt ops with
    | (d, none) => ∃ records, d.Audited records
    | (d, some _) => d.Legible := by
  induction ops generalizing c records with
  | nil => exact ⟨records, h⟩
  | cons op ops ih =>
    have hop := h.perform op
    rw [Connection.attempt]
    rcases hp : c.perform op with ⟨d, e⟩
    rw [hp] at hop
    cases e with
    | none => exact ih hop
    | some e => exact hop

end StopWait.Connection

namespace StopWait.Session

/-- **The log of a session at a stage**: its books are kept, or in order after a failure. -/
def Booked (y : Connection × Stage) : Prop :=
  (∃ records, y.1.Audited records) ∨ (∃ e, y.2 = .failed e) ∧ y.1.Legible

theorem Booked.legible {y : Connection × Stage} (h : Booked y) : y.1.Legible := by
  rcases h with ⟨records, h⟩ | ⟨-, h⟩
  · exact h.legible
  · exact h

theorem booked_carry {c : Connection} {records : List Log.Record} (h : c.Audited records)
    (t : Turn) : Booked (carry c t) := by
  have ht := h.attempt t.1
  unfold carry
  rcases hc : c.attempt t.1 with ⟨d, e⟩
  rw [hc] at ht
  cases e with
  | none => exact .inl ht
  | some e => exact .inr ⟨⟨_, rfl⟩, ht⟩

/-- **Whatever happens to a session, its log is in order**: when the session is let go, the log's
text is a list of whole lines, which reads back as records that pass the audit. The write calls in
`refused` are refused. -/
theorem log_audited (settings : Settings) (role : Role) (refused : List Nat)
    (happened : List Happening) (t : Session)
    (h : History ((Session.new settings role).withLog { refused }) happened t) :
    ∃ records, t.drop.connection.log.contents = (records.map Log.Record.line).flatten ∧
      Log.read t.drop.connection.log.contents = .ok records ∧ Log.audit records = [] := by
  have hopen := Connection.audited_opened settings role refused
  obtain ⟨c, x, rfl, -, hb⟩ := History.staged_of (P := Booked)
    (Connection.opened_free settings role (some { refused })) (.inl ⟨[], hopen⟩)
    (booked_carry hopen _)
    (fun c x p r hp _ hb => by
      obtain ⟨records, ha⟩ | ⟨⟨e, rfl⟩, -⟩ := hb
      · exact booked_carry ha _
      · cases hp)
    (fun c x e _ hb => .inr ⟨⟨e, rfl⟩, hb.legible⟩) h
  obtain ⟨kept, held, hk, haudit⟩ := hb.legible
  have hdrop : (staged (c, x)).drop.connection.log.contents = c.log.close.contents := rfl
  rw [hdrop]
  -- what was held back is offered once more, and refused or written
  obtain hc | hc := hk.close <;> rw [hc]
  · rw [Log.audit_append, List.append_eq_nil_iff] at haudit
    exact ⟨kept, rfl, Log.read_text kept, haudit.1⟩
  · exact ⟨kept ++ held, rfl, Log.read_text _, haudit⟩

/-- A stack that takes two data segments of an active session, and acknowledges both. -/
def twoAcknowledged : List Response :=
  [.sent 20, .event .networkData, .bytes (blank .synAck []), .sent 20, .told,
    .event .appData, .bytes [1, 2, 3], .sent 23, .event .networkData, .bytes (blank .ack []),
    .event .appData, .bytes [4, 5], .sent 22, .event .networkData, .bytes (blank .ack [])]

/-- The records of both. -/
def twoCycles : List Log.Record :=
  [⟨.send, 536, 536, 3⟩, ⟨.recv, 536, 533, 3⟩, ⟨.send, 1072, 1072, 2⟩, ⟨.recv, 1072, 1070, 2⟩]

/-- The sink refuses the record of the second acknowledgment, and the run fails. So does the next
one. The line goes out when the session is let go, and what reads back is all four records. -/
theorem log_audited_twoCycles :
    ∃ happened t, History ((Session.new {} .active).withLog { refused := [3] }) happened t ∧
      happened.count .run = 2 ∧ (∃ e, t.result? = some (.error e)) ∧
      t.connection.log.contents = Log.text (twoCycles.take 3) ∧
      t.drop.connection.log.contents = Log.text twoCycles ∧
      Log.read t.drop.connection.log.contents = .ok twoCycles ∧ Log.audit twoCycles = [] := by
  have hplayed : (rehearse {} .active (some { refused := [3] }) twoAcknowledged).map
      (fun q => ((q.1.reverse.map Prod.snd).count .run, q.2.1.state, q.2.1.log.contents,
        q.2.1.drop.log.contents)) =
      some (1, .established, Log.text (twoCycles.take 3), Log.text twoCycles) := by
    decide +kernel
  obtain ⟨⟨past, y⟩, hhears, hfacts⟩ := Option.map_eq_some_iff.1 hplayed
  simp only [Prod.mk.injEq] at hfacts
  obtain ⟨hruns, hstate, hcontents, hdropped⟩ := hfacts
  have hbefore : History ((Session.new {} .active).withLog { refused := [3] }) _ (staged y) :=
    (reaches_rehearse hhears).trail.history
  -- the connection has left LISTEN, so that the second run fails at once
  have hagain : (staged y).start.1 = staged (y.1, .failed (.connection y.1.reopening)) :=
    start_of_ne_listen (by rw [hstate]; decide)
  have hh := hbefore.snoc (.run (staged y))
  rw [hagain] at hh
  obtain ⟨records, -, hread, haudit⟩ := log_audited {} .active [3] _ _ hh
  have htext : (staged (y.1, .failed (.connection y.1.reopening))).drop.connection.log.contents =
      Log.text twoCycles := hdropped
  rw [htext, Log.read_text] at hread
  cases hread
  exact ⟨_, _, hh, by rw [List.count_append, hruns]; rfl, ⟨_, rfl⟩, hcontents, htext,
    by rw [htext, Log.read_text], haudit⟩

end StopWait.Session
