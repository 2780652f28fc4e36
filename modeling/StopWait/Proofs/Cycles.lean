import Mathlib.Data.List.Induction
import StopWait.Proofs.Journal

/-!
# The transfer log foretold

The bytes of an application go out in pieces, each when the one before has been acknowledged. So
the transfer log can be told beforehand: a window goes through a cycle for each piece, and every
cycle has two records.

* `SendWindow.cycles`: **the records of cycles**, told from the window alone.
* `pieceLengths`: the lengths of consecutive pieces of so many bytes.
* `Connection.Logged`: **a connection whose log is that of cycles.**
* `Logged.carry`: what a turn makes of it.
-/

namespace StopWait

namespace SendWindow

/-- The records of a data segment that is sent and acknowledged, with the window before either. -/
def cycleRecords (w : SendWindow) (len : UInt32) : List Log.Record :=
  [⟨.send, w.swnd, w.remainder, len⟩, ⟨.recv, (w.spend len).swnd, (w.spend len).remainder, len⟩]

/-- Goes through one more cycle, after those with these records. -/
def logCycle (y : SendWindow × List Log.Record) (len : Nat) :
    Except Overflow (SendWindow × List Log.Record) := do
  let v ← y.1.cycle (UInt32.ofNat len)
  return (v, y.2 ++ y.1.cycleRecords (UInt32.ofNat len))

/-- Goes through a cycle for each length, and gives the records of all of them. -/
def cycles (w : SendWindow) (lens : List Nat) : Except Overflow (SendWindow × List Log.Record) :=
  lens.foldlM logCycle (w, [])

variable {w v u : SendWindow} {lens : List Nat} {len : Nat} {records : List Log.Record}

/-- One more cycle. -/
theorem cycles_concat (h : w.cycles lens = .ok (v, records))
    (hv : v.cycle (UInt32.ofNat len) = .ok u) :
    w.cycles (lens ++ [len]) = .ok (u, records ++ v.cycleRecords (UInt32.ofNat len)) := by
  rw [cycles] at h ⊢
  simp only [List.foldlM_append, h, List.foldlM_cons, List.foldlM_nil, logCycle, hv, bind,
    Except.bind, pure, Except.pure]

/-- Every cycle has two records. -/
theorem length_of_cycles (h : w.cycles lens = .ok (v, records)) :
    records.length = 2 * lens.length := by
  induction lens using List.reverseRecOn generalizing v records with
  | nil =>
    cases h
    rfl
  | append_singleton lens len ih =>
    simp only [cycles, List.foldlM_append, bind, Except.bind] at h
    split at h
    · cases h
    · rename_i y hy
      simp only [List.foldlM_cons, List.foldlM_nil, logCycle, bind, Except.bind, pure,
        Except.pure] at h
      cases hc : y.1.cycle (UInt32.ofNat len) with
      | error e =>
        rw [hc] at h
        cases h
      | ok u =>
        rw [hc] at h
        cases h
        have hlen := ih hy
        simp only [List.length_append, hlen, cycleRecords, List.length_cons, List.length_nil]
        omega

/-- A window that has nothing on its way sends a whole segment in a cycle. -/
theorem Conserved.cycle_eq (h : w.Conserved 0) (hlen : len ≤ mss.toNat) :
    w.cycle (UInt32.ofNat len) =
      (w.spend (UInt32.ofNat len)).acknowledge (.data (UInt32.ofNat len)) := by
  have hsent : min (UInt32.ofNat len) (UInt32.ofNat w.budget) = UInt32.ofNat len := by
    apply UInt32.toNat_inj.1
    have hm : mss.toNat = 536 := rfl
    have hn : (UInt32.ofNat len).toNat = len :=
      UInt32.toNat_ofNat_of_lt' (by unfold UInt32.size; omega)
    rw [toNat_min, h.budget_eq, UInt32.ofNat_toNat, hn]
    omega
  rw [cycle, hsent]

end SendWindow

/-- The lengths of consecutive pieces of `n` bytes: full segments, and what is left over. -/
def pieceLengths (n : Nat) : List Nat :=
  List.replicate (n / mss.toNat) mss.toNat ++ if n % mss.toNat = 0 then [] else [n % mss.toNat]

theorem pieceLengths_zero : pieceLengths 0 = [] := rfl

/-- The next piece, after full ones. -/
theorem pieceLengths_add {n len : Nat} (hn : n % mss.toNat = 0) (hpos : 0 < len)
    (hle : len ≤ mss.toNat) : pieceLengths (n + len) = pieceLengths n ++ [len] := by
  have hm : mss.toNat = 536 := rfl
  unfold pieceLengths
  rw [hm] at hn hle ⊢
  rcases Nat.eq_or_lt_of_le hle with rfl | hlt
  · -- a full one
    have hdiv : (n + 536) / 536 = n / 536 + 1 := by omega
    rw [hdiv, if_pos (by omega), if_pos hn, List.replicate_succ']
    simp
  · have hdiv : (n + len) / 536 = n / 536 := by omega
    have hmod : (n + len) % 536 = len := by omega
    rw [hdiv, hmod, if_neg (by omega), if_pos hn, List.append_nil]

theorem length_pieceLengths (n : Nat) :
    (pieceLengths n).length = (n + (mss.toNat - 1)) / mss.toNat := by
  have hm : mss.toNat = 536 := rfl
  unfold pieceLengths
  rw [hm, List.length_append, List.length_replicate]
  split
  · rw [List.length_nil]
    omega
  · rw [List.length_singleton]
    omega

namespace Connection

/-- The length of the data segment that an operation sends. -/
def Op.dataLengths : Op → List Nat
  | .segment .data payload => [payload.length]
  | _ => []

/-- **The records of a connection are those of cycles** with these lengths, but for the last
acknowledgment while the last piece is in flight. -/
inductive Cycled (c : Connection) (records : List Log.Record) : List Nat → Prop where
  | settled {lens : List Nat} (hf : c.inFlight = none)
    (h : SendWindow.initial.cycles lens = .ok (c.window, records)) : Cycled c records lens
  | flying {lens : List Nat} {len : Nat} {w : SendWindow} {before : List Log.Record}
    (hf : c.inFlight = some (UInt32.ofNat len)) (hw : c.window = w.spend (UInt32.ofNat len))
    (hlen : len ≤ mss.toNat) (hfree : w.Conserved 0)
    (h : SendWindow.initial.cycles lens = .ok (w, before))
    (hr : records = before ++ [⟨.send, w.swnd, w.remainder, UInt32.ofNat len⟩]) :
    Cycled c records (lens ++ [len])

variable {c d : Connection} {op : Op} {ops : List Op} {records : List Log.Record}
  {lens : List Nat}

theorem Cycled.congr (h : c.Cycled records lens) (hw : d.window = c.window)
    (hf : d.inFlight = c.inFlight) : d.Cycled records lens := by
  cases h with
  | settled hc h => exact .settled (hf.trans hc) (hw ▸ h)
  | flying hc hw' hlen hfree h hr => exact .flying (hf.trans hc) (hw.trans hw') hlen hfree h hr

/-- What a data segment that is sent carries is what was to be sent. -/
theorem dataLengths_of_done (h : c.perform op = (d, none)) :
    (c.dataSent op).toList.map (·.payload.length) = op.dataLengths := by
  cases op with
  | segment kind payload =>
    by_cases hk : kind = .data
    · subst hk
      obtain ⟨e, hs, -⟩ | ⟨-, e, -, hs⟩ | ⟨hk, -⟩ | ⟨-, -, -, -, -, -, hs⟩ :=
        segment_cases c .data payload
      · simp [perform, hs] at h
      · simp [perform, hs] at h
      · exact absurd rfl hk
      · simp [dataSent, hs, Except.toOption, Op.dataLengths, compose]
    · rw [dataSent_control hk]
      cases kind <;> first | exact absurd rfl hk | rfl
  | _ => rfl

/-- **An operation that is done goes on with the cycles.** -/
theorem Cycled.perform (h : c.Cycled records lens) (hb : c.Balanced)
    (hp : c.perform op = (d, none)) :
    d.Cycled (records ++ c.posted op) (lens ++ op.dataLengths) := by
  have hop := hb.solvent.perform_account op
  rw [← dataLengths_of_done hp]
  rw [hp] at hop
  generalize c.dataSent op = sent, c.posted op = posted at hop ⊢
  cases hop with
  | idle hw hf =>
    rw [List.append_nil, Option.toList_none, List.map_nil, List.append_nil]
    exact h.congr hw hf
  | @spends a len hc hd hw ha =>
    cases h with
    | flying hf => cases hc.symm.trans hf
    | settled hf h =>
      -- a piece is on its way, out of a window that was free
      have hlen : UInt32.ofNat a.payload.length = len := by rw [ha.length, UInt32.ofNat_toNat]
      have hrange := ha.range.2
      rw [← ha.length] at hrange
      refine .flying (hlen ▸ hd) (hlen ▸ hw) hrange (hb.conserved_of_none hc) h ?_
      rw [hlen]
      rfl
  | @credits len hc hd hw =>
    cases h with
    | settled hf => cases hc.symm.trans hf
    | @flying lens n w before hf hw' hlen hfree h hr =>
      obtain rfl : len = UInt32.ofNat n := Option.some.inj (hc.symm.trans hf)
      have hcycle : w.cycle (UInt32.ofNat n) = .ok d.window := by
        rw [hfree.cycle_eq hlen, ← hw', hw]
      rw [Option.toList_none, List.map_nil, List.append_nil]
      refine .settled hd ?_
      rw [SendWindow.cycles_concat h hcycle, hr, List.append_assoc, entry, hw']
      rfl

/-- **A connection whose log is that of cycles** with these lengths. -/
def Logged (c : Connection) (lens : List Nat) : Prop :=
  ∃ records, c.Journaled records ∧ c.Cycled records lens

theorem logged_opened (settings : Settings) (role : Role) :
    (opened settings role (some {})).Logged [] :=
  ⟨[], journaled_opened settings role, .settled rfl rfl⟩

/-- An operation that is done. -/
theorem Logged.perform (h : c.Logged lens) (hp : c.perform op = (d, none)) :
    d.Logged (lens ++ op.dataLengths) := by
  obtain ⟨records, hj, hc⟩ := h
  have hj' := hj.perform op
  rw [hp] at hj'
  exact ⟨_, hj', hc.perform hj.audited.balanced hp⟩

/-- Nothing is in flight where nothing has been sent. -/
theorem Logged.inFlight_perform (h : c.Logged lens) (hf : c.inFlight = none)
    (hop : op.dataLengths = []) (hp : c.perform op = (d, none)) : d.inFlight = none := by
  obtain ⟨records, hj, -⟩ := h
  have haccount := hj.audited.balanced.solvent.perform_account op
  rw [← dataLengths_of_done hp, List.map_eq_nil_iff] at hop
  rw [hp] at haccount
  generalize c.dataSent op = sent, c.posted op = posted at haccount hop
  cases haccount with
  | idle hw hd => exact hd.trans hf
  | spends => cases hop
  | credits hc => cases hf.symm.trans hc

/-- Operations that are all done. -/
theorem Logged.attempt (h : c.Logged lens) (ha : c.attempt ops = (d, none)) :
    d.Logged (lens ++ ops.flatMap Op.dataLengths) ∧
      (c.inFlight = none → ops.flatMap Op.dataLengths = [] → d.inFlight = none) := by
  induction ops generalizing c lens with
  | nil =>
    cases ha
    rw [List.flatMap_nil, List.append_nil]
    exact ⟨h, fun hf _ => hf⟩
  | cons op ops ih =>
    rcases hp : c.perform op with ⟨c', e⟩
    rw [Connection.attempt, hp] at ha
    cases e with
    | some e => cases ha
    | none =>
      obtain ⟨hlogged, hlands⟩ := ih (h.perform hp) ha
      rw [List.flatMap_cons, ← List.append_assoc]
      refine ⟨hlogged, fun hf hops => ?_⟩
      obtain ⟨hop, hrest⟩ := List.append_eq_nil_iff.1 hops
      exact hlands (h.inFlight_perform hf hop hp) hrest

/-- The log of a connection that has ended may be let go. -/
theorem Logged.drop (h : c.Logged lens) (hd : c.done = true) : c.drop.Logged lens := by
  obtain ⟨records, ⟨haudited, hcalm, halternates⟩, hc⟩ := h
  refine ⟨records, ⟨⟨haudited.balanced.congr rfl rfl, ?_, fun hu => ?_, haudited.audit,
    haudited.foretold⟩, ?_, halternates⟩, hc.congr rfl rfl⟩
  · have hkept := haudited.kept
    show c.log.close.Holds records []
    cases hl : c.log with
    | absent =>
      rw [hl] at hkept
      exact hkept.elim
    | released sink =>
      rw [hl] at hkept
      exact hkept
    | writing w =>
      rw [hl] at hkept
      refine ⟨?_, rfl⟩
      obtain hc | hc := hkept.close
      · exact hc
      · rwa [List.append_nil] at hc
  · cases hd.symm.trans hu
  · show c.log.close.Calm
    cases c.log <;> trivial

/-- **What the log says** when nothing is in flight: the records of the cycles, which pass the
audit. -/
theorem Logged.contents (h : c.Logged lens) (hf : c.inFlight = none) :
    ∃ records, SendWindow.initial.cycles lens = .ok (c.window, records) ∧
      c.log.contents = Log.text records ∧ Log.audit records = [] := by
  obtain ⟨records, hj, hc⟩ := h
  cases hc with
  | settled _ h => exact ⟨records, h, hj.contents, hj.audited.audit⟩
  | flying hf' => cases hf.symm.trans hf'

end Connection

namespace Session

open Connection (Op)

variable {c d : Connection} {t : Turn} {x : Stage} {r : Response} {lens : List Nat}

/-- **What a turn that does not fail makes of the log.** -/
theorem Logged.carry (h : c.Logged lens) (hc : carry c t = (d, x)) (hx : ∀ e, x ≠ .failed e) :
    d.Logged (lens ++ t.1.flatMap Op.dataLengths) ∧
      (c.inFlight = none → t.1.flatMap Op.dataLengths = [] → d.inFlight = none) := by
  rcases ha : c.attempt t.1 with ⟨d', e⟩
  rw [Session.carry, ha] at hc
  cases e with
  | some e =>
    cases hc
    exact absurd rfl (hx _)
  | none =>
    cases hc
    exact h.attempt ha

/-- An acknowledgment has no data. -/
theorem dataLengths_begin (a : Arrival) (bytes : List UInt8) :
    (a.message.begin bytes).1.flatMap Op.dataLengths = [] := by
  cases a <;> rfl

theorem dataLengths_arrival_begin (a : Arrival) (bytes : List UInt8) :
    (a.begin bytes).1.flatMap Op.dataLengths = [] := by
  unfold Arrival.begin
  split
  · exact dataLengths_begin a bytes
  · rfl

theorem dataLengths_take (w : Wait) (s : Segment) : (w.take s).1.flatMap Op.dataLengths = [] := by
  cases w with
  | peerFin => exact dataLengths_arrival_begin .lastFin s.payload
  | _ => rfl

theorem dataLengths_arrival (s : Segment) : (arrival s).1.flatMap Op.dataLengths = [] := by
  unfold arrival
  split
  · exact dataLengths_arrival_begin .peerFin s.payload
  · split
    · rfl
    · exact dataLengths_arrival_begin .data s.payload

theorem dataLengths_readSegment {take : Segment → Turn}
    (ht : ∀ s, (take s).1.flatMap Op.dataLengths = []) (bytes : List UInt8) :
    (readSegment bytes take).1.flatMap Op.dataLengths = [] := by
  unfold readSegment
  split
  · rfl
  · exact ht _

/-- Only a session that fetches sends data. -/
theorem dataLengths_turn (hx : x ≠ .fetching) (r : Response) :
    (x.turn r).1.flatMap Op.dataLengths = [] := by
  cases r with
  | failed e => cases x <;> rfl
  | event e => cases x <;> cases e <;> rfl
  | sent n =>
    cases x with
    | sending m bytes =>
      simp only [Stage.turn]
      split
      · rfl
      · cases m <;> rfl
    | _ => rfl
  | bytes bytes =>
    cases x with
    | fetching => exact absurd rfl hx
    | reading => exact dataLengths_readSegment dataLengths_arrival bytes
    | receiving w => exact dataLengths_readSegment (dataLengths_take w) bytes
    | _ => rfl
  | told =>
    cases x with
    | delivering a bytes => exact dataLengths_begin a bytes
    | _ => rfl

/-- What is fetched is sent. -/
theorem dataLengths_fetch {bytes : List UInt8} (hne : bytes ≠ []) :
    (Stage.fetching.turn (.bytes bytes)).1.flatMap Op.dataLengths =
      [(bytes.take mss.toNat).length] := by
  have hmss : mss.toNat ≠ 0 := by decide
  have htake : ¬ (bytes.take mss.toNat).isEmpty = true := by
    simp [List.isEmpty_iff, List.take_eq_nil_iff, hne, hmss]
  simp only [Stage.turn, fetchTurn, if_neg htake]
  rfl

theorem dataLengths_opening (role : Role) : (opening role).1.flatMap Op.dataLengths = [] := by
  cases role <;> rfl

end Session

end StopWait
