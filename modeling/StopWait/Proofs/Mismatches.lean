import Mathlib.Algebra.Ring.Int.Defs
import Mathlib.Data.List.Induction
import StopWait.Proofs.Ledger

/-!
# Which lines an audit reports

An audit foretells the remainder of each line from the events of the lines before it, and from none
of their remainders. So it reports the lines that say otherwise, and a line that is altered is
reported alone.

* `allowance`, `Record.change`: the recurrence of the remainder in whole numbers.
* `toNat_growth`, `toNat_foretold`: the audit computes it in words, where nothing overflows but what
  is meant to.
* `audit_eq`: the lines that an audit reports.
* `auditFrom_altered`: what it reports of a log that passed and was altered.
* `audit_exact`: **the audit reports the lines that are wrong, each of them once and no other.**
-/

namespace StopWait.Log

/-- What a send window of `n` bytes grows by on an acknowledgment. It is divided by at least 2144. -/
def allowance (n : Nat) : Nat :=
  if n < 2144 then min 536 (3072 - n)
  else if n < 3072 then min (536 * 536 / n) (3072 - n)
  else 0

/-- What the event of a line makes of the remainder: a send spends its bytes, and an acknowledgment
refunds them together with what the send window grows by. -/
def Record.change (r : Record) : Int :=
  match r.direction with
  | .send => -r.bytes.toNat
  | .recv => r.bytes.toNat + allowance r.swnd.toNat

/-- The mismatches of lines with these remainders expected of them, in order. The first line has the
index `first`, from zero. -/
def discrepancies (first : Nat) (rs : List Record) (expected : List UInt32) : List Mismatch :=
  ((rs.zip expected).zipIdx first).filterMap fun ((r, e), index) =>
    if r.remainder = e then none else some ⟨index + 1, e, r.remainder⟩

/-- Two lines about the same event, which may differ in the remainder. -/
structure Record.SameEvent (r q : Record) : Prop where
  direction : q.direction = r.direction
  swnd : q.swnd = r.swnd
  bytes : q.bytes = r.bytes

variable {r q : Record} {rs qs : List Record}

/-- **The growth is computed without leaving the words**, and never divided by zero. -/
theorem toNat_growth (swnd : UInt32) : (growth swnd).toNat = allowance swnd.toNat := by
  have hslow : swnd < slowStartLimit ↔ swnd.toNat < 2144 := UInt32.lt_iff_toNat_lt
  have hmax : swnd < maxWindow ↔ swnd.toNat < 3072 := UInt32.lt_iff_toNat_lt
  have hsquare : (mss * mss).toNat = 536 * 536 := rfl
  have hroom : swnd.toNat ≤ 3072 → (maxWindow - swnd).toNat = 3072 - swnd.toNat := fun h =>
    UInt32.toNat_sub_of_le _ _ (UInt32.le_iff_toNat_le.2 h)
  unfold growth allowance
  by_cases h1 : swnd.toNat < 2144
  · rw [if_pos h1, if_pos (hslow.2 h1), SendWindow.toNat_min, hroom (by omega)]
    rfl
  · rw [if_neg h1, if_neg (mt hslow.1 h1)]
    by_cases h2 : swnd.toNat < 3072
    · rw [if_pos h2, if_pos (hmax.2 h2), SendWindow.toNat_min, UInt32.toNat_div, hsquare,
        hroom (by omega)]
    · rw [if_neg h2, if_neg (mt hmax.1 h2)]
      rfl

/-- **The remainder that lines foretell**, modulo `2 ^ 32`. -/
theorem toNat_foretold (rs : List Record) :
    ((foretold rs).toNat : Int) = (536 + (rs.map Record.change).sum) % 4294967296 := by
  induction rs using List.reverseRecOn with
  | nil => rfl
  | append_singleton rs r ih =>
    have hchange : ((foretold (rs ++ [r])).toNat : Int) =
        ((foretold rs).toNat + r.change) % 4294967296 := by
      have hb := r.bytes.toNat_lt
      rw [foretold_concat]
      unfold Record.advance Record.change
      cases r.direction with
      | send =>
        simp only [UInt32.toNat_sub]
        omega
      | recv =>
        simp only [UInt32.toNat_add, toNat_growth]
        omega
    rw [hchange, ih, List.map_append, List.sum_append, List.map_singleton, List.sum_singleton,
      Int.emod_add_emod, Int.add_assoc]

theorem discrepancies_cons (first : Nat) (r : Record) (e : UInt32) (es : List UInt32) :
    discrepancies first (r :: rs) (e :: es) =
      (if r.remainder = e then [] else [⟨first + 1, e, r.remainder⟩]) ++
        discrepancies (first + 1) rs es := by
  by_cases he : r.remainder = e <;> simp [discrepancies, he]

theorem discrepancies_concat (first : Nat) (r : Record) (e : UInt32) {es : List UInt32}
    (h : rs.length = es.length) : discrepancies first (rs ++ [r]) (es ++ [e]) =
      discrepancies first rs es ++ discrepancies (first + rs.length) [r] [e] := by
  rw [discrepancies, List.zip_append h, List.zipIdx_append, List.filterMap_append,
    List.length_zip, h, Nat.min_self]
  rfl

/-- **The lines that an audit reports**: those whose remainder is not the one that the lines before
them foretell. -/
theorem audit_eq (rs : List Record) : audit rs =
    discrepancies 0 rs ((List.range rs.length).map fun n => foretold (rs.take n)) := by
  induction rs using List.reverseRecOn with
  | nil => rfl
  | append_singleton rs r ih =>
    have hlast : auditFrom (1 + rs.length) (foretold rs) [r] =
        discrepancies (0 + rs.length) [r] [foretold rs] := by
      rw [discrepancies_cons, Nat.zero_add, Nat.add_comm, auditFrom]
      split_ifs <;> rfl
    -- what is foretold of the lines before the last one does not depend on it
    have hbefore : ((List.range rs.length).map fun n => foretold ((rs ++ [r]).take n)) =
        (List.range rs.length).map fun n => foretold (rs.take n) := by
      refine List.map_congr_left fun n hn => ?_
      have hn := List.mem_range.1 hn
      rw [List.take_append_of_le_length (by omega)]
    rw [audit_append, ih, hlast, List.length_append, List.length_singleton, List.range_succ,
      List.map_append, hbefore, List.map_singleton, List.take_left,
      discrepancies_concat 0 r _ (by simp)]

theorem Record.SameEvent.advance (h : r.SameEvent q) (remainder : UInt32) :
    q.advance remainder = r.advance remainder := by
  unfold Record.advance
  rw [h.direction, h.swnd, h.bytes]

/-- **An altered line is reported, and no other**: the audit goes on from what the events foretell. -/
theorem auditFrom_altered (h : List.Forall₂ Record.SameEvent rs qs) {first : Nat} {expected : UInt32}
    (hpass : auditFrom (first + 1) expected rs = []) :
    auditFrom (first + 1) expected qs = discrepancies first qs (rs.map Record.remainder) := by
  induction h generalizing first expected with
  | nil => rfl
  | @cons r q rs qs hrq _ ih =>
    rw [auditFrom] at hpass
    split at hpass
    · rename_i hr
      rw [auditFrom, hrq.advance, ih hpass, List.map_cons, discrepancies_cons, hr]
      split_ifs <;> rfl
    · cases hpass

/-- **The audit reports the lines that are wrong.** Each line is reported, in order and with its
number, whose remainder is not the one that starts at 536, loses the bytes of each send and gains
those of each acknowledgment with what the send window grows by, modulo `2 ^ 32`; the growth is that
of whole numbers, and nothing is divided by zero. Of a log that passed and whose remainders were
altered, any of them and to any values, it reports the altered ones: what they were and what they
are. -/
theorem audit_exact (rs : List Record) :
    audit rs = discrepancies 0 rs ((List.range rs.length).map fun n => foretold (rs.take n)) ∧
    (∀ before, ((foretold before).toNat : Int) =
      (536 + (before.map Record.change).sum) % 4294967296) ∧
    (∀ swnd, (growth swnd).toNat = allowance swnd.toNat ∧ (¬ swnd < slowStartLimit → swnd ≠ 0)) ∧
    (∀ qs, audit rs = [] → List.Forall₂ Record.SameEvent rs qs →
      audit qs = discrepancies 0 qs (rs.map Record.remainder)) := by
  refine ⟨audit_eq rs, toNat_foretold, fun swnd => ⟨toNat_growth swnd, ?_⟩, ?_⟩
  · rintro hslow rfl
    exact hslow (by decide)
  · intro qs hpass hsame
    exact auditFrom_altered hsame hpass

/-- Two lines next to each other are altered, in a log whose remainder runs below zero. -/
theorem audit_exact_altered :
    let rs : List Record :=
      [⟨.send, 536, 536, 600⟩, ⟨.recv, 2500, 4294967232, 600⟩, ⟨.send, 0, 650, 1⟩]
    let qs : List Record :=
      [⟨.send, 536, 0, 600⟩, ⟨.recv, 2500, 7, 600⟩, ⟨.send, 0, 650, 1⟩]
    audit rs = [] ∧ List.Forall₂ Record.SameEvent rs qs ∧
      audit qs = [⟨1, 536, 0⟩, ⟨2, 4294967232, 7⟩] := by
  intro rs qs
  have hpass : audit rs = [] := by decide
  have hsame : List.Forall₂ Record.SameEvent rs qs :=
    .cons ⟨rfl, rfl, rfl⟩ (.cons ⟨rfl, rfl, rfl⟩ (.cons ⟨rfl, rfl, rfl⟩ .nil))
  exact ⟨hpass, hsame, (audit_exact rs).2.2.2 qs hpass hsame⟩

end StopWait.Log
