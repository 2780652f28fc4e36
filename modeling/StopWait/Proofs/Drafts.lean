import Mathlib.Data.List.Basic
import StopWait.Header

/-!
# Headers are finished for every length that fits

A draft is changed by steps, in any order and any number, and then finished for a payload of some
length. The steps override each other where they set a number, and add up where they set a bit. The
length is checked after the size of the header has been added to it, so that the greatest lengths
are no case of the ones that are merely too long.

* `Draft.applyAll_eq`: **what steps come to**: the last numbers that are set, and every bit that is.
* `Draft.build_cases`: **what a length comes to**: one that fits, one that is too long, or one that
  cannot be added to.
* `Draft.build_header`: both together, for the drafts that start with ports and a sequence number.
-/

namespace StopWait.Draft

/-- The acknowledgment number that a step sets. -/
def Step.ack? : Step → Option UInt32
  | .acknowledge n | .ackNumber n => some n
  | .window _ | .syn | .fin => none

/-- The window that a step sets. -/
def Step.window? : Step → Option UInt16
  | .window n => some n
  | .acknowledge _ | .ackNumber _ | .syn | .fin => none

/-- Whether a step sets the ACK bit. -/
def Step.acknowledges : Step → Bool
  | .acknowledge _ => true
  | .window _ | .ackNumber _ | .syn | .fin => false

/-- The number that the last of the steps to set one sets, and `n` if none does. -/
def lastSet {α : Type} (set? : Step → Option α) (n : α) (steps : List Step) : α :=
  (steps.filterMap set?).getLast?.getD n

/-- The control bits that some step sets. -/
def bitsSet (steps : List Step) : Control :=
  ⟨steps.any Step.acknowledges, steps.contains .syn, steps.contains .fin⟩

/-- The header that a draft is finished as. -/
def header (d : Draft) : Header :=
  { srcPort := d.srcPort, dstPort := d.dstPort, seq := d.seq, ack := d.ack
    dataOffset := Header.words, control := d.control, window := d.window
    checksum := 0, urgent := 0 }

variable {α : Type}

/-- The first step sets the number that holds if no later one sets any. -/
theorem lastSet_cons (set? : Step → Option α) (n : α) (step : Step) (steps : List Step) :
    lastSet set? n (step :: steps) = lastSet set? ((set? step).getD n) steps := by
  unfold lastSet
  cases h : set? step with
  | none => rw [List.filterMap_cons_none h, Option.getD_none]
  | some m => rw [List.filterMap_cons_some h, List.getLast?_cons, Option.getD_some,
      Option.getD_some]

/-- **What steps come to.** Of the numbers, the last ones that are set; of the bits, those that were
set before and those that some step sets. -/
theorem applyAll_eq (d : Draft) (steps : List Step) :
    d.applyAll steps =
      { d with
        ack := lastSet Step.ack? d.ack steps
        window := lastSet Step.window? d.window steps
        control :=
          { ack := d.control.ack || (bitsSet steps).ack
            syn := d.control.syn || (bitsSet steps).syn
            fin := d.control.fin || (bitsSet steps).fin } } := by
  induction steps generalizing d with
  | nil => simp [applyAll, lastSet, bitsSet]
  | cons step steps ih =>
    have hcons : d.applyAll (step :: steps) = (d.apply step).applyAll steps := rfl
    rw [hcons, ih, lastSet_cons, lastSet_cons]
    cases step <;> simp [apply, Step.ack?, Step.window?, Step.acknowledges, bitsSet]

/-- **What a length comes to.** The size of the header is added to it, in 64 bits, before anything
is compared. -/
theorem build_cases (d : Draft) (textLen : Nat) :
    (textLen ≤ 65515 ∧ d.build textLen = .ok d.header) ∨
    (65515 < textLen ∧ textLen + 20 < lengthLimit ∧
      d.build textLen = .error (.overlyLongPayload textLen)) ∨
    (lengthLimit ≤ textLen + 20 ∧ d.build textLen = .error .lengthOverflow) := by
  unfold build lengthLimit Header.size
  split
  · rename_i hlimit
    exact .inr (.inr ⟨by omega, rfl⟩)
  · rename_i hlimit
    split
    · rename_i hlong
      exact .inr (.inl ⟨by omega, by omega, rfl⟩)
    · rename_i hfits
      exact .inl ⟨by omega, rfl⟩

/-- Nothing stands in the way of a payload that fits. -/
theorem build_of_le (d : Draft) {textLen : Nat} (h : textLen ≤ 65515) :
    d.build textLen = .ok d.header := by
  obtain ⟨-, hb⟩ | ⟨hlong, -⟩ | ⟨hover, -⟩ := d.build_cases textLen
  · exact hb
  · omega
  · unfold lengthLimit at hover
    omega

/-- **A header is finished for every length that fits.** A draft starts with ports and a sequence
number, and any steps follow in any order. The header is finished if and only if the payload has at
most 65515 bytes. It has five words, no checksum and no urgent pointer, the numbers of the last
steps that set any and zero where none does, and the bits that some step sets. A longer payload is
reported, with its length, as long as the size of the header can be added to that in 64 bits; for
the twenty lengths that are left the sum overflows. -/
theorem build_header (srcPort dstPort : UInt16) (seq : UInt32) (steps : List Step)
    (textLen : Nat) :
    let built := (({ srcPort, dstPort, seq } : Draft).applyAll steps).build textLen
    ((∃ h, built = .ok h) ↔ textLen ≤ 65515) ∧
    (∀ n, built = .error (.overlyLongPayload n) ↔
      n = textLen ∧ 65515 < textLen ∧ textLen + 20 < lengthLimit) ∧
    (built = .error .lengthOverflow ↔ lengthLimit ≤ textLen + 20) ∧
    ∀ h, built = .ok h ↔ textLen ≤ 65515 ∧ h =
      { srcPort, dstPort, seq
        ack := lastSet Step.ack? 0 steps
        dataOffset := 5
        control := bitsSet steps
        window := lastSet Step.window? 0 steps
        checksum := 0
        urgent := 0 } := by
  intro built
  have hheader : (({ srcPort, dstPort, seq } : Draft).applyAll steps).header =
      { srcPort, dstPort, seq
        ack := lastSet Step.ack? 0 steps
        dataOffset := 5
        control := bitsSet steps
        window := lastSet Step.window? 0 steps
        checksum := 0
        urgent := 0 } := by
    rw [applyAll_eq]
    rfl
  rw [← hheader]
  -- each length comes to one of three results, and the results tell the lengths apart
  have hlimit : 65535 < lengthLimit := by decide
  obtain ⟨hfits, hb⟩ | ⟨hlong, hshort, hb⟩ | ⟨hover, hb⟩ :=
    build_cases (({ srcPort, dstPort, seq } : Draft).applyAll steps) textLen
  · have hshort : textLen + 20 < lengthLimit := by omega
    simp [built, hb, hfits, hshort, eq_comm]
  · simp [built, hb, hlong, hshort, eq_comm]
  · have hlong : 65515 < textLen := by omega
    simp [built, hb, hlong, hover]

/-- **The greatest length is not reported as too long**: its sum with the size of the header does
not fit 64 bits. -/
theorem greatest_length_overflows :
    let built := ({ srcPort := 1, dstPort := 2, seq := 3 } : Draft).build (lengthLimit - 1)
    built = .error .lengthOverflow ∧ built ≠ .error (.overlyLongPayload (lengthLimit - 1)) := by
  decide

end StopWait.Draft
