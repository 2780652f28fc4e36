import StopWait.Log.Record
import StopWait.SendWindow

/-!
# Auditing a transfer log

Every line records the remainder before its event, so each line foretells the remainder of the
next. The audit starts from one segment and reports the lines that say otherwise. It goes on from
the foretold value, so that one bad line is reported alone. Its arithmetic is modulo `2 ^ 32`.
-/

namespace StopWait.Log

/-- What the send window grows by on an acknowledgment that finds it at `swnd`. -/
def growth (swnd : UInt32) : UInt32 :=
  if swnd < slowStartLimit then min mss (maxWindow - swnd)
  else if swnd < maxWindow then min (mss * mss / swnd) (maxWindow - swnd)
  else 0

/-- The remainder after a record, from the remainder before it. -/
def Record.advance (r : Record) (remainder : UInt32) : UInt32 :=
  match r.direction with
  | .send => remainder - r.bytes
  | .recv => remainder + r.bytes + growth r.swnd

/-- A line whose remainder is not the foretold one. -/
structure Mismatch where
  /-- The number of the line, from one. -/
  line : Nat
  /-- The foretold remainder. -/
  expected : UInt32
  /-- The remainder on the line. -/
  actual : UInt32
deriving DecidableEq, Repr

/-- The wording of a mismatch. -/
def Mismatch.message (m : Mismatch) : String :=
  s!"line {m.line}: expected remainder window {m.expected.toNat}, found {m.actual.toNat}"

/-- The mismatches of the records that stand from line `line` on, where `expected` is foretold for
the first of them. -/
def auditFrom (line : Nat) (expected : UInt32) : List Record → List Mismatch
  | [] => []
  | r :: rs =>
    let later := auditFrom (line + 1) (r.advance expected) rs
    if r.remainder = expected then later else ⟨line, expected, r.remainder⟩ :: later

/-- The mismatches of a log. -/
def audit (records : List Record) : List Mismatch :=
  auditFrom 1 mss records

end StopWait.Log
