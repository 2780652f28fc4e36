import StopWait.Word

/-!
# The send window

The sender keeps three numbers. The congestion window grows with every acknowledged data segment:
by a whole segment while it is below four segments, by `mss² / cwnd` from there on. The send
window is the congestion window, capped. The remainder is what may still be sent: each send spends
it, and each acknowledgment refunds it together with whatever the send window grew by.

The numbers are 32-bit words, and an addition or subtraction that leaves them is an `Overflow`.
-/

namespace StopWait

/-- The largest payload of a data segment. -/
def mss : UInt32 := 536

/-- The cap of the send window, and the window that every segment advertises. -/
def maxWindow : UInt32 := 3072

/-- Below this congestion window an acknowledgment grows it by a whole segment. -/
def slowStartLimit : UInt32 := 2144

/-- What an acknowledgment acknowledged. -/
inductive Acknowledged where
  /-- A data segment of this length. -/
  | data (len : UInt32)
  /-- A control segment, which does not grow the window. -/
  | control
deriving DecidableEq, Repr

/-- The numbers that a sender keeps. -/
structure SendWindow where
  /-- The congestion window. -/
  cwnd : UInt32
  /-- The send window. -/
  swnd : UInt32
  /-- What may still be sent. -/
  remainder : UInt32
deriving DecidableEq, Repr

namespace SendWindow

/-- The step of an update that would leave the 32-bit words. -/
inductive Overflow where
  /-- Growing the congestion window. -/
  | congestion
  /-- Refunding an acknowledged length. -/
  | refund
  /-- Taking the old send window from the new one. -/
  | shrink
  /-- Passing the growth of the send window on to the remainder. -/
  | growth
deriving DecidableEq, Repr

/-- The wording of an overflow. -/
def Overflow.message : Overflow → String
  | .shrink => "attempt to subtract with overflow"
  | _ => "attempt to add with overflow"

/-- A window of one segment, all of it free. -/
def initial : SendWindow := ⟨mss, mss, mss⟩

/-- The bytes that the next data segment may carry. -/
def budget (w : SendWindow) : Nat := (min w.remainder mss).toNat

/-- The sum of two words, or the given overflow. -/
def add (a b : UInt32) (e : Overflow) : Except Overflow UInt32 :=
  if a.toNat + b.toNat < Word.limit32 then .ok (a + b) else .error e

/-- The difference of two words, or the given overflow. -/
def sub (a b : UInt32) (e : Overflow) : Except Overflow UInt32 :=
  if b ≤ a then .ok (a - b) else .error e

/-- What an acknowledged data segment adds to a congestion window. -/
def growth (cwnd : UInt32) : UInt32 :=
  if cwnd < slowStartLimit then mss else mss * mss / cwnd

/-- Accounts for a data segment of `len` bytes being sent. -/
def spend (w : SendWindow) (len : UInt32) : SendWindow :=
  { w with remainder := if len ≤ w.remainder then w.remainder - len else 0 }

/-- Caps the send window again and passes its growth on to the remainder. -/
def settle (w : SendWindow) : Except Overflow SendWindow := do
  let swnd := min w.cwnd maxWindow
  let grown ← sub swnd w.swnd .shrink
  let remainder ← add w.remainder grown .growth
  return { w with swnd, remainder }

/-- Accounts for an acknowledgment. -/
def acknowledge (w : SendWindow) : Acknowledged → Except Overflow SendWindow
  | .data len => do
    let cwnd ← add w.cwnd (growth w.cwnd) .congestion
    let remainder ← add w.remainder len .refund
    settle { w with cwnd, remainder }
  | .control => settle w

/-- Sends as much of `len` as the budget allows and has it acknowledged. -/
def cycle (w : SendWindow) (len : UInt32) : Except Overflow SendWindow :=
  let sent := min len (UInt32.ofNat w.budget)
  (w.spend sent).acknowledge (.data sent)

end SendWindow

end StopWait
