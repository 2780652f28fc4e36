import StopWait.Word

/-!
# Numerals

Decimal numerals as ASCII bytes, and the numerals that a transfer log may hold: decimal, or
hexadecimal after `0x`, with an optional sign `+`, of at most 32 bits.
-/

namespace StopWait.Text

/-- The byte of a decimal digit. -/
def digit (n : Nat) : UInt8 := UInt8.ofNat (48 + n)

/-- The decimal numeral of a number. -/
def decimal (n : Nat) : List UInt8 :=
  if n < 10 then [digit n] else decimal (n / 10) ++ [digit (n % 10)]
termination_by n

/-- Why a field is no numeral. -/
inductive NumeralError where
  | empty
  | invalidDigit
  | tooLarge
deriving DecidableEq, Repr

/-- The wording of a numeral error. -/
def NumeralError.message : NumeralError → String
  | .empty => "cannot parse integer from empty string"
  | .invalidDigit => "invalid digit found in string"
  | .tooLarge => "number too large to fit in target type"

/-- The value of a character as a digit in a base of at most sixteen. -/
def digitValue? (base : Nat) (c : Char) : Option Nat :=
  let n := c.toNat
  let v :=
    if 48 ≤ n ∧ n ≤ 57 then some (n - 48)
    else if 97 ≤ n ∧ n ≤ 102 then some (n - 87)
    else if 65 ≤ n ∧ n ≤ 70 then some (n - 55)
    else none
  match v with
  | some d => if d < base then some d else none
  | none => none

/-- Reads digits onto a value, up to a limit. The first digit that is invalid or leaves the limit
decides the error. -/
def readDigits (base limit acc : Nat) : List Char → Except NumeralError Nat
  | [] => .ok acc
  | c :: cs =>
    match digitValue? base c with
    | none => .error .invalidDigit
    | some d =>
      if acc * base + d < limit then readDigits base limit (acc * base + d) cs
      else .error .tooLarge

/-- Reads a numeral below `limit` in the given base, with an optional sign `+`. -/
def readNumeral (base limit : Nat) : List Char → Except NumeralError Nat
  | [] => .error .empty
  | ['+'] => .error .invalidDigit
  | '+' :: cs => readDigits base limit 0 cs
  | cs => readDigits base limit 0 cs

/-- Reads a 32-bit number: hexadecimal after `0x`, decimal otherwise. -/
def readWord : List Char → Except NumeralError UInt32
  | '0' :: 'x' :: cs => (readNumeral 16 Word.limit32 cs).map UInt32.ofNat
  | cs => (readNumeral 10 Word.limit32 cs).map UInt32.ofNat

end StopWait.Text
