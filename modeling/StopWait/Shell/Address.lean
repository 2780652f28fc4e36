import StopWait.Word

/-!
# Socket addresses

Reads an address with its port: `a.b.c.d:port` in decimal, or `[groups]:port` with up to eight
hexadecimal groups, `::` for a run of zero groups, an embedded decimal address at the end, and an
optional scope after `%`. Host names are not addresses.
-/

namespace StopWait.Shell

/-- An address with its port. -/
inductive Address where
  /-- An address of four bytes. -/
  | v4 (bytes : List Nat) (port : UInt16)
  /-- An address of eight groups, with the number of the interface that it is meant on, or zero. -/
  | v6 (groups : List Nat) (scope : Nat) (port : UInt16)
deriving DecidableEq, Repr

namespace Address

/-- The port. -/
def port : Address → UInt16
  | .v4 _ p => p
  | .v6 _ _ p => p

/-- A reader takes something off the front of a text. -/
abbrev Reader (α : Type) : Type := List Char → Option (α × List Char)

/-- The value of a digit in a base of at most sixteen. -/
def digit? (base : Nat) (c : Char) : Option Nat :=
  let n := c.toNat
  let v :=
    if 48 ≤ n ∧ n ≤ 57 then n - 48
    else if 97 ≤ n ∧ n ≤ 102 then n - 87
    else if 65 ≤ n ∧ n ≤ 70 then n - 55
    else base
  if v < base then some v else none

/-- The digits at the front of a text. -/
def digits (base : Nat) : List Char → List Nat × List Char
  | [] => ([], [])
  | c :: cs =>
    match digit? base c with
    | some d => (d :: (digits base cs).1, (digits base cs).2)
    | none => ([], c :: cs)

/-- Reads a number below a limit, all of its digits. -/
def number (base limit : Nat) (maxDigits : Option Nat) (zeroPrefix : Bool) : Reader Nat := fun cs =>
  let (ds, rest) := digits base cs
  let value := ds.foldl (fun n d => n * base + d) 0
  let fits := match maxDigits with
    | some k => decide (ds.length ≤ k)
    | none => true
  let plain := zeroPrefix || ds.length ≤ 1 || ds.head? != some 0
  if !ds.isEmpty && fits && plain && value < limit then some (value, rest) else none

/-- Reads one character. -/
def char (c : Char) : Reader Unit
  | [] => none
  | d :: cs => if c = d then some ((), cs) else none

/-- Reads a byte of a decimal address. -/
def octet : Reader Nat := number 10 256 (some 3) false

/-- Reads a decimal address. -/
def dotted : Reader (List Nat) := fun cs => do
  let (a, cs) ← octet cs
  let (_, cs) ← char '.' cs
  let (b, cs) ← octet cs
  let (_, cs) ← char '.' cs
  let (c, cs) ← octet cs
  let (_, cs) ← char '.' cs
  let (d, cs) ← octet cs
  return ([a, b, c, d], cs)

/-- Reads a port after its colon. -/
def portPart : Reader UInt16 := fun cs => do
  let (_, cs) ← char ':' cs
  let (n, cs) ← number 10 65536 none true cs
  return (UInt16.ofNat n, cs)

/-- Reads what follows the colon between two groups; before the first group there is none. -/
def separated {α : Type} (first : Bool) (r : Reader α) : Reader α := fun cs =>
  if first then r cs
  else do
    let (_, cs) ← char ':' cs
    r cs

/-- Reads at most `room` groups, and tells whether they end in a decimal address, which takes the
room of two. -/
def groups (first : Bool) : Nat → List Char → List Nat × Bool × List Char
  | 0, cs => ([], false, cs)
  | room + 1, cs =>
    match if room = 0 then none else separated first dotted cs with
    | some (bs, rest) =>
      (match bs with
        | [a, b, c, d] => [a * 256 + b, c * 256 + d]
        | _ => [], true, rest)
    | none =>
      match separated first (number 16 65536 (some 4) true) cs with
      | some (g, rest) =>
        let (gs, decimal, rest) := groups false room rest
        (g :: gs, decimal, rest)
      | none => ([], false, cs)

/-- Reads the groups of an address. -/
def grouped : Reader (List Nat) := fun cs => do
  let (head, decimal, cs) := groups true 8 cs
  if head.length = 8 then return (head, cs)
  if decimal then none
  let (_, cs) ← char ':' cs
  let (_, cs) ← char ':' cs
  let (tail, _, cs) := groups true (7 - head.length) cs
  return (head ++ List.replicate (8 - head.length - tail.length) 0 ++ tail, cs)

/-- Reads a scope, which is zero if there is none. -/
def scopePart : Reader Nat := fun cs =>
  match cs with
  | '%' :: cs => number 10 Word.limit32 none true cs
  | cs => some (0, cs)

/-- Reads an address of four bytes with its port. -/
def fourBytes : Reader Address := fun cs => do
  let (bytes, cs) ← dotted cs
  let (p, cs) ← portPart cs
  return (.v4 bytes p, cs)

/-- Reads an address of eight groups with its port. -/
def eightGroups : Reader Address := fun cs => do
  let (_, cs) ← char '[' cs
  let (gs, cs) ← grouped cs
  let (scope, cs) ← scopePart cs
  let (_, cs) ← char ']' cs
  let (p, cs) ← portPart cs
  return (.v6 gs scope p, cs)

/-- The address that a whole text names. -/
def parse? (s : String) : Option Address :=
  match fourBytes s.toList with
  | some (a, []) => some a
  | _ =>
    match eightGroups s.toList with
    | some (a, []) => some a
    | _ => none

end Address

end StopWait.Shell
