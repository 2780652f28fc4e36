/-!
# Pseudo-random words

The generator xoshiro256++ over four 64-bit words, seeded with words of PCG32 (XSH-RR).
-/

namespace StopWait.Link

/-- Rotates a word to the left by `k` bits, for `0 < k < 64`. -/
def rotateLeft (x k : UInt64) : UInt64 := (x <<< k) ||| (x >>> (64 - k))

/-- The state of the generator. -/
structure Generator where
  s0 : UInt64
  s1 : UInt64
  s2 : UInt64
  s3 : UInt64
deriving DecidableEq, Repr

namespace Generator

/-- The state of PCG32 after the given one. -/
def advanceSeed (state : UInt64) : UInt64 :=
  state * 6364136223846793005 + 11634580027462260723

/-- The 32-bit word that PCG32 makes of its state: some high bits, rotated to the right by the
highest five. -/
def permute (state : UInt64) : UInt32 :=
  let word := (((state >>> 18) ^^^ state) >>> 27).toUInt32
  let turn := (state >>> 59).toUInt32
  (word >>> turn) ||| (word <<< ((32 - turn) % 32))

/-- Two words of PCG32 as one, the low half first, and the state after them. -/
def seedWord (state : UInt64) : UInt64 × UInt64 :=
  let low := advanceSeed state
  let high := advanceSeed low
  ((permute low).toUInt64 ||| ((permute high).toUInt64 <<< 32), high)

/-- The generator whose state is the first four double words that PCG32 makes of a seed. -/
def ofSeed (seed : UInt64) : Generator :=
  let (s0, seed) := seedWord seed
  let (s1, seed) := seedWord seed
  let (s2, seed) := seedWord seed
  let (s3, _) := seedWord seed
  { s0, s1, s2, s3 }

/-- The next word, and the generator after it. -/
def next (g : Generator) : UInt64 × Generator :=
  let s2 := g.s2 ^^^ g.s0
  let s3 := g.s3 ^^^ g.s1
  (rotateLeft (g.s0 + g.s3) 23 + g.s0,
    { s0 := g.s0 ^^^ s3, s1 := g.s1 ^^^ s2, s2 := s2 ^^^ (g.s1 <<< 17), s3 := rotateLeft s3 45 })

end Generator

end StopWait.Link
