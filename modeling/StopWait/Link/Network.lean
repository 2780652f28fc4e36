import StopWait.Link.Random

/-!
# Networks

What becomes of a datagram on its way to the peer: it arrives at once, after a fixed delay, or,
with some probability, never. A sender is held up for the delay, so that datagrams keep their
order.
-/

namespace StopWait.Link

/-- How likely a datagram is lost. -/
inductive Loss where
  /-- Every datagram is lost, and no random word is drawn. -/
  | always
  /-- A datagram is lost if the random word drawn for it is below this threshold. -/
  | below (threshold : Nat)
deriving DecidableEq, Repr

/-- The loss of a probability, given as the bits of a binary64 number and clamped to the interval
from 0 to 1. The threshold is the whole part of `2 ^ 64` times the probability. -/
def Loss.ofBits (bits : UInt64) : Loss :=
  let sign := bits.toNat >>> 63
  let exponent := (bits.toNat >>> 52) % 2048
  let fraction := bits.toNat % 4503599627370496
  if sign = 1 then .below 0
  else if 1023 ≤ exponent then .always
  else if exponent = 0 then .below (fraction <<< 64 >>> 1074)
  else .below ((4503599627370496 + fraction) <<< (exponent + 63) >>> 1074)

/-- A network between two stacks. -/
inductive Network where
  /-- Delivers at once. -/
  | reliable
  /-- Delivers after this many milliseconds, thirty years at the most. -/
  | latent (delay : Nat)
  /-- Loses some datagrams and delivers the others at once. -/
  | unreliable (loss : Loss) (generator : Generator)
deriving DecidableEq, Repr

/-- What becomes of a datagram. -/
inductive Fate where
  /-- It is lost. -/
  | lost
  /-- It reaches the peer's queue after this many milliseconds. -/
  | due (delay : Nat)
deriving DecidableEq, Repr

namespace Network

/-- An unreliable network with the seed that all of them share. -/
def lossy (loss : Loss) : Network := .unreliable loss (.ofSeed 0xBAD5EED)

/-- Thirty years in milliseconds: no datagram is under way for longer. -/
def longestDelay : Nat := 946080000000

/-- Decides about the next datagram. -/
def dispatch : Network → Fate × Network
  | .reliable => (.due 0, .reliable)
  | .latent delay => (.due (min delay longestDelay), .latent delay)
  | .unreliable .always g => (.lost, .unreliable .always g)
  | .unreliable (.below threshold) g =>
    (if g.next.1.toNat < threshold then .lost else .due 0,
      .unreliable (.below threshold) g.next.2)

/-- What becomes of the next `n` datagrams. -/
def fates : Nat → Network → List Fate
  | 0, _ => []
  | n + 1, net => net.dispatch.1 :: fates n net.dispatch.2

end Network

end StopWait.Link
