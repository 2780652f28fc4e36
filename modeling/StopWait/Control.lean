/-!
# Control bits

The three control bits of a header that carry meaning. On the wire they sit in one byte: FIN is
bit 0, SYN is bit 1, ACK is bit 4. The other bits of that byte are written as zero and dropped
when read.

* `Control.ofByte_toByte`: the byte of a set of bits reads back as that set.
-/

namespace StopWait

/-- A set of control bits. -/
structure Control where
  /-- The acknowledgment number is valid. -/
  ack : Bool
  /-- The sequence number is the initial one. -/
  syn : Bool
  /-- The sender has no more data. -/
  fin : Bool
deriving DecidableEq, Repr

namespace Control

/-- No bit set. -/
def none : Control := ⟨false, false, false⟩

/-- The byte that carries the bits. -/
def toByte (c : Control) : UInt8 :=
  (if c.ack then 16 else 0) + (if c.syn then 2 else 0) + (if c.fin then 1 else 0)

/-- The bits that a byte carries. -/
def ofByte (b : UInt8) : Control :=
  ⟨b.toNat.testBit 4, b.toNat.testBit 1, b.toNat.testBit 0⟩

/-- Whether every bit of `d` is also set in `c`. -/
def contains (c d : Control) : Bool :=
  (c.ack || !d.ack) && (c.syn || !d.syn) && (c.fin || !d.fin)

/-- The names of the set bits, ACK before SYN before FIN. -/
def names (c : Control) : List String :=
  (if c.ack then ["ACK"] else []) ++ (if c.syn then ["SYN"] else []) ++
    (if c.fin then ["FIN"] else [])

/-- How diagnostics show the bits. -/
def describe (c : Control) : String :=
  "Control(" ++ ", ".intercalate c.names ++ ")"

theorem ofByte_toByte (c : Control) : ofByte c.toByte = c := by
  obtain ⟨a, s, f⟩ := c
  cases a <;> cases s <;> cases f <;> rfl

end Control

end StopWait
