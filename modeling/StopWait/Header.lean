import StopWait.Control
import StopWait.Word

/-!
# Headers

The header of a segment: five big-endian 32-bit words, never with options.

* `Header.parse`: reads a header off the front of a datagram.
* `Header.serialize`: the twenty bytes of a header.
* `Draft`: a header under construction, changed by `Draft.Step`s and closed by `Draft.build`.
-/

namespace StopWait

/-- The number of 32-bit words in a header. -/
def Header.words : UInt8 := 5

/-- The number of bytes in a header. -/
def Header.size : Nat := 20

/-- One more than the greatest length. Lengths are 64-bit words. -/
def lengthLimit : Nat := 18446744073709551616

/-- The fields of a header. -/
structure Header where
  /-- The port of the sender. -/
  srcPort : UInt16
  /-- The port of the receiver. -/
  dstPort : UInt16
  /-- The sequence number of the first payload byte, or of the SYN. -/
  seq : UInt32
  /-- The sequence number that the sender expects next, whether or not the ACK bit is set. -/
  ack : UInt32
  /-- The header's length in words. -/
  dataOffset : UInt8
  /-- The control bits. -/
  control : Control
  /-- The number of bytes the sender is willing to accept. -/
  window : UInt16
  /-- Carried as read, and written as zero. -/
  checksum : UInt16
  /-- Unused. -/
  urgent : UInt16
deriving DecidableEq, Repr

namespace Header

/-- Why a datagram holds no header. -/
inductive ParseError where
  /-- It has fewer than twenty bytes. -/
  | headerTooShort
  /-- Its length field claims this many words instead of five. -/
  | unexpectedOptions (words : UInt8)
deriving DecidableEq, Repr

/-- The wording of a parse error. -/
def ParseError.message : ParseError → String
  | .headerTooShort => "Too few bytes to constitute an STCP header"
  | .unexpectedOptions n =>
    s!"Header length of {n.toNat} words is different from the 5 words of a header without options"

/-- Reads the header at the front of a datagram. A short datagram is reported as short whatever
its length field says. -/
def parse : List UInt8 → Except ParseError Header
  | b0 :: b1 :: b2 :: b3 :: b4 :: b5 :: b6 :: b7 :: b8 :: b9 :: b10 :: b11 :: b12 :: b13 ::
      b14 :: b15 :: b16 :: b17 :: b18 :: b19 :: _ =>
    let words := b12 >>> 4
    if words = Header.words then
      .ok
        { srcPort := Word.ofBytes16 b0 b1
          dstPort := Word.ofBytes16 b2 b3
          seq := Word.ofBytes32 b4 b5 b6 b7
          ack := Word.ofBytes32 b8 b9 b10 b11
          dataOffset := words
          control := Control.ofByte b13
          window := Word.ofBytes16 b14 b15
          checksum := Word.ofBytes16 b16 b17
          urgent := Word.ofBytes16 b18 b19 }
    else .error (.unexpectedOptions words)
  | _ => .error .headerTooShort

/-- The bytes of a header. The length field has four bits, so only the low four bits of the
data offset are written. -/
def serialize (h : Header) : List UInt8 :=
  Word.bytes16 h.srcPort ++ Word.bytes16 h.dstPort ++ Word.bytes32 h.seq ++
    Word.bytes32 h.ack ++ [h.dataOffset <<< 4, h.control.toByte] ++ Word.bytes16 h.window ++
    Word.bytes16 h.checksum ++ Word.bytes16 h.urgent

theorem serialize_length (h : Header) : h.serialize.length = Header.size := rfl

end Header

/-- A header under construction. -/
structure Draft where
  /-- The port of the sender. -/
  srcPort : UInt16
  /-- The port of the receiver. -/
  dstPort : UInt16
  /-- The sequence number. -/
  seq : UInt32
  /-- The acknowledgment number, zero until set. -/
  ack : UInt32 := 0
  /-- The window, zero until set. -/
  window : UInt16 := 0
  /-- The control bits, none until set. -/
  control : Control := .none
deriving DecidableEq, Repr

namespace Draft

/-- One change to a draft. -/
inductive Step where
  /-- Set the window. -/
  | window (n : UInt16)
  /-- Set the acknowledgment number and the ACK bit. -/
  | acknowledge (n : UInt32)
  /-- Set the acknowledgment number alone. -/
  | ackNumber (n : UInt32)
  /-- Set the SYN bit. -/
  | syn
  /-- Set the FIN bit. -/
  | fin
deriving DecidableEq, Repr

/-- Makes one change. -/
def apply (d : Draft) : Step → Draft
  | .window n => { d with window := n }
  | .acknowledge n => { d with ack := n, control := { d.control with ack := true } }
  | .ackNumber n => { d with ack := n }
  | .syn => { d with control := { d.control with syn := true } }
  | .fin => { d with control := { d.control with fin := true } }

/-- Makes a list of changes, in order. -/
def applyAll (d : Draft) (steps : List Step) : Draft :=
  steps.foldl apply d

/-- Why a draft cannot become a header. -/
inductive BuildError where
  /-- A payload of this length does not fit a segment. -/
  | overlyLongPayload (textLen : Nat)
  /-- The length of header and payload together is not a 64-bit number. -/
  | lengthOverflow
deriving DecidableEq, Repr

/-- The wording of a build error. -/
def BuildError.message : BuildError → String
  | .overlyLongPayload n =>
    s!"A payload of {n} bytes is longer than can fit into a single segment"
  | .lengthOverflow => "attempt to add with overflow"

/-- The finished header of a segment with `textLen` bytes of payload. Header and payload together
have at most 65535 bytes, and their sum is taken in 64 bits. -/
def build (d : Draft) (textLen : Nat) : Except BuildError Header :=
  if lengthLimit ≤ textLen + Header.size then .error .lengthOverflow
  else if 65535 < textLen + Header.size then .error (.overlyLongPayload textLen)
  else .ok
    { srcPort := d.srcPort, dstPort := d.dstPort, seq := d.seq, ack := d.ack
      dataOffset := Header.words, control := d.control, window := d.window
      checksum := 0, urgent := 0 }

end Draft

end StopWait
