import StopWait.Header
import StopWait.SendWindow

/-!
# Segments

A segment is a header and a payload. Its kind is decided by the control bits alone: a segment
without any is data.

* `Segment.parse`, `Segment.serialize`: a segment as a datagram.
* `Segment.build`: a segment of a wanted kind. Data carries between 1 and `mss` bytes, every other
  kind none.
* `Segment.seqLen`, `Segment.seqLenFits`: the sequence space that a segment occupies, and whether
  that is a 32-bit word.
-/

namespace StopWait

/-- The part a segment plays. No transition sends FIN and ACK together; the kind exists because
such a segment may arrive. -/
inductive Kind where
  | syn
  | ack
  | synAck
  | data
  | fin
  | finAck
deriving DecidableEq, Repr

namespace Kind

/-- The name of a kind. -/
def name : Kind → String
  | .syn => "Syn"
  | .ack => "Ack"
  | .synAck => "SynAck"
  | .data => "Data"
  | .fin => "Fin"
  | .finAck => "FinAck"

/-- The control bits of a kind. -/
def control : Kind → Control
  | .syn => ⟨false, true, false⟩
  | .ack => ⟨true, false, false⟩
  | .synAck => ⟨true, true, false⟩
  | .data => ⟨false, false, false⟩
  | .fin => ⟨false, false, true⟩
  | .finAck => ⟨true, false, true⟩

/-- The kind of a segment with the given control bits. SYN hides FIN. -/
def ofControl (c : Control) : Kind :=
  match c.syn, c.fin, c.ack with
  | true, _, true => .synAck
  | true, _, false => .syn
  | false, true, true => .finAck
  | false, true, false => .fin
  | false, false, true => .ack
  | false, false, false => .data

/-- Whether a segment with the control bits `c` will do where this kind is awaited: it has every
bit of the kind, and may have more. -/
def accepts (k : Kind) (c : Control) : Bool := c.contains k.control

theorem ofControl_control (k : Kind) : ofControl k.control = k := by
  cases k <;> rfl

end Kind

/-- A header with its payload. -/
structure Segment where
  /-- The header. -/
  header : Header
  /-- The bytes after the header. -/
  payload : List UInt8
deriving DecidableEq, Repr

namespace Segment

/-- Why a segment cannot be built. -/
inductive BuildError where
  /-- A data segment without payload. -/
  | emptyData
  /-- A data segment with more than `mss` bytes. -/
  | exceedsMss (len : Nat)
  /-- A control segment with a payload. -/
  | payloadOnControl (kind : Kind)
  /-- The header cannot be built. -/
  | header (e : Draft.BuildError)
deriving DecidableEq, Repr

/-- The wording of a build error. -/
def BuildError.message : BuildError → String
  | .emptyData => "A data segment must carry at least one byte"
  | .exceedsMss n => s!"A data segment of {n} bytes exceeds the maximum segment size"
  | .payloadOnControl k => s!"A {k.name} segment cannot carry a payload"
  | .header e => e.message

/-- The payload rule that a kind and a payload break, if any. -/
def payloadFault (kind : Kind) (payload : List UInt8) : Option BuildError :=
  match kind with
  | .data =>
    if payload.isEmpty then some .emptyData
    else if mss.toNat < payload.length then some (.exceedsMss payload.length)
    else none
  | kind => if payload.isEmpty then none else some (.payloadOnControl kind)

/-- Sets the SYN and FIN bits of a kind on a draft. -/
def mark (kind : Kind) (d : Draft) : Draft :=
  let d := if kind.control.syn then d.apply .syn else d
  if kind.control.fin then d.apply .fin else d

/-- A segment of the given kind. Its ACK bit is the kind's, whatever the draft says. -/
def build (kind : Kind) (draft : Draft) (payload : List UInt8) : Except BuildError Segment :=
  match payloadFault kind payload with
  | some e => .error e
  | none =>
    match (mark kind draft).build payload.length with
    | .error e => .error (.header e)
    | .ok h =>
      .ok ⟨{ h with control := { h.control with ack := kind.control.ack } }, payload⟩

/-- Reads a datagram. -/
def parse (bytes : List UInt8) : Except Header.ParseError Segment :=
  match Header.parse bytes with
  | .error e => .error e
  | .ok h => .ok ⟨h, bytes.drop Header.size⟩

/-- The datagram of a segment. -/
def serialize (s : Segment) : List UInt8 := s.header.serialize ++ s.payload

/-- The kind of a segment. -/
def kind (s : Segment) : Kind := Kind.ofControl s.header.control

/-- The sequence space that a segment occupies: its payload, and one each for SYN and FIN. It is
to be taken only of a segment whose sequence space is a word, as `seqLenFits` tells. -/
def seqLen (s : Segment) : UInt32 :=
  UInt32.ofNat s.payload.length + (if s.header.control.syn then 1 else 0) +
    (if s.header.control.fin then 1 else 0)

/-- Whether the sequence space of a segment is a word. The length of the payload is cut to a word
before SYN and FIN are added to it. -/
def seqLenFits (s : Segment) : Bool :=
  (UInt32.ofNat s.payload.length).toNat + s.header.control.syn.toNat +
    s.header.control.fin.toNat < Word.limit32

/-- A segment in one line. -/
def summary (s : Segment) : String :=
  s!"{s.kind.name} {s.header.srcPort.toNat}>{s.header.dstPort.toNat} seq={s.header.seq.toNat} " ++
    s!"ack={s.header.ack.toNat} wnd={s.header.window.toNat} len={s.payload.length}"

variable {s : Segment}

/-- A payload that leaves room for SYN and FIN. -/
theorem seqLenFits_of_length (h : s.payload.length + 2 < Word.limit32) : s.seqLenFits = true := by
  have hcut : (UInt32.ofNat s.payload.length).toNat ≤ s.payload.length := by
    rw [UInt32.toNat_ofNat']
    exact Nat.mod_le _ _
  have hsyn := s.header.control.syn.toNat_le
  have hfin := s.header.control.fin.toNat_le
  simp only [seqLenFits, decide_eq_true_eq]
  omega

/-- **The number is the sequence space** where that is a word. -/
theorem toNat_seqLen (h : s.seqLenFits = true) :
    s.seqLen.toNat = s.payload.length % Word.limit32 + s.header.control.syn.toNat +
      s.header.control.fin.toNat := by
  simp only [seqLenFits, decide_eq_true_eq, UInt32.toNat_ofNat', Word.limit32] at h
  unfold seqLen
  cases hsyn : s.header.control.syn <;> cases hfin : s.header.control.fin <;>
    simp only [hsyn, hfin, Bool.toNat_true, Bool.toNat_false] at h <;>
    simp [UInt32.toNat_add, Word.limit32] <;> omega

end Segment

end StopWait
