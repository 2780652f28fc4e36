/-!
# Big-endian words

Sixteen and thirty-two bit words as the bytes that carry them, most significant first.

* `Word.ofBytes16_bytes16`, `Word.ofBytes32_bytes32`: reading the bytes of a word gives the word.
* `Word.bytes16_ofBytes16`, `Word.bytes32_ofBytes32`: writing a read word gives its bytes.
-/

namespace StopWait.Word

/-- One more than the greatest 32-bit word. -/
def limit32 : Nat := 4294967296

/-- The two bytes of a word. -/
def bytes16 (n : UInt16) : List UInt8 :=
  [UInt8.ofNat (n.toNat / 256), UInt8.ofNat n.toNat]

/-- The word that two bytes carry. -/
def ofBytes16 (a b : UInt8) : UInt16 :=
  UInt16.ofNat (a.toNat * 256 + b.toNat)

/-- The four bytes of a word. -/
def bytes32 (n : UInt32) : List UInt8 :=
  [UInt8.ofNat (n.toNat / 16777216), UInt8.ofNat (n.toNat / 65536),
   UInt8.ofNat (n.toNat / 256), UInt8.ofNat n.toNat]

/-- The word that four bytes carry. -/
def ofBytes32 (a b c d : UInt8) : UInt32 :=
  UInt32.ofNat (a.toNat * 16777216 + b.toNat * 65536 + c.toNat * 256 + d.toNat)

theorem ofBytes16_bytes16 (n : UInt16) :
    ofBytes16 (UInt8.ofNat (n.toNat / 256)) (UInt8.ofNat n.toNat) = n := by
  apply UInt16.toNat_inj.1
  have h := n.toNat_lt
  simp only [ofBytes16, UInt16.toNat_ofNat', UInt8.toNat_ofNat']
  omega

theorem ofBytes32_bytes32 (n : UInt32) :
    ofBytes32 (UInt8.ofNat (n.toNat / 16777216)) (UInt8.ofNat (n.toNat / 65536))
      (UInt8.ofNat (n.toNat / 256)) (UInt8.ofNat n.toNat) = n := by
  apply UInt32.toNat_inj.1
  have h := n.toNat_lt
  simp only [ofBytes32, UInt32.toNat_ofNat', UInt8.toNat_ofNat']
  omega

theorem bytes16_ofBytes16 (a b : UInt8) : bytes16 (ofBytes16 a b) = [a, b] := by
  have ha := a.toNat_lt
  have hb := b.toNat_lt
  simp only [bytes16, List.cons.injEq, and_true]
  constructor <;>
    · apply UInt8.toNat_inj.1
      simp only [ofBytes16, UInt16.toNat_ofNat', UInt8.toNat_ofNat']
      omega

theorem bytes32_ofBytes32 (a b c d : UInt8) :
    bytes32 (ofBytes32 a b c d) = [a, b, c, d] := by
  have ha := a.toNat_lt
  have hb := b.toNat_lt
  have hc := c.toNat_lt
  have hd := d.toNat_lt
  simp only [bytes32, List.cons.injEq, and_true]
  refine ⟨?_, ?_, ?_, ?_⟩ <;>
    · apply UInt8.toNat_inj.1
      simp only [ofBytes32, UInt32.toNat_ofNat', UInt8.toNat_ofNat']
      omega

end StopWait.Word
