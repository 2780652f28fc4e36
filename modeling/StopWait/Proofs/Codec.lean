import StopWait.Segment

/-!
# Segments on the wire

What is written reads back, and what is read writes back, apart from the bits of a datagram that
carry nothing: the low half of byte 12, and all of byte 13 but FIN, SYN and ACK.

* `Header.parse_serialize_append`: what reading makes of a written header, whatever its data offset.
* `Header.parse_cases`: the three outcomes of reading a header.
* `Segment.parse_serialize`: a segment reads back from its datagram.
* `Segment.serialize_reversible`: **decoding undoes encoding.**
* `Segment.parse_exact`: **which datagrams are read, and what they are written back as.**
-/

namespace StopWait

/-- A half byte that is shifted up and down again has lost what is above it. -/
theorem Header.shiftLeft_shiftRight (d : UInt8) : (d <<< 4) >>> 4 = d % 16 := by
  apply UInt8.toNat_inj.1
  have h := d.toNat_lt
  have h4 : (4 : UInt8).toNat % 8 = 4 := rfl
  have h16 : (16 : UInt8).toNat = 16 := rfl
  rw [UInt8.toNat_shiftRight, UInt8.toNat_shiftLeft, UInt8.toNat_mod, h4, h16, Nat.shiftLeft_eq,
    Nat.shiftRight_eq_div_pow]
  omega

/-- A byte that is shifted down and up again has lost its low half. -/
theorem Header.shiftRight_shiftLeft (b : UInt8) : (b >>> 4) <<< 4 = b &&& 0xF0 := by
  have h : ∀ n : Fin 256, (UInt8.ofFin n >>> 4) <<< 4 = UInt8.ofFin n &&& 0xF0 := by
    decide +kernel
  exact h b.toFin

/-- The bits of FIN, SYN and ACK are all that is kept of a byte. -/
theorem Control.toByte_ofByte (b : UInt8) : (Control.ofByte b).toByte = b &&& 0x13 := by
  have h : ∀ n : Fin 256, (Control.ofByte (UInt8.ofFin n)).toByte = UInt8.ofFin n &&& 0x13 := by
    decide +kernel
  exact h b.toFin

/-- **What reading makes of a written header**: the low half of its data offset decides. -/
theorem Header.parse_serialize_append (h : Header) (rest : List UInt8) :
    Header.parse (h.serialize ++ rest) =
      if h.dataOffset % 16 = words then .ok { h with dataOffset := words }
      else .error (.unexpectedOptions (h.dataOffset % 16)) := by
  obtain ⟨srcPort, dstPort, seq, ack, offset, control, window, checksum, urgent⟩ := h
  simp only [serialize, Word.bytes16, Word.bytes32, List.cons_append, List.nil_append, parse,
    shiftLeft_shiftRight, Word.ofBytes16_bytes16, Word.ofBytes32_bytes32, Control.ofByte_toByte]
  by_cases hw : offset % 16 = words
  · rw [if_pos hw, if_pos hw, hw]
  · rw [if_neg hw, if_neg hw]

theorem Header.parse_serialize {h : Header} (ho : h.dataOffset = words) (rest : List UInt8) :
    Header.parse (h.serialize ++ rest) = .ok h := by
  have hw : h.dataOffset % 16 = words := by rw [ho]; rfl
  rw [parse_serialize_append, if_pos hw, ← ho]

theorem Segment.drop_serialize (s : Segment) : s.serialize.drop Header.size = s.payload := by
  rw [serialize, ← s.header.serialize_length, List.drop_left]

/-- **A segment reads back from its datagram.** -/
theorem Segment.parse_serialize {s : Segment} (ho : s.header.dataOffset = Header.words) :
    Segment.parse s.serialize = .ok s := by
  rw [parse, s.drop_serialize, serialize, Header.parse_serialize ho]

theorem Segment.length_serialize (s : Segment) :
    s.serialize.length = Header.size + s.payload.length := by
  rw [serialize, List.length_append, s.header.serialize_length]

/-- **Decoding undoes encoding.** A segment whose header claims five words reads back as itself. Of
any other length that a header claims, the low four bits are what is read: five is read as five,
anything else is reported. A datagram is twenty bytes and the payload, and no two segments of five
words share one. -/
theorem Segment.serialize_reversible (s : Segment) :
    (s.header.dataOffset = 5 → parse s.serialize = .ok s) ∧
    parse s.serialize =
      (if s.header.dataOffset % 16 = 5 then
        .ok { s with header := { s.header with dataOffset := 5 } }
        else .error (.unexpectedOptions (s.header.dataOffset % 16))) ∧
    (s.serialize.length = 20 + s.payload.length ∧ s.serialize.drop 20 = s.payload) ∧
    ∀ t : Segment, s.header.dataOffset = 5 → t.header.dataOffset = 5 →
      s.serialize = t.serialize → s = t := by
  refine ⟨parse_serialize, ?_, ⟨s.length_serialize, s.drop_serialize⟩, ?_⟩
  · have hheader := s.header.parse_serialize_append s.payload
    rw [parse, s.drop_serialize, serialize, hheader]
    by_cases hw : s.header.dataOffset % 16 = Header.words
    · rw [if_pos hw]
      exact (if_pos hw).symm
    · rw [if_neg hw]
      exact (if_neg hw).symm
  · intro t hs ht heq
    -- both are what the datagram reads back as
    have hread : parse s.serialize = .ok t := by
      rw [heq]
      exact parse_serialize ht
    exact Except.ok.inj ((parse_serialize hs).symm.trans hread)

/-- A FIN,ACK with a payload, from a header with every field set. -/
theorem Segment.serialize_reversible_finAck :
    let s : Segment :=
      ⟨⟨0xCAFE, 0xBABE, 0xFFFFFFFF, 0x01020304, 5, ⟨true, false, true⟩, 3072, 7, 9⟩, [1, 2, 3]⟩
    s.header.dataOffset = 5 ∧ parse s.serialize = .ok s :=
  ⟨rfl, (Segment.serialize_reversible _).1 rfl⟩

/-- A list with at least `n` bytes has `n` bytes in front. -/
theorem Header.exists_front {n : Nat} {bytes : List UInt8} (h : n ≤ bytes.length) :
    ∃ front : Fin n → UInt8, bytes = List.ofFn front ++ bytes.drop n := by
  have hfront : bytes.take n = List.ofFn fun i : Fin n => bytes[i] := by
    apply List.ext_getElem
    · rw [List.length_take, List.length_ofFn]
      omega
    · intro i _ _
      rw [List.getElem_take, List.getElem_ofFn]
      rfl
  exact ⟨_, by rw [← hfront, List.take_append_drop]⟩

/-- What is kept of the byte `b` at index `i` of a datagram. -/
def Segment.keptByte (i : Nat) (b : UInt8) : UInt8 :=
  if i = 12 then b &&& 0xF0 else if i = 13 then b &&& 0x13 else b

/-- A datagram without the bits that carry nothing. -/
def Segment.normalForm (bytes : List UInt8) : List UInt8 := bytes.mapIdx keptByte

/-- All of a payload is kept. -/
theorem Segment.mapIdx_keptByte (payload : List UInt8) :
    payload.mapIdx (fun i => keptByte (i + 20)) = payload := by
  apply List.ext_getElem (List.length_mapIdx)
  intro i _ _
  rw [List.getElem_mapIdx, keptByte, if_neg (by omega), if_neg (by omega)]

open Segment (normalForm keptByte mapIdx_keptByte) in
/-- **The three outcomes of reading a header.** -/
theorem Header.parse_cases (bytes : List UInt8) :
    (bytes.length < size ∧ parse bytes = .error .headerTooShort) ∨
    (∃ n, size ≤ bytes.length ∧ bytes[12]?.map (fun b : UInt8 => b >>> 4) = some n ∧ n ≠ words ∧
      parse bytes = .error (.unexpectedOptions n)) ∨
    ∃ h, size ≤ bytes.length ∧ bytes[12]?.map (fun b : UInt8 => b >>> 4) = some words ∧
      parse bytes = .ok h ∧ h.dataOffset = words ∧
      h.serialize ++ bytes.drop size = normalForm bytes := by
  rcases Nat.lt_or_ge bytes.length size with hlen | hlen
  · refine .inl ⟨hlen, ?_⟩
    unfold parse
    split
    · simp only [List.length_cons, size] at hlen
      omega
    · rfl
  right
  unfold parse
  split
  · rename_i b12 _ _ _ _ _ _ _ payload
    by_cases hw : b12 >>> 4 = words
    · refine .inr ⟨_, hlen, congrArg some hw, if_pos hw, hw, ?_⟩
      simp only [serialize, Word.bytes16_ofBytes16, Word.bytes32_ofBytes32,
        Control.toByte_ofByte, shiftRight_shiftLeft]
      simpa [normalForm, keptByte, List.mapIdx_cons, Nat.add_assoc, size] using
        (mapIdx_keptByte payload).symm
    · exact .inl ⟨_, hlen, rfl, hw, if_neg hw⟩
  · rename_i h
    obtain ⟨front, hfront⟩ := exists_front hlen
    exact (h _ _ _ _ _ _ _ _ _ _ _ _ _ _ _ _ _ _ _ _ _ hfront).elim

/-- **Which datagrams are read, and what they are written back as.** A datagram is too short if and
only if it has fewer than twenty bytes, whatever it claims. Of the others, one whose byte 12 does
not claim five words is reported with its claim, and every other one is read. What is read has the
bytes from the twentieth on for its payload, which are there to be cut off. Written again it is the
datagram without the bits that carry nothing, and that reads back as the same. -/
theorem Segment.parse_exact (bytes : List UInt8) :
    (parse bytes = .error .headerTooShort ↔ bytes.length < 20) ∧
    (∀ n, parse bytes = .error (.unexpectedOptions n) ↔
      20 ≤ bytes.length ∧ bytes[12]?.map (fun b : UInt8 => b >>> 4) = some n ∧ n ≠ 5) ∧
    ((∃ s, parse bytes = .ok s) ↔
      20 ≤ bytes.length ∧ bytes[12]?.map (fun b : UInt8 => b >>> 4) = some 5) ∧
    ∀ s, parse bytes = .ok s →
      s.payload = bytes.drop 20 ∧ s.serialize = normalForm bytes ∧
        parse (normalForm bytes) = .ok s := by
  obtain ⟨hlen, hp⟩ | ⟨n, hlen, hn, hne, hp⟩ | ⟨h, hlen, hn, hp, hoffset, hwritten⟩ :=
    Header.parse_cases bytes
  · have hread : parse bytes = .error .headerTooShort := by rw [parse, hp]
    have hshort : ¬ 20 ≤ bytes.length := Nat.not_le.2 hlen
    rw [hread]
    refine ⟨⟨fun _ => hlen, fun _ => rfl⟩, fun n => ⟨nofun, fun h => absurd h.1 hshort⟩,
      ⟨?_, fun h => absurd h.1 hshort⟩, nofun⟩
    rintro ⟨s, hs⟩
    cases hs
  · have hread : parse bytes = .error (.unexpectedOptions n) := by rw [parse, hp]
    rw [hread]
    refine ⟨⟨nofun, fun h => absurd hlen (Nat.not_le.2 h)⟩, fun m => ⟨?_, ?_⟩, ⟨?_, ?_⟩, nofun⟩
    · intro h
      cases h
      exact ⟨hlen, hn, hne⟩
    · rintro ⟨-, hm, -⟩
      rw [Option.some.inj (hn.symm.trans hm)]
    · rintro ⟨s, hs⟩
      cases hs
    · rintro ⟨-, h5⟩
      exact absurd (Option.some.inj (hn.symm.trans h5)) hne
  · have hread : parse bytes = .ok ⟨h, bytes.drop 20⟩ := by
      rw [parse, hp]
      rfl
    rw [hread]
    refine ⟨⟨nofun, fun h => absurd hlen (Nat.not_le.2 h)⟩, fun m => ⟨nofun, ?_⟩,
      ⟨fun _ => ⟨hlen, hn⟩, fun _ => ⟨_, rfl⟩⟩, ?_⟩
    · rintro ⟨-, hm, hm5⟩
      exact absurd (Option.some.inj (hn.symm.trans hm)).symm hm5
    · intro s hs
      cases hs
      -- what was read claims five words, so that it reads back from what it is written as
      have hserialize : serialize ⟨h, bytes.drop 20⟩ = normalForm bytes := hwritten
      refine ⟨rfl, hserialize, ?_⟩
      rw [← hserialize]
      exact parse_serialize hoffset

/-- A datagram with every bit set that carries nothing: it is written back without them. -/
theorem Segment.parse_exact_reserved :
    let bytes : List UInt8 :=
      [0, 7, 0, 8, 0, 0, 1, 44, 0, 0, 0, 2, 0x5F, 0xFE, 3, 232, 0, 0, 0, 0, 104]
    let s : Segment := ⟨⟨7, 8, 300, 2, 5, ⟨true, true, false⟩, 1000, 0, 0⟩, [104]⟩
    parse bytes = .ok s ∧ s.serialize = normalForm bytes ∧
      normalForm bytes =
        [0, 7, 0, 8, 0, 0, 1, 44, 0, 0, 0, 2, 0x50, 0x12, 3, 232, 0, 0, 0, 0, 104] :=
  ⟨rfl, ((Segment.parse_exact _).2.2.2 _ rfl).2.1, rfl⟩

end StopWait
