import StopWait.Proofs.Codec
import StopWait.Proofs.Drafts

/-!
# Segments are built as the kind asked for

The control bits of a segment are put together in three places: by the steps of its draft, by the
marks of its kind, and by the ACK bit that is set last. A plain step sets neither SYN nor FIN, so
that the first place leaves at most the ACK bit, which the third one replaces.

* `Draft.applyAll_plain`: plain steps come down to the last numbers that they set.
* `Segment.payloadFault_spec`: which rule a payload breaks.
* `Segment.build_of_bits`: a draft without SYN and FIN gets the bits of the kind.
* `Segment.build_exact`: **a built segment is exactly the kind asked for.**
-/

namespace StopWait

namespace Draft

/-- A step that sets neither SYN nor FIN. -/
def Step.Plain : Step → Prop
  | .window _ | .acknowledge _ | .ackNumber _ => True
  | .syn | .fin => False

/-- The bits of a draft that only plain steps have changed: SYN and FIN are as they were. -/
theorem applyAll_plain (d : Draft) {steps : List Step} (hplain : ∀ s ∈ steps, s.Plain) :
    ∃ ackBit, d.applyAll steps =
      { d with
        ack := lastSet Step.ack? d.ack steps
        window := lastSet Step.window? d.window steps
        control := { d.control with ack := ackBit } } := by
  have hsyn : steps.contains .syn = false := by
    rw [← Bool.not_eq_true, List.contains_iff_mem]
    exact fun hmem => hplain _ hmem
  have hfin : steps.contains .fin = false := by
    rw [← Bool.not_eq_true, List.contains_iff_mem]
    exact fun hmem => hplain _ hmem
  refine ⟨d.control.ack || (bitsSet steps).ack, ?_⟩
  rw [applyAll_eq]
  simp only [bitsSet, hsyn, hfin, Bool.or_false]

end Draft

namespace Segment

/-- The payloads that a segment of a kind may have: for data between 1 and 536 bytes, and none for
any other kind. -/
def Carries (kind : Kind) (payload : List UInt8) : Prop :=
  if kind = .data then 1 ≤ payload.length ∧ payload.length ≤ 536 else payload = []

variable {kind : Kind} {payload : List UInt8} {d : Draft} {ackBit : Bool}

theorem carries_data : Carries .data payload ↔ 1 ≤ payload.length ∧ payload.length ≤ 536 := by
  rw [Carries, if_pos rfl]

theorem carries_control (hkind : kind ≠ .data) : Carries kind payload ↔ payload = [] := by
  rw [Carries, if_neg hkind]

/-- A payload that may be carried fits a header. -/
theorem Carries.length_le (h : Carries kind payload) : payload.length ≤ 536 := by
  by_cases hkind : kind = .data
  · subst hkind
    exact (carries_data.1 h).2
  · rw [(carries_control hkind).1 h]
    exact Nat.zero_le _

/-- Every kind but data has one rule. -/
theorem payloadFault_control (hkind : kind ≠ .data) (payload : List UInt8) :
    payloadFault kind payload =
      if payload.isEmpty then none else some (.payloadOnControl kind) := by
  cases kind with
  | data => exact absurd rfl hkind
  | syn | ack | synAck | fin | finAck => rfl

/-- **Which rule a payload breaks.** None if the kind may have the payload, and otherwise the one
that is named. -/
theorem payloadFault_spec (kind : Kind) (payload : List UInt8) :
    (payloadFault kind payload = none ↔ Carries kind payload) ∧
    (payloadFault kind payload = some .emptyData ↔ kind = .data ∧ payload = []) ∧
    (∀ n, payloadFault kind payload = some (.exceedsMss n) ↔
      kind = .data ∧ 536 < payload.length ∧ n = payload.length) ∧
    (∀ k, payloadFault kind payload = some (.payloadOnControl k) ↔
      kind ≠ .data ∧ payload ≠ [] ∧ k = kind) ∧
    ∀ e, payloadFault kind payload ≠ some (.header e) := by
  have hmss : mss.toNat = 536 := rfl
  by_cases hkind : kind = .data
  · subst hkind
    rw [carries_data]
    rcases payload with _ | ⟨b, payload⟩
    · simp [payloadFault]
    · by_cases hlong : 536 < (b :: payload).length
      · have hfault : payloadFault .data (b :: payload) =
            some (.exceedsMss (b :: payload).length) := if_pos (hmss ▸ hlong)
        simp [hfault, eq_comm] at hlong ⊢
        omega
      · have hfault : payloadFault .data (b :: payload) = none := if_neg (hmss ▸ hlong)
        simp [hfault] at hlong ⊢
        omega
  · rw [payloadFault_control hkind, carries_control hkind]
    rcases payload with _ | ⟨b, payload⟩ <;> simp [hkind, eq_comm]

/-- The marks of a kind are all that a draft without SYN and FIN has of these. -/
theorem mark_control (h : d.control = ⟨ackBit, false, false⟩) :
    mark kind d = { d with control := ⟨ackBit, kind.control.syn, kind.control.fin⟩ } := by
  obtain ⟨srcPort, dstPort, seq, ack, window, control⟩ := d
  cases (show control = ⟨ackBit, false, false⟩ from h)
  cases kind <;> rfl

/-- The segment of a kind that a draft and a payload make. -/
def ofDraft (kind : Kind) (d : Draft) (payload : List UInt8) : Segment :=
  ⟨{ srcPort := d.srcPort, dstPort := d.dstPort, seq := d.seq, ack := d.ack
     dataOffset := Header.words, control := kind.control, window := d.window
     checksum := 0, urgent := 0 }, payload⟩

/-- **A draft without SYN and FIN gets the bits of the kind**, whether or not it has the ACK bit,
and the payload alone decides whether it is built. -/
theorem build_of_bits (h : d.control = ⟨ackBit, false, false⟩) :
    build kind d payload = match payloadFault kind payload with
      | some e => .error e
      | none => .ok (ofDraft kind d payload) := by
  unfold build
  cases hfault : payloadFault kind payload with
  | some e => rfl
  | none =>
    have hle : payload.length ≤ 536 :=
      Carries.length_le ((payloadFault_spec kind payload).1.1 hfault)
    simp only [mark_control h, Draft.build_of_le _ (show payload.length ≤ 65515 by omega)]
    rfl

theorem build_eq_error_iff (h : d.control = ⟨ackBit, false, false⟩) {e : BuildError} :
    build kind d payload = .error e ↔ payloadFault kind payload = some e := by
  rw [build_of_bits h]
  cases payloadFault kind payload with
  | some e' => simp
  | none => simp

theorem build_eq_ok_iff (h : d.control = ⟨ackBit, false, false⟩) {s : Segment} :
    build kind d payload = .ok s ↔ Carries kind payload ∧ s = ofDraft kind d payload := by
  rw [build_of_bits h, ← (payloadFault_spec kind payload).1]
  cases payloadFault kind payload with
  | some e => simp
  | none => simp [eq_comm]

/-- The sequence space of a segment whose payload its kind may have: nothing wraps. -/
theorem seqLen_ofDraft (d : Draft) (hcarries : Carries kind payload) :
    (ofDraft kind d payload).seqLen.toNat =
      payload.length + kind.control.syn.toNat + kind.control.fin.toNat := by
  have hle : payload.length ≤ 536 := hcarries.length_le
  have hlimit : Word.limit32 = 4294967296 := rfl
  have hfits : (ofDraft kind d payload).seqLenFits = true :=
    seqLenFits_of_length (by show payload.length + 2 < _; omega)
  have hlen : payload.length % Word.limit32 = payload.length := Nat.mod_eq_of_lt (by omega)
  rw [toNat_seqLen hfits]
  show payload.length % Word.limit32 + _ + _ = _
  rw [hlen]
  rfl

/-- **A built segment is exactly the kind asked for.** The draft starts with ports and a sequence
number, and any plain steps follow in any order. The segment is built if and only if the kind may
have the payload, and what is reported otherwise is the rule that the payload breaks. What is built
has the bits of the kind, even where a step set the ACK bit, and the numbers of the last steps that
set any. It occupies its payload, and one each for SYN and FIN. Its datagram reads back as the same
segment, which is taken for the same kind. -/
theorem build_exact (kind : Kind) (srcPort dstPort : UInt16) (seq : UInt32)
    (steps : List Draft.Step) (payload : List UInt8) (hplain : ∀ s ∈ steps, s.Plain) :
    let built := build kind (({ srcPort, dstPort, seq } : Draft).applyAll steps) payload
    ((∃ s, built = .ok s) ↔
      if kind = .data then 1 ≤ payload.length ∧ payload.length ≤ 536 else payload = []) ∧
    (built = .error .emptyData ↔ kind = .data ∧ payload = []) ∧
    (∀ n, built = .error (.exceedsMss n) ↔
      kind = .data ∧ 536 < payload.length ∧ n = payload.length) ∧
    (∀ k, built = .error (.payloadOnControl k) ↔ kind ≠ .data ∧ payload ≠ [] ∧ k = kind) ∧
    (∀ e, built ≠ .error (.header e)) ∧
    ∀ s, built = .ok s →
      s.header =
        { srcPort, dstPort, seq
          ack := Draft.lastSet Draft.Step.ack? 0 steps
          dataOffset := 5
          control := kind.control
          window := Draft.lastSet Draft.Step.window? 0 steps
          checksum := 0
          urgent := 0 } ∧
      s.payload = payload ∧
      s.seqLen.toNat = payload.length + kind.control.syn.toNat + kind.control.fin.toNat ∧
      parse s.serialize = .ok s ∧ s.kind = kind := by
  obtain ⟨ackBit, hdraft⟩ :=
    Draft.applyAll_plain ({ srcPort, dstPort, seq } : Draft) hplain
  have hbits : (({ srcPort, dstPort, seq } : Draft).applyAll steps).control =
      ⟨ackBit, false, false⟩ := by
    rw [hdraft]
    rfl
  obtain ⟨-, hempty, hlong, hcontrol, hheader⟩ := payloadFault_spec kind payload
  intro built
  refine ⟨⟨?_, fun h => ⟨_, (build_eq_ok_iff hbits).2 ⟨h, rfl⟩⟩⟩,
    (build_eq_error_iff hbits).trans hempty, fun n => (build_eq_error_iff hbits).trans (hlong n),
    fun k => (build_eq_error_iff hbits).trans (hcontrol k),
    fun e h => hheader e ((build_eq_error_iff hbits).1 h), ?_⟩
  · rintro ⟨s, hs⟩
    exact ((build_eq_ok_iff hbits).1 hs).1
  · intro s hs
    obtain ⟨hcarries, rfl⟩ := (build_eq_ok_iff hbits).1 hs
    exact ⟨by rw [hdraft]; rfl, rfl, seqLen_ofDraft _ hcarries, parse_serialize rfl,
      Kind.ofControl_control kind⟩

/-- A FIN after two steps that set an acknowledgment number, the first of them with the ACK bit:
the segment has the second number, and not the bit. -/
theorem build_exact_fin :
    let steps : List Draft.Step := [.acknowledge 5, .window 1, .ackNumber 6, .window 2]
    (∀ s ∈ steps, s.Plain) ∧
      ∃ s, build .fin (({ srcPort := 7, dstPort := 8, seq := 300 } : Draft).applyAll steps) [] =
          .ok s ∧
        s.header = ⟨7, 8, 300, 6, 5, ⟨false, false, true⟩, 2, 0, 0⟩ ∧ s.seqLen.toNat = 1 ∧
        parse s.serialize = .ok s ∧ s.kind = .fin := by
  intro steps
  have hplain : ∀ s ∈ steps, s.Plain := by simp [steps, Draft.Step.Plain]
  obtain ⟨hbuilt, -, -, -, -, hsegment⟩ := build_exact .fin 7 8 300 steps [] hplain
  obtain ⟨s, hs⟩ := hbuilt.2 rfl
  obtain ⟨hheader, -, hlen, hread, hkind⟩ := hsegment s hs
  exact ⟨hplain, s, hs, hheader, hlen, hread, hkind⟩

end Segment

end StopWait
