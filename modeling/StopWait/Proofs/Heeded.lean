import StopWait.Proofs.Codec
import StopWait.Proofs.Operations

/-!
# What is heeded of a datagram

Much of a header is carried and never looked at: the destination port, the window, which is only
noted, the checksum, the urgent pointer, and the bits that carry nothing. The source port is looked
at once, on the SYN from which an end learns where its peer is.

* `Segment.heeded`: a datagram without what is not looked at.
* `Segment.Agrees`: segments that differ in nothing that is looked at.
* `reads_of_heeded`: **datagrams of which the same is heeded are read alike**, down to the errors.
* `Connection.retuned`: a connection whose peer has advertised another window.
* `perform_retuned`: **operations on such connections with such segments come to the same.**
-/

namespace StopWait

theorem Word.bytes16_inj {m n : UInt16} (h : bytes16 m = bytes16 n) : m = n := by
  simp only [bytes16, List.cons.injEq, and_true] at h
  obtain ⟨h0, h1⟩ := h
  rw [← ofBytes16_bytes16 m, ← ofBytes16_bytes16 n, h0, h1]

theorem Word.bytes32_inj {m n : UInt32} (h : bytes32 m = bytes32 n) : m = n := by
  simp only [bytes32, List.cons.injEq, and_true] at h
  obtain ⟨h0, h1, h2, h3⟩ := h
  rw [← ofBytes32_bytes32 m, ← ofBytes32_bytes32 n, h0, h1, h2, h3]

theorem Control.toByte_inj {c d : Control} (h : c.toByte = d.toByte) : c = d := by
  rw [← ofByte_toByte c, h, ofByte_toByte]

namespace Segment

/-- Whether nothing is heeded of the byte at index `i` of a datagram, of which the source port is
heeded or is not. -/
def unheeded (port : Bool) (i : Nat) : Bool :=
  (i < 2 && !port) || (2 ≤ i && i < 4) || (14 ≤ i && i < 20)

/-- What is heeded of the byte `b` at index `i` of a datagram. -/
def heededByte (port : Bool) (i : Nat) (b : UInt8) : UInt8 :=
  if unheeded port i then 0 else keptByte i b

/-- **What is heeded of a datagram**, with its source port or without. -/
def heeded (port : Bool) (bytes : List UInt8) : List UInt8 := bytes.mapIdx (heededByte port)

/-- **Segments that differ in nothing that is heeded.** -/
structure Agrees (port : Bool) (s s' : Segment) : Prop where
  seq : s'.header.seq = s.header.seq
  ack : s'.header.ack = s.header.ack
  control : s'.header.control = s.header.control
  payload : s'.payload = s.payload
  srcPort : port = true → s'.header.srcPort = s.header.srcPort

/-- Datagrams are read as segments that agree, or fail to be read for the same reason. -/
inductive Reads (port : Bool) :
    Except Header.ParseError Segment → Except Header.ParseError Segment → Prop where
  | failed (e : Header.ParseError) : Reads port (.error e) (.error e)
  | ok {s s' : Segment} (h : s.Agrees port s') : Reads port (.ok s) (.ok s')

variable {port : Bool} {bytes bytes' : List UInt8} {h h' : Header}

theorem agrees_self (s : Segment) (port : Bool) : s.Agrees port s :=
  ⟨rfl, rfl, rfl, rfl, fun _ => rfl⟩

theorem heeded_take (port : Bool) (n : Nat) (bytes : List UInt8) :
    heeded port (bytes.take n) = (heeded port bytes).take n := by
  apply List.ext_getElem?
  intro i
  simp only [heeded, List.getElem?_mapIdx, List.getElem?_take]
  split <;> simp

theorem length_heeded (port : Bool) (bytes : List UInt8) :
    (heeded port bytes).length = bytes.length := List.length_mapIdx

/-- Bits that carry nothing are not heeded. -/
theorem heeded_normalForm (port : Bool) (bytes : List UInt8) :
    heeded port (normalForm bytes) = heeded port bytes := by
  have hbyte : ∀ i b, heededByte port i (keptByte i b) = heededByte port i b := by
    intro i b
    unfold heededByte keptByte
    split
    · rfl
    · split
      · rw [UInt8.and_assoc]
        rfl
      · split
        · rw [UInt8.and_assoc]
          rfl
        · rfl
  rw [heeded, heeded, normalForm, List.mapIdx_mapIdx]
  congr
  funext i b
  exact hbyte i b

/-- All of a payload is heeded. -/
theorem heeded_append (h : Header) (payload : List UInt8) :
    heeded port (h.serialize ++ payload) = heeded port h.serialize ++ payload := by
  have hpayload : payload.mapIdx (fun i => heededByte port (i + 20)) = payload := by
    apply List.ext_getElem List.length_mapIdx
    intro i _ _
    have hheeded : ¬ unheeded port (i + 20) = true := by
      intro h
      simp only [unheeded, Bool.or_eq_true, Bool.and_eq_true, decide_eq_true_eq] at h
      omega
    rw [List.getElem_mapIdx, heededByte, if_neg hheeded, keptByte, if_neg (by omega),
      if_neg (by omega)]
  rw [heeded, List.mapIdx_append, h.serialize_length]
  exact congrArg _ hpayload

/-- What is heeded of a header, field by field. -/
theorem heeded_serialize (h : Header) :
    heeded port h.serialize =
      (if port then Word.bytes16 h.srcPort else [0, 0]) ++ ([0, 0] : List UInt8) ++ Word.bytes32 h.seq ++
        Word.bytes32 h.ack ++ [(h.dataOffset <<< 4) &&& 0xF0, h.control.toByte &&& 0x13] ++
        [0, 0, 0, 0, 0, 0] := by
  cases port <;>
    simp [heeded, Header.serialize, Word.bytes16, Word.bytes32, heededByte, unheeded, keptByte]

/-- **Headers of which the same is heeded agree.** -/
theorem agrees_of_heeded (hh : heeded port h.serialize = heeded port h'.serialize)
    (payload : List UInt8) : Agrees port ⟨h, payload⟩ ⟨h', payload⟩ := by
  have hand : ∀ c : Control, c.toByte &&& 0x13 = c.toByte := by
    rintro ⟨a, s, f⟩
    cases a <;> cases s <;> cases f <;> rfl
  rw [heeded_serialize, heeded_serialize] at hh
  obtain ⟨hh, -⟩ := List.append_inj' hh rfl
  obtain ⟨hh, hcontrol⟩ := List.append_inj' hh rfl
  obtain ⟨hh, hack⟩ := List.append_inj' hh rfl
  obtain ⟨hh, hseq⟩ := List.append_inj' hh rfl
  obtain ⟨hport, -⟩ := List.append_inj' hh rfl
  simp only [hand, List.cons.injEq, and_true] at hcontrol
  refine ⟨(Word.bytes32_inj hseq).symm, (Word.bytes32_inj hack).symm,
    (Control.toByte_inj hcontrol.2).symm, rfl, fun hp => ?_⟩
  rw [hp] at hport
  exact (Word.bytes16_inj hport).symm

/-- The length of the header is heeded. -/
theorem words_heeded (port : Bool) (bytes : List UInt8) :
    (heeded port bytes)[12]?.map (fun b : UInt8 => b >>> 4) =
      bytes[12]?.map fun b : UInt8 => b >>> 4 := by
  have hbyte : ∀ n : Fin 256, (UInt8.ofFin n &&& 0xF0) >>> 4 = UInt8.ofFin n >>> 4 := by
    decide +kernel
  rw [heeded, List.getElem?_mapIdx, Option.map_map]
  exact congrFun (congrArg Option.map (funext fun b : UInt8 => hbyte b.toFin)) _

/-- **Datagrams of which the same is heeded are read alike.** -/
theorem reads_of_heeded (hh : heeded port bytes = heeded port bytes') :
    Reads port (parse bytes) (parse bytes') := by
  have hlen : bytes.length = bytes'.length := by
    rw [← length_heeded port bytes, hh, length_heeded]
  have hwords : bytes[12]?.map (fun b : UInt8 => b >>> 4) =
      bytes'[12]?.map fun b : UInt8 => b >>> 4 := by
    rw [← words_heeded port bytes, hh, words_heeded]
  have herror : ∀ {e}, Header.parse bytes = .error e → Header.parse bytes' = .error e →
      Reads port (parse bytes) (parse bytes') := by
    intro e he he'
    rw [parse, parse, he, he']
    exact .failed e
  obtain ⟨hl, hp⟩ | ⟨n, hl, hn, hne, hp⟩ | ⟨h, hl, hn, hp, -, hs⟩ := Header.parse_cases bytes
  · obtain ⟨-, hp'⟩ | ⟨_, hl', -⟩ | ⟨_, hl', -⟩ := Header.parse_cases bytes'
    · exact herror hp hp'
    · omega
    · omega
  · obtain ⟨hl', -⟩ | ⟨n', -, hn', -, hp'⟩ | ⟨_, -, hn', -⟩ := Header.parse_cases bytes'
    · omega
    · cases hn.symm.trans (hwords.trans hn')
      exact herror hp hp'
    · exact absurd (Option.some.inj (hn.symm.trans (hwords.trans hn'))) hne
  · obtain ⟨hl', -⟩ | ⟨n', -, hn', hne', -⟩ | ⟨h', -, -, hp', -, hs'⟩ := Header.parse_cases bytes'
    · omega
    · exact absurd (Option.some.inj (hn'.symm.trans (hwords.symm.trans hn))) hne'
    · -- header and payload are heeded on their own
      have happend : heeded port h.serialize ++ bytes.drop Header.size =
          heeded port h'.serialize ++ bytes'.drop Header.size := by
        rw [← heeded_append, ← heeded_append, hs, hs', heeded_normalForm, heeded_normalForm, hh]
      have hsize : (heeded port h.serialize).length = (heeded port h'.serialize).length := by
        rw [length_heeded, length_heeded]
        rfl
      obtain ⟨hheader, hpayload⟩ := List.append_inj happend hsize
      rw [parse, parse, hp, hp', hpayload]
      exact .ok (agrees_of_heeded hheader _)

end Segment

namespace Connection

/-- A connection whose peer has advertised another window. -/
def retuned (c : Connection) (window : UInt16) : Connection :=
  { c with received := { c.received with window } }

/-- Whether an end learns its peer's port from a segment that is awaited: from the SYN that it
accepts while it has no remote port. -/
def learnsFrom (c : Connection) (kind : Kind) (s : Segment) : Bool :=
  kind = .syn && c.remotePort = 0 && kind.accepts s.header.control

/-- Operations with segments that agree. -/
inductive Op.Agrees (c : Connection) : Op → Op → Prop where
  | same (op : Op) : Agrees c op op
  | accept {kind : Kind} {s s' : Segment} (h : s.Agrees (c.learnsFrom kind s) s') :
    Agrees c (.accept kind s) (.accept kind s')
  | record {s s' : Segment} (h : s.Agrees false s') : Agrees c (.record s) (.record s')

variable {c d : Connection} {kind : Kind} {payload : List UInt8} {s s' : Segment} {port : Bool}
  {op op' : Op} {w : UInt16}

theorem logData_retuned (c : Connection) (w : UInt16) (direction : Log.Direction) (len : UInt32) :
    (c.retuned w).logData direction len =
      ((c.logData direction len).1.retuned w, (c.logData direction len).2) := rfl

theorem segment_retuned (c : Connection) (w : UInt16) (kind : Kind) (payload : List UInt8) :
    (c.retuned w).segment kind payload =
      ((c.segment kind payload).1.retuned w, (c.segment kind payload).2) := by
  have hfault : (c.retuned w).sendFault kind = c.sendFault kind := rfl
  have hnumbers : (c.retuned w).numbers kind = c.numbers kind := by cases kind <;> rfl
  have hdraft : (c.retuned w).draft kind = c.draft kind := by
    simp only [draft, hnumbers]
    rfl
  have hnote : ∀ s, (c.retuned w).noteSent kind s = (c.noteSent kind s).retuned w := by
    intro s
    simp only [noteSent, hnumbers]
    rfl
  unfold segment
  rw [hfault, hdraft]
  cases c.sendFault kind with
  | some e => rfl
  | none =>
    cases Segment.build kind (c.draft kind) payload with
    | error e => rfl
    | ok s =>
      by_cases hk : kind = .data
      · simp only [if_pos hk, logData_retuned]
        rcases c.logData .send (UInt32.ofNat payload.length) with ⟨d, r⟩
        cases r with
        | error e => rfl
        | ok u =>
          subst hk
          rfl
      · simp only [if_neg hk, hnote]

theorem grow_retuned (c : Connection) (w : UInt16) (acked : Acknowledged) :
    (c.retuned w).grow acked = ((c.grow acked).1.retuned w, (c.grow acked).2) := by
  have hwindow : (c.retuned w).window = c.window := rfl
  unfold grow
  rw [hwindow]
  cases c.window.acknowledge acked <;> rfl

theorem acknowledge_retuned (c : Connection) (w : UInt16) :
    (c.retuned w).acknowledge = (c.acknowledge.1.retuned w, c.acknowledge.2) := by
  have hflight : (c.retuned w).inFlight = c.inFlight := rfl
  unfold acknowledge
  rw [hflight]
  cases hf : c.inFlight with
  | none => exact grow_retuned c w .control
  | some len =>
    have hlog : ({ c.retuned w with inFlight := none } : Connection).logData .recv len =
        (({ c with inFlight := none }.logData .recv len).1.retuned w,
          ({ c with inFlight := none }.logData .recv len).2) := rfl
    simp only [hlog]
    rcases ({ c with inFlight := none } : Connection).logData .recv len with ⟨d, r⟩
    cases r with
    | error e => rfl
    | ok u => exact grow_retuned d w (.data len)

/-- What is noted of segments that agree differs in the window. -/
theorem noteReceived_retuned (c : Connection) (w : UInt16) (h : s.Agrees port s') :
    (c.retuned w).noteReceived s' = (c.noteReceived s).retuned s'.header.window := by
  have hlen : s'.seqLen = s.seqLen := by rw [Segment.seqLen, Segment.seqLen, h.payload, h.control]
  simp only [noteReceived, retuned, h.seq, h.ack, hlen]

/-- Of segments that agree, both are recorded or neither is. -/
theorem record_retuned (c : Connection) (w : UInt16) (h : s.Agrees port s') :
    (c.retuned w).record s' = (c.record s).map (·.retuned s'.header.window) := by
  have hdone : (c.retuned w).done = c.done := rfl
  have hfits : s'.seqLenFits = s.seqLenFits := by
    rw [Segment.seqLenFits, Segment.seqLenFits, h.payload, h.control]
  simp only [record, hdone, hfits, noteReceived_retuned c w h]
  cases c.done with
  | true => rfl
  | false => cases s.seqLenFits <;> rfl

theorem advance_retuned (c : Connection) (w : UInt16) (h : s.Agrees (c.learnsFrom kind s) s')
    (hk : kind.accepts s.header.control = true) :
    (c.retuned w).advance kind s' = (c.advance kind s).retuned w := by
  unfold advance
  by_cases hsyn : kind = .syn
  · rw [if_pos hsyn, if_pos hsyn]
    by_cases hport : c.remotePort = 0
    · have hsrc : s'.header.srcPort = s.header.srcPort :=
        h.srcPort (by rw [learnsFrom, hk]; simp [hsyn, hport])
      rw [hsrc]
      rfl
    · have hport' : (c.retuned w).remotePort ≠ 0 := hport
      rw [if_neg hport, if_neg hport']
      rfl
  · rw [if_neg hsyn, if_neg hsyn, h.ack]
    rfl

theorem accept_retuned (c : Connection) (w : UInt16) (h : s.Agrees (c.learnsFrom kind s) s') :
    ∃ w', (c.retuned w).accept kind s' =
      ((c.accept kind s).1.retuned w', (c.accept kind s).2) := by
  have hdone : (c.retuned w).done = c.done := rfl
  have hkind : s'.kind = s.kind := by rw [Segment.kind, Segment.kind, h.control]
  unfold accept
  rw [hdone, h.control, hkind, record_retuned c w h]
  cases c.done with
  | true => exact ⟨w, rfl⟩
  | false =>
    cases hk : kind.accepts s.header.control with
    | false => exact ⟨w, rfl⟩
    | true =>
      rcases record_cases c s with ⟨e, hrecord, -⟩ | ⟨-, -, hrecord⟩ <;>
        simp only [hrecord, Except.map]
      · exact ⟨w, rfl⟩
      · have hadvance : ((c.noteReceived s).retuned s'.header.window).advance kind s' =
            ((c.noteReceived s).advance kind s).retuned s'.header.window :=
          advance_retuned (c.noteReceived s) s'.header.window h hk
        refine ⟨s'.header.window, ?_⟩
        simp only [hadvance]
        cases kind.control.ack with
        | false => rfl
        | true => exact acknowledge_retuned _ _

theorem apply_retuned (c : Connection) (w : UInt16) (t : Trigger) :
    (c.retuned w).apply t = (c.apply t).map fun r => (r.1, r.2.retuned w) := by
  have hdone : (c.retuned w).done = c.done := rfl
  have hstate : (c.retuned w).state = c.state := rfl
  unfold apply
  rw [hdone, hstate]
  cases c.done with
  | true => rfl
  | false => cases c.state.on t <;> rfl

theorem perform_accept_retuned (c : Connection) (w : UInt16)
    (h : s.Agrees (c.learnsFrom kind s) s') :
    ∃ w', (c.retuned w).perform (.accept kind s') =
      ((c.perform (.accept kind s)).1.retuned w', (c.perform (.accept kind s)).2) := by
  obtain ⟨w', hw⟩ := accept_retuned c w h
  refine ⟨w', ?_⟩
  simp only [perform, hw]
  rcases c.accept kind s with ⟨d, r⟩
  cases r <;> rfl

theorem perform_record_retuned (c : Connection) (w : UInt16) (h : s.Agrees port s') :
    ∃ w', (c.retuned w).perform (.record s') =
      ((c.perform (.record s)).1.retuned w', (c.perform (.record s)).2) := by
  simp only [perform, record_retuned c w h]
  cases c.record s with
  | error e => exact ⟨w, rfl⟩
  | ok d => exact ⟨s'.header.window, rfl⟩

/-- **Operations with segments that agree come to the same**, but for the window advertised. -/
theorem perform_retuned (c : Connection) (w : UInt16) (h : Op.Agrees c op op') :
    ∃ w', (c.retuned w).perform op' = ((c.perform op).1.retuned w', (c.perform op).2) := by
  cases h with
  | accept h => exact perform_accept_retuned c w h
  | record h => exact perform_record_retuned c w h
  | same =>
    cases op with
    | accept kind s => exact perform_accept_retuned c w (s.agrees_self _)
    | record s => exact perform_record_retuned c w (s.agrees_self false)
    | apply t =>
      refine ⟨w, ?_⟩
      simp only [perform, apply_retuned]
      cases c.apply t <;> rfl
    | segment kind payload =>
      refine ⟨w, ?_⟩
      simp only [perform, segment_retuned]
      rcases c.segment kind payload with ⟨d, r⟩
      cases r <;> rfl
    | finish =>
      have hfinishes : (c.retuned w).finishes = c.finishes := rfl
      refine ⟨w, ?_⟩
      simp only [perform, finish, hfinishes]
      cases c.finishes <;> rfl

theorem attempt_retuned (c : Connection) (w : UInt16) (ops : List Op) :
    ∃ w', (c.retuned w).attempt ops = ((c.attempt ops).1.retuned w', (c.attempt ops).2) := by
  induction ops generalizing c w with
  | nil => exact ⟨w, rfl⟩
  | cons op ops ih =>
    obtain ⟨w', hw⟩ := perform_retuned c w (.same op)
    simp only [attempt, hw]
    rcases c.perform op with ⟨d, e⟩
    cases e with
    | some e => exact ⟨w', rfl⟩
    | none => exact ih d w'

/-- Operations of which the first is with segments that agree. -/
theorem attempt_cons_retuned (c : Connection) (w : UInt16) (h : Op.Agrees c op op')
    (ops : List Op) :
    ∃ w', (c.retuned w).attempt (op' :: ops) =
      ((c.attempt (op :: ops)).1.retuned w', (c.attempt (op :: ops)).2) := by
  obtain ⟨w', hw⟩ := perform_retuned c w h
  simp only [attempt, hw]
  rcases c.perform op with ⟨d, e⟩
  cases e with
  | some e => exact ⟨w', rfl⟩
  | none => exact attempt_retuned d w' ops

end Connection

end StopWait
