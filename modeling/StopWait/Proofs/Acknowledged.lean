import StopWait.Proofs.Figures
import StopWait.Proofs.Trail

/-!
# What an acknowledgment covers

An acknowledgment covers the segment that was received last, with its payload. A session hands the
payload to its application before it acknowledges it, except that of the SYN,ACK: no transition out
of SYN-SENT delivers, and what the SYN,ACK brought is acknowledged and lost.

* `lastReceived`, `handedSince`: the segment received last, and what was handed over since.
* `Stage.Owes`: what a session on its way to an acknowledgment owes its application.
* `ack_covers`: **what an acknowledgment covers was handed over**, if not received in SYN-SENT.
* `synAck_payload_lost`: the bytes on a SYN,ACK are lost.
-/

namespace StopWait.Session

/-- The segment that was received last, with the session that received it. -/
def lastReceived : Past → Option (Session × Segment)
  | [] => none
  | (u, h) :: past =>
    match h.segment? with
    | some s => some (u, s)
    | none => lastReceived past

/-- The bytes that the application takes in a step. -/
def Happening.handed? : Happening → Option (List UInt8)
  | .answered (.appSend bytes) .told => some bytes
  | _ => none

/-- What the application took since a segment was received, in order. -/
def handedSince : Past → List (List UInt8)
  | [] => []
  | (_, h) :: past =>
    match h.segment? with
    | some _ => []
    | none => handedSince past ++ h.handed?.toList

variable {c₀ c d : Connection} {x x' : Stage} {h : Happening} {past : Past} {t u : Session}
  {bytes : List UInt8} {s a : Segment}

/-- What a session on its way to an acknowledgment owes its application. -/
def Stage.Owes (past : Past) (c : Connection) : Stage → Prop
  | .delivering _ bytes => ∃ u s, lastReceived past = some (u, s) ∧ handedSince past = [] ∧
      u.connection.state ≠ .synSent ∧ s.payload = bytes ∧ bytes ≠ [] ∧
      c.figures.expects = s.header.seq + s.seqLen
  | .sending m _ => m.kind = .ack → ∃ u s, lastReceived past = some (u, s) ∧
      handedSince past =
        (if u.connection.state = .synSent ∨ s.payload = [] then [] else [s.payload]) ∧
      c.figures.sentAck = s.header.seq + s.seqLen
  | _ => True

theorem lastReceived_of_parse (u : Session) (past : Past)
    (hs : Segment.parse (bytes.take receiveCapacity) = .ok s) :
    lastReceived ((u, .answered (.networkRecv receiveCapacity) (.bytes bytes)) :: past) =
        some (u, s) ∧
      handedSince ((u, .answered (.networkRecv receiveCapacity) (.bytes bytes)) :: past) = [] := by
  simp [lastReceived, handedSince, Happening.segment_of_parse hs]

/-- What is owed for a segment that was just received, not in SYN-SENT, if it brought a payload or
ended the peer's data. -/
theorem owes_begin {ops : List Connection.Op} (a : Arrival)
    (hs : Segment.parse (bytes.take receiveCapacity) = .ok s) (hc : c.state ≠ .synSent)
    (hops : (ops.foldl Figures.count c.figures).expects = s.header.seq + s.seqLen)
    (hcarry : carry c (prepend ops (a.begin s.payload)) = (d, (a.begin s.payload).2)) :
    (a.begin s.payload).2.Owes
      ((staged (c, x), .answered (.networkRecv receiveCapacity) (.bytes bytes)) :: past) d := by
  obtain ⟨hlast, hhanded⟩ := lastReceived_of_parse (staged (c, x)) past hs
  have hd := figures_carry hcarry (arrival_ne_failed a)
  rw [prepend, List.foldl_append] at hd
  obtain ⟨hp, hb⟩ | ⟨hp, hb⟩ := arrival_begin a s.payload <;> rw [hb] at hd ⊢
  · exact ⟨_, s, hlast, hhanded, hc, rfl, hp, hd ▸ hops⟩
  · intro hk
    refine ⟨_, s, hlast, by rw [if_pos (.inr hp), hhanded], ?_⟩
    rw [hd, ← hops]
    show ((ops.foldl Figures.count c.figures).numbers a.message.kind).2 = _
    rw [hk]
    rfl

/-- **What is owed after a step**, from what was owed before. -/
theorem Passage.owes (hx : x.Fits c₀ c) (ho : x.Owes past c) (hp : Passage c₀ c x h d x') :
    x'.Owes ((staged (c, x), h) :: past) d := by
  cases hp with
  | again => trivial
  | opens _ _ hopen =>
    obtain rfl | rfl := hopen
    · nofun
    · trivial
  | answered hcall hcarry hpass =>
    have hstate := (hx.live_of_call hcall).state
    have hopen : ∀ {st : State}, c.state = st → st ≠ .synSent → c.state ≠ .synSent :=
      fun h hne => h ▸ hne
    cases hpass with
    | closes | writes | signals => nofun
    | @takes bytes s _ hs hf hp =>
      have hturn : Stage.reading.turn (.bytes bytes) =
          prepend [.record s, .apply (.arrived .data)] (Arrival.data.begin s.payload) :=
        (readSegment_of_parse hs _).trans (arrival_of_payload hf hp)
      have hstage : (Arrival.data.begin s.payload).2 = .delivering .data s.payload :=
        congrArg Prod.snd (begin_of_ne_nil .data hp)
      rw [hturn, ← hstage] at hcarry
      rw [← hstage]
      exact owes_begin .data hs (hopen hstate nofun) rfl hcarry
    | @takesFin bytes s _ hs hf =>
      have hturn : Stage.reading.turn (.bytes bytes) =
          prepend [.record s, .apply (.arrived .fin)] (Arrival.peerFin.begin s.payload) :=
        (readSegment_of_parse hs _).trans (arrival_of_fin hf)
      rw [hturn] at hcarry
      exact owes_begin .peerFin hs (hopen hstate nofun) rfl hcarry
    | @accepts w bytes s _ d' hs hk ha =>
      have hturn : (Stage.receiving w).turn (.bytes bytes) = w.take s := readSegment_of_parse hs _
      rw [hturn] at hcarry
      cases w with
      | synAck =>
        intro _
        obtain ⟨hlast, hhanded⟩ :=
          lastReceived_of_parse (staged (c, .receiving .synAck)) past hs
        have hd := figures_carry hcarry nofun
        refine ⟨_, s, hlast, by rw [if_pos (.inl hstate), hhanded], by rw [hd]; rfl⟩
      | peerFin => exact owes_begin .lastFin hs (hopen hstate nofun) rfl hcarry
      | syn => nofun
      | _ => trivial
    | @posts m => cases m <;> trivial
    | @hands a bytes _ =>
      obtain ⟨u, s, hlast, hhanded, hu, rfl, hne, hf⟩ := ho
      have hd := figures_carry hcarry nofun
      intro hk
      refine ⟨u, s, hlast, ?_, ?_⟩
      · rw [if_neg (by simp [hu, hne])]
        show handedSince past ++ [s.payload] = [s.payload]
        rw [hhanded, List.nil_append]
      · rw [hd, ← hf]
        show (c.figures.numbers a.message.kind).2 = _
        rw [hk]
        rfl
    | _ => trivial

/-- **What an acknowledgment covers was handed over.** A session that hands an acknowledgment to the
network has received a segment, and acknowledges it to its end. Since then, its application took the
payload of that segment, once and whole, if there is any and the segment was not received in
SYN-SENT; and it took nothing else. -/
theorem ack_covers (settings : Settings) (role : Role) (sink : Option Log.Sink)
    (h : Trail (opened settings role sink) past t) (ha : t.Transmits a) (hk : a.kind = .ack) :
    ∃ u s, lastReceived past = some (u, s) ∧ a.header.ack = s.header.seq + s.seqLen ∧
      handedSince past =
        (if u.connection.state = .synSent ∨ s.payload = [] then [] else [s.payload]) := by
  have h₀ := Connection.opened_free settings role sink
  rw [opened_eq] at h
  obtain ⟨c, x, rfl, hx, howes⟩ := h.induct (P := fun past c x => x.Owes past c) h₀ rfl trivial
    (fun ho hx _ hp => hp.owes hx ho)
  obtain ⟨m, bytes, rfl, rfl⟩ := (transmits_iff hx).1 ha
  have hm : m.kind = .ack := by cases m <;> first | rfl | cases hk
  obtain ⟨u, s, hlast, hhanded, hack⟩ := howes hm
  exact ⟨u, s, hlast, hack, hhanded⟩

/-- A stack with which an active session opens, and its peer ends with two bytes. -/
def twoBytesAndFin : List Response :=
  [.sent 20, .event .networkData, .bytes (blank .synAck []), .sent 20, .told, .event .networkData,
    .bytes (blank .fin [104, 105]), .told]

/-- The bytes on a FIN are handed over before it is acknowledged. -/
theorem ack_covers_fin : ∃ past t a, Trail (opened {} .active none) past t ∧ t.Transmits a ∧
    a.kind = .ack ∧ a.header.ack = 3 ∧ handedSince past = [[104, 105]] := by
  have hhears : rehearse {} .active none twoBytesAndFin = some (_, _) := rfl
  have hreaches := reaches_rehearse hhears
  have hsends := (transmits_iff hreaches.fits).2 ⟨.peerFinAck, [104, 105], rfl, rfl⟩
  obtain ⟨u, s, hlast, hack, hhanded⟩ := ack_covers {} .active none hreaches.trail hsends rfl
  cases hlast
  exact ⟨_, _, _, hreaches.trail, hsends, rfl, hack, hhanded⟩

/-- A stack that brings two bytes on the SYN,ACK. -/
def twoBytesAndSynAck : List Response :=
  [.sent 20, .event .networkData, .bytes (blank .synAck [104, 105])]

/-- **The bytes on a SYN,ACK are acknowledged and lost**: it is not so that whatever payload an
acknowledgment covers has been handed over at some time. -/
theorem synAck_payload_lost : ¬ ∀ settings role sink past t,
    Trail (opened settings role sink) past t → ∀ a, t.Transmits a → a.kind = .ack →
      ∀ u s, lastReceived past = some (u, s) → s.payload ≠ [] →
        ∃ q ∈ past, q.2 = .answered (.appSend s.payload) .told := by
  intro hall
  have hhears : rehearse {} .active none twoBytesAndSynAck = some (_, _) := rfl
  have hreaches := reaches_rehearse hhears
  have hsends := (transmits_iff hreaches.fits).2 ⟨.openAck, [104, 105], rfl, rfl⟩
  obtain ⟨q, hq, happ⟩ := hall {} .active none _ _ hreaches.trail _ hsends rfl _ _ rfl
    (List.cons_ne_nil _ _)
  -- of the steps so far, none is an answer of the application
  simp only [List.mem_cons, List.not_mem_nil, or_false] at hq
  obtain rfl | rfl | rfl | rfl := hq <;> cases happ

end StopWait.Session
