import StopWait.Proofs.Figures
import StopWait.Proofs.Trail

/-!
# What arrives, and what is handed over

A session hands over what arrives as it arrives. It notes the number of a segment after it has taken
the segment in, and compares it with nothing: a segment that the network repeats is handed over
again, and one that it holds back comes late. Only where the network keeps the order are the bytes
handed over those that the peer numbered, without a gap.

* `offered`: the payloads handed to the application.
* `arrivals`: the segments that bring something for it.
* `Passage.arrives_or`, `Passage.expects`: what a step hands over, and what it makes of the number
  expected of the peer's next segment.
* `Placed`: where what arrives in order has its place.
* `arrivals_offered`: **what arrives is handed over, once for each arrival and whatever its number**,
  and makes up the peer's bytes if it comes in order.
* `repetition_offered`: the second copy of a segment is handed over as well.
-/

namespace StopWait

/-- The bytes that a call hands to the application. -/
def Call.offer? : Call → Option (List UInt8)
  | .appSend bytes => some bytes
  | _ => none

namespace Session

/-- The payloads that a session has handed to its application, in order, with the one that it is
handing over. -/
def offered (past : Past) (t : Session) : List (List UInt8) := (calls past t).filterMap Call.offer?

/-- Whether a session takes a segment in that it receives. While nothing is awaited it drops what
has neither a FIN nor a payload, and while a kind is awaited it refuses what does not do as one. -/
def takesIn (u : Session) (s : Segment) : Bool :=
  match u.point? with
  | some .reading => s.header.control.fin || !s.payload.isEmpty
  | some (.receiving k) => k.accepts s.header.control
  | _ => false

/-- Whether a segment opens the connection of a session: the SYN or the SYN,ACK of its peer. -/
def greets (u : Session) (s : Segment) : Bool :=
  match u.point? with
  | some (.receiving .syn) | some (.receiving .synAck) => u.takesIn s
  | _ => false

/-- Whether a segment brings something for the application: a payload, while nothing is awaited or
with the FIN that answers ours. -/
def brings (u : Session) (s : Segment) : Bool :=
  match u.point? with
  | some .reading | some (.receiving .fin) => u.takesIn s && !s.payload.isEmpty
  | _ => false

/-- The received segments that are chosen, in order. -/
def selected (chosen : Session → Segment → Bool) : Past → List Segment
  | [] => []
  | (u, h) :: past => selected chosen past ++ (h.segment?.filter (chosen u)).toList

/-- The segments that brought something for the application, in order. -/
abbrev arrivals : Past → List Segment := selected brings

/-- The segments that opened the connection. -/
abbrev greetings : Past → List Segment := selected greets

/-- Whether a segment comes in order to a session that takes it in. It bears the number expected. A
SYN takes one number of its own, with nothing behind it; what is awaited later, up to the peer's FIN,
takes none; and no other segment has a SYN. -/
def inOrder (u : Session) (s : Segment) : Bool :=
  match u.point? with
  | some (.receiving .syn) | some (.receiving .synAck) => s.seqLen = 1
  | some (.receiving .ack) => s.header.seq = u.connection.expectedSeq && s.seqLen = 0
  | _ => s.header.seq = u.connection.expectedSeq && !s.header.control.syn

/-- All that was taken in came in order. -/
def Orderly (past : Past) : Prop :=
  ∀ q ∈ past, ∀ s ∈ q.2.segment?, q.1.takesIn s = true → q.1.inOrder s = true

instance (past : Past) : Decidable (Orderly past) :=
  inferInstanceAs (Decidable (∀ q ∈ past, ∀ s ∈ q.2.segment?, q.1.takesIn s = true →
    q.1.inOrder s = true))

/-- The numbers that the payloads of segments take. -/
def volume (segments : List Segment) : UInt32 :=
  UInt32.ofNat (segments.flatMap Segment.payload).length

variable {c₀ c d : Connection} {x x' : Stage} {h : Happening} {past : Past} {t u : Session}
  {s : Segment} {w : Wait} {bytes : List UInt8} {chosen : Session → Segment → Bool}

theorem takesIn_reading : (staged (c, .reading)).takesIn s =
    (s.header.control.fin || !s.payload.isEmpty) := rfl

theorem brings_reading : (staged (c, .reading)).brings s = !s.payload.isEmpty := by
  have heq : (staged (c, .reading)).brings s =
      ((s.header.control.fin || !s.payload.isEmpty) && !s.payload.isEmpty) := rfl
  rw [heq]
  cases s.header.control.fin <;> cases s.payload.isEmpty <;> rfl

theorem brings_peerFin : (staged (c, .receiving .peerFin)).brings s =
    (Kind.fin.accepts s.header.control && !s.payload.isEmpty) := rfl

theorem inOrder_plain (hx : x = .reading ∨ x = .receiving .peerFin) :
    (staged (c, x)).inOrder s = true ↔
      s.header.seq = c.expectedSeq ∧ s.header.control.syn = false := by
  have heq : (staged (c, x)).inOrder s =
      (decide (s.header.seq = c.expectedSeq) && !s.header.control.syn) := by
    obtain rfl | rfl := hx <;> rfl
  rw [heq]
  simp

theorem inOrder_ack (hw : w.kind = .ack) : (staged (c, .receiving w)).inOrder s = true ↔
    s.header.seq = c.expectedSeq ∧ s.seqLen = 0 := by
  have heq : (staged (c, .receiving w)).inOrder s =
      (decide (s.header.seq = c.expectedSeq) && decide (s.seqLen = 0)) := by
    cases w <;> first | rfl | cases hw
  rw [heq]
  simp

theorem inOrder_syn (hw : w = .syn ∨ w = .synAck) :
    (staged (c, .receiving w)).inOrder s = true ↔ s.seqLen = 1 := by
  have heq : (staged (c, .receiving w)).inOrder s = decide (s.seqLen = 1) := by
    obtain rfl | rfl := hw <;> rfl
  rw [heq]
  simp

/-- Only what is taken in opens a connection or brings something. -/
theorem not_greets (h : u.takesIn s = false) : u.greets s = false := by
  unfold greets
  split <;> first | exact h | rfl

theorem not_brings (h : u.takesIn s = false) : u.brings s = false := by
  unfold brings
  split <;> simp [h]

theorem selected_of_none (hs : h.segment? = none) :
    selected chosen ((u, h) :: past) = selected chosen past := by
  rw [selected, hs]
  exact List.append_nil _

theorem selected_of_some (hs : h.segment? = some s) :
    selected chosen ((u, h) :: past) =
      selected chosen past ++ if chosen u s then [s] else [] := by
  rw [selected, hs, Option.filter_some]
  cases chosen u s <;> rfl

theorem selected_of_not (hs : ∀ s, h.segment? = some s → chosen u s = false) :
    selected chosen ((u, h) :: past) = selected chosen past := by
  cases hseg : h.segment? with
  | none => exact selected_of_none hseg
  | some s => rw [selected_of_some hseg, hs s hseg]; exact List.append_nil _

/-- While no data is in flight, a segment is refused for its control bits only. -/
theorem not_accepts_of_error {k : Kind} {e : Connection.Error} (hfits : s.seqLenFits = true)
    (hd : c.done = false) (hb : c.Balanced) (hf : c.inFlight = none)
    (ha : c.accept k s = (d, .error e)) :
    k.accepts s.header.control = false := by
  cases hacc : k.accepts s.header.control with
  | false => rfl
  | true =>
    rw [Connection.accept_eq hd hacc hfits] at ha
    have hadvance : ((c.noteReceived s).advance k s).Balanced := hb.advance s
    have hnone : ((c.noteReceived s).advance k s).inFlight = none :=
      (Connection.advance_inFlight s).trans hf
    split at ha
    · obtain ⟨-, hok⟩ | ⟨n, hsome, -⟩ := hadvance.acknowledge_cases
      · rw [hok] at ha
        cases ha
      · rw [hnone] at hsome
        cases hsome
    · cases ha

/-- **What a failing step takes in** brings nothing and opens nothing. -/
theorem Passage.failed_brings (hx : x.Fits c₀ c) {e : Session.Error}
    (hp : Passage c₀ c x h d (.failed e)) (hs : h.segment? = some s) :
    (staged (c, x)).brings s = false ∧ (staged (c, x)).greets s = false := by
  cases hp with
  | opens | again => cases hs
  | answered hcall hcarry hpass =>
    obtain ⟨w, d', e', rfl, ha, hfits⟩ := refused_of_failed hx hcall hs hcarry
    have hlive := hx.live_of_call hcall
    by_cases hw : w = .data
    · -- the acknowledgment of data, whose record the transfer log may refuse
      subst hw
      exact ⟨rfl, rfl⟩
    · have hf : c.inFlight = none := by
        have hflight := hlive.flight
        cases w <;> first | exact absurd rfl hw | simpa [Stage.flies] using hflight
      have hno : (staged (c, .receiving w)).takesIn s = false :=
        not_accepts_of_error hfits hlive.undone hlive.balanced hf ha
      exact ⟨not_brings hno, not_greets hno⟩

/-- A datagram is read as one segment. -/
theorem segment_unique {s' : Segment} (hs : Segment.parse (bytes.take receiveCapacity) = .ok s)
    (hs' : (Happening.answered (.networkRecv receiveCapacity) (.bytes bytes)).segment? = some s') :
    s' = s := by
  rw [Happening.segment_of_parse hs] at hs'
  exact (Option.some.inj hs').symm

/-- **What a step hands over**: what the segment brings that it receives, and nothing else. -/
theorem Passage.arrives_or (hx : x.Fits c₀ c) (hp : Passage c₀ c x h d x') :
    (∃ s a, h.segment? = some s ∧ (staged (c, x)).brings s = true ∧ x' = .delivering a s.payload) ∨
    ((∀ s, h.segment? = some s → (staged (c, x)).brings s = false) ∧
      ∀ a bytes, x' ≠ .delivering a bytes) := by
  cases hp with
  | again => exact .inr ⟨nofun, nofun⟩
  | opens _ _ hopen =>
    obtain rfl | rfl := hopen <;> exact .inr ⟨nofun, nofun⟩
  | answered hcall hcarry hpass =>
    cases hpass with
    | fails why hstate hdone =>
      have hfails : Passage c₀ c x _ d (.failed _) :=
        .answered hcall hcarry (.fails why hstate hdone)
      exact .inr ⟨fun s hs => (hfails.failed_brings hx hs).1, nofun⟩
    | hears | fetches | closes | writes | awaits | hands | signals | opens =>
      exact .inr ⟨nofun, nofun⟩
    | @posts m => exact .inr ⟨nofun, by cases m <;> nofun⟩
    | @drops bytes s hs hf hp =>
      refine .inr ⟨fun s' hs' => ?_, nofun⟩
      obtain rfl := segment_unique hs hs'
      rw [brings_reading, hp]
      rfl
    | @takes bytes s _ hs hf hp =>
      refine .inl ⟨s, .data, Happening.segment_of_parse hs, ?_, rfl⟩
      simpa [brings_reading] using hp
    | @takesFin bytes s _ hs hf =>
      obtain ⟨hp, hb⟩ | ⟨hp, hb⟩ := arrival_begin .peerFin s.payload <;> rw [hb]
      · refine .inl ⟨s, .peerFin, Happening.segment_of_parse hs, ?_, rfl⟩
        simpa [brings_reading] using hp
      · refine .inr ⟨fun s' hs' => ?_, nofun⟩
        obtain rfl := segment_unique hs hs'
        rw [brings_reading, hp]
        rfl
    | @accepts w bytes s _ d' hs hk ha =>
      cases w with
      | peerFin =>
        have hfin : Kind.fin.accepts s.header.control = true := hk
        obtain ⟨hp, hb⟩ | ⟨hp, hb⟩ := arrival_begin .lastFin s.payload <;> rw [Wait.after, hb]
        · refine .inl ⟨s, .lastFin, Happening.segment_of_parse hs, ?_, rfl⟩
          simpa [brings_peerFin, hfin] using hp
        · refine .inr ⟨fun s' hs' => ?_, nofun⟩
          obtain rfl := segment_unique hs hs'
          rw [brings_peerFin, hp, hfin]
          rfl
      | _ => exact .inr ⟨fun _ _ => rfl, nofun⟩

/-- What a turn that ends well makes of the number expected of the peer's next segment. -/
theorem expectedSeq_carry {t : Turn} (hcarry : carry c t = (d, x')) (hx' : ∀ e, x' ≠ .failed e) :
    d.expectedSeq = (t.1.foldl Figures.count c.figures).expects := by
  rw [← figures_carry hcarry hx']
  rfl

/-- What arrives while nothing is awaited is recorded, whatever its number. -/
theorem expects_arrival (f : Figures) (hs : s.header.control.fin = true ∨ s.payload ≠ []) :
    ((arrival s).1.foldl Figures.count f).expects = s.header.seq + s.seqLen := by
  by_cases hf : s.header.control.fin = true
  · rw [arrival_of_fin hf]
    obtain ⟨-, hb⟩ | ⟨-, hb⟩ := arrival_begin .peerFin s.payload <;> rw [hb] <;> rfl
  · have hp : s.payload ≠ [] := hs.resolve_left hf
    rw [arrival_of_payload (by simpa using hf) hp, begin_of_ne_nil .data hp]
    rfl

/-- What is awaited is accepted, whatever its number. -/
theorem expects_take (f : Figures) (w : Wait) (s : Segment) :
    ((w.take s).1.foldl Figures.count f).expects = s.header.seq + s.seqLen := by
  rw [Wait.take, prepend, List.foldl_append]
  cases w with
  | peerFin =>
    obtain ⟨-, hb⟩ | ⟨-, hb⟩ := arrival_begin .lastFin s.payload <;> rw [Wait.after, hb] <;> rfl
  | _ => rfl

/-- **The number expected after a step**: the end of the segment that was taken in, whatever its
number, or the one expected before. -/
theorem Passage.expects (hx : x.Fits c₀ c) (hp : Passage c₀ c x h d x')
    (hx' : ∀ e, x' ≠ .failed e) :
    (∃ s, h.segment? = some s ∧ (staged (c, x)).takesIn s = true ∧
      d.expectedSeq = s.header.seq + s.seqLen) ∨
    ((∀ s, h.segment? = some s → (staged (c, x)).takesIn s = false) ∧
      d.expectedSeq = c.expectedSeq) := by
  cases hp with
  | again => exact absurd rfl (hx' _)
  | opens first hcarry _ =>
    subst first
    refine .inr ⟨nofun, (expectedSeq_carry hcarry hx').trans ?_⟩
    cases c.role <;> rfl
  | @answered call r _ _ hcall hcarry hpass =>
    have hseq := expectedSeq_carry hcarry hx'
    have hnone : (Happening.answered call r).segment? = none →
        ((x.turn r).1.foldl Figures.count c.figures).expects = c.expectedSeq →
        (∃ s, (Happening.answered call r).segment? = some s ∧ (staged (c, x)).takesIn s = true ∧
          d.expectedSeq = s.header.seq + s.seqLen) ∨
        ((∀ s, (Happening.answered call r).segment? = some s → (staged (c, x)).takesIn s = false) ∧
          d.expectedSeq = c.expectedSeq) := by
      intro hs hsame
      refine .inr ⟨fun s hs' => ?_, hseq.trans hsame⟩
      rw [hs] at hs'
      cases hs'
    cases hpass with
    | fails => exact absurd rfl (hx' _)
    | hears | fetches | closes | awaits | hands | signals | opens => exact hnone rfl rfl
    | @posts m bytes n _ hn _ =>
      have hturn : (Stage.sending m bytes).turn (.sent n) = m.after bytes := if_neg hn
      refine hnone rfl ?_
      rw [hturn]
      cases m <;> rfl
    | @writes n bytes _ hn hp _ =>
      refine hnone rfl ?_
      simp only [Stage.turn, fetchTurn, ← hn, List.isEmpty_iff, if_neg hp]
      rfl
    | @drops bytes s hs hf hp =>
      refine .inr ⟨fun s' hs' => ?_, rfl⟩
      obtain rfl := segment_unique hs hs'
      rw [takesIn_reading, hf, hp]
      rfl
    | @takes bytes s _ hs hf hp =>
      have hturn : Stage.reading.turn (.bytes bytes) = arrival s := readSegment_of_parse hs _
      refine .inl ⟨s, Happening.segment_of_parse hs, ?_, hseq.trans ?_⟩
      · simpa [takesIn_reading, hf] using hp
      · rw [hturn, expects_arrival _ (.inr hp)]
    | @takesFin bytes s _ hs hf =>
      have hturn : Stage.reading.turn (.bytes bytes) = arrival s := readSegment_of_parse hs _
      refine .inl ⟨s, Happening.segment_of_parse hs, ?_, hseq.trans ?_⟩
      · rw [takesIn_reading, hf]
        rfl
      · rw [hturn, expects_arrival _ (.inl hf)]
    | @accepts w bytes s _ d' hs hk ha =>
      have hturn : (Stage.receiving w).turn (.bytes bytes) = w.take s := readSegment_of_parse hs _
      refine .inl ⟨s, Happening.segment_of_parse hs, hk, hseq.trans ?_⟩
      rw [hturn, expects_take]

/-- Whether a session at a stage has the peer's SYN and may still hear from it. -/
def Stage.isOpen (x : Stage) : Bool :=
  match x.state with
  | .synReceived | .established | .finWait1 | .finWait2 => true
  | _ => false

/-- **Where what has arrived in order has its place**: behind the SYN, and behind what arrived
before. -/
structure Placed (past : Past) (c : Connection) (x : Stage) : Prop where
  unopened : c.state = .listen ∨ x.state = .synSent → greetings past = [] ∧ arrivals past = []
  along : x.isOpen = true → ∃ g, greetings past = [g] ∧
    c.expectedSeq = g.header.seq + 1 + volume (arrivals past)
  placed : ∀ xs s ys, arrivals past = xs ++ s :: ys → ∃ g, greetings past = [g] ∧
    s.header.seq = g.header.seq + 1 + volume xs

theorem volume_append (xs ys : List Segment) : volume (xs ++ ys) = volume xs + volume ys := by
  simp [volume, List.flatMap_append, UInt32.ofNat_add]

theorem volume_singleton (s : Segment) : volume [s] = UInt32.ofNat s.payload.length := by
  simp [volume]

/-- **A step goes on with an open connection, or opens it.** -/
theorem Passage.isOpen (hp : Passage c₀ c x h d x') (ho : x'.isOpen = true) :
    x.isOpen = true ∨ ∃ s, h.segment? = some s ∧ (staged (c, x)).greets s = true := by
  cases hp with
  | again => cases ho
  | opens _ _ hopen => obtain rfl | rfl := hopen <;> cases ho
  | answered hcall hcarry hpass =>
    cases hpass with
    | fails => cases ho
    | signals => cases ho
    | @posts m => cases m <;> first | exact .inl rfl | cases ho
    | awaits => exact .inl ho
    | @hands a => cases a <;> first | exact .inl rfl | cases ho
    | @accepts w bytes s _ d' hs hk ha =>
      have hseg := Happening.segment_of_parse hs
      cases w with
      | syn | synAck => exact .inr ⟨s, hseg, hk⟩
      | lastFin => cases ho
      | _ => exact .inl rfl
    | _ => exact .inl rfl

/-- A segment that was awaited leaves no connection unopened. -/
theorem opened_after (hx' : (w.after bytes).2.Fits c₀ d) :
    ¬(d.state = .listen ∨ (w.after bytes).2.state = .synSent) := by
  cases w with
  | peerFin =>
    have hstate := state_of_arrival (a := .lastFin) hx'
    rw [hstate, Wait.after]
    obtain ⟨-, hb⟩ | ⟨-, hb⟩ := arrival_begin .lastFin bytes <;> rw [hb] <;> rintro (h | h) <;> cases h
  | lastFin =>
    rintro (h | h)
    · cases hx'.2.symm.trans h
    · cases h
  | _ =>
    rintro (h | h)
    · cases hx'.1.state.symm.trans h
    · cases h

/-- **A step from an opened connection does not unopen it.** -/
theorem Passage.unopened (h₀ : c₀.Free .listen) (hx : x.Fits c₀ c) (hx' : x'.Fits c₀ d)
    (hp : Passage c₀ c x h d x') (hd : d.state = .listen ∨ x'.state = .synSent) :
    c.state = .listen ∨ x.state = .synSent := by
  obtain hd | hd := hd
  · have hf := hp.follows h₀ hx hx'
    rw [hd] at hf
    exact .inl hf.to_listen
  · cases hp with
    | again => cases hd
    | opens first => exact .inl (first ▸ h₀.state)
    | answered hcall hcarry hpass =>
      cases hpass with
      | fails => cases hd
      | @posts m => cases m <;> first | exact .inr rfl | cases hd
      | awaits => exact .inr hd
      | @hands a => cases a <;> cases hd
      | @takesFin _ s =>
        obtain ⟨-, hb⟩ | ⟨-, hb⟩ := arrival_begin .peerFin s.payload <;> rw [hb] at hd <;> cases hd
      | @accepts w _ s =>
        cases w with
        | peerFin =>
          rw [Wait.after] at hd
          obtain ⟨-, hb⟩ | ⟨-, hb⟩ := arrival_begin .lastFin s.payload <;> rw [hb] at hd <;>
            cases hd
        | _ => cases hd
      | _ => cases hd

/-- A step that brings nothing and opens nothing keeps every place. -/
theorem Placed.keep (hl : Placed past c x) (ha : arrivals ((u, h) :: past) = arrivals past)
    (hg : greetings ((u, h) :: past) = greetings past)
    (hun : d.state = .listen ∨ x'.state = .synSent → c.state = .listen ∨ x.state = .synSent)
    (halong : x'.isOpen = true → x.isOpen = true ∧ d.expectedSeq = c.expectedSeq) :
    Placed ((u, h) :: past) d x' := by
  constructor
  · intro hd
    rw [ha, hg]
    exact hl.unopened (hun hd)
  · intro ho
    obtain ⟨hopen, hsame⟩ := halong ho
    rw [ha, hg, hsame]
    exact hl.along hopen
  · rw [ha, hg]
    exact hl.placed

/-- What arrives in order takes the place behind what arrived before. -/
theorem Placed.bring (hl : Placed past c x) (hopen : x.isOpen = true) (hs : h.segment? = some s)
    (hseq : s.header.seq = c.expectedSeq) (hg : (staged (c, x)).greets s = false) :
    ∀ xs s' ys, arrivals ((staged (c, x), h) :: past) = xs ++ s' :: ys →
      ∃ g, greetings ((staged (c, x), h) :: past) = [g] ∧
        s'.header.seq = g.header.seq + 1 + volume xs := by
  obtain ⟨g, hgreet, hexp⟩ := hl.along hopen
  have hgreet' : greetings ((staged (c, x), h) :: past) = [g] := by
    rw [← hgreet]
    exact selected_of_not fun s' hs' => by cases hs.symm.trans hs'; exact hg
  intro xs s' ys hsplit
  rw [arrivals, selected_of_some hs] at hsplit
  by_cases hb : (staged (c, x)).brings s = true
  · rw [if_pos hb] at hsplit
    -- the last of the arrivals is this one, and the others had their place before
    obtain rfl | ⟨zs, y, rfl⟩ := ys.eq_nil_or_concat
    · obtain ⟨rfl, hlast⟩ := List.append_inj' hsplit rfl
      obtain rfl : s = s' := List.singleton_inj.1 hlast
      exact ⟨g, hgreet', hseq.trans hexp⟩
    · have hsplit' : arrivals past ++ [s] = (xs ++ s' :: zs) ++ [y] := by
        rw [List.append_assoc]
        simpa using hsplit
      obtain ⟨hbefore, -⟩ := List.append_inj' hsplit' rfl
      obtain ⟨g', hg', hplace⟩ := hl.placed xs s' zs hbefore
      cases hgreet.symm.trans hg'
      exact ⟨g, hgreet', hplace⟩
  · rw [if_neg hb, List.append_nil] at hsplit
    obtain ⟨g', hg', hplace⟩ := hl.placed xs s' ys hsplit
    cases hgreet.symm.trans hg'
    exact ⟨g, hgreet', hplace⟩

/-- A segment that is read while nothing is awaited. -/
theorem Placed.reads (hl : Placed past c .reading) (hs : h.segment? = some s)
    (hord : (staged (c, .reading)).inOrder s = true) (hd : d.expectedSeq = s.header.seq + s.seqLen)
    (hun : ¬(d.state = .listen ∨ x'.state = .synSent))
    (hfin : x'.isOpen = true → s.header.control.fin = false ∧ s.payload ≠ []) :
    Placed ((staged (c, .reading), h) :: past) d x' := by
  obtain ⟨hseq, hsyn⟩ := (inOrder_plain (.inl rfl)).1 hord
  have hplaced := hl.bring rfl hs hseq rfl
  refine ⟨fun h => absurd h hun, fun ho => ?_, hplaced⟩
  obtain ⟨hnofin, hp⟩ := hfin ho
  obtain ⟨g, hgreet, hexp⟩ := hl.along rfl
  have hb : (staged (c, .reading)).brings s = true := by
    simpa [brings_reading] using hp
  refine ⟨g, ?_, ?_⟩
  · rw [← hgreet]
    exact selected_of_not fun _ _ => rfl
  · -- the numbers that the segment takes are those of its payload
    have hlen : s.seqLen = UInt32.ofNat s.payload.length := by simp [Segment.seqLen, hsyn, hnofin]
    rw [hd, hseq, hexp, hlen, arrivals, selected_of_some hs, if_pos hb, volume_append,
      volume_singleton, UInt32.add_assoc]

/-- An acknowledgment takes no number, so that the next one stays where it was. -/
theorem Placed.acknowledged (hl : Placed past c (.receiving w)) (hs : h.segment? = some s)
    (hw : w.kind = .ack) (hord : (staged (c, .receiving w)).inOrder s = true)
    (hd : d.expectedSeq = s.header.seq + s.seqLen)
    (hun : ¬(d.state = .listen ∨ x'.state = .synSent))
    (hopen : x'.isOpen = true → (Stage.receiving w).isOpen = true) :
    Placed ((staged (c, .receiving w), h) :: past) d x' := by
  have hnone : (staged (c, .receiving w)).brings s = false ∧
      (staged (c, .receiving w)).greets s = false := by
    cases w <;> first | exact ⟨rfl, rfl⟩ | cases hw
  obtain ⟨hseq, hlen⟩ := (inOrder_ack hw).1 hord
  have hsame : d.expectedSeq = c.expectedSeq := by rw [hd, hseq, hlen, UInt32.add_zero]
  refine hl.keep (selected_of_not ?_) (selected_of_not ?_) (fun h => absurd h hun) fun ho =>
    ⟨hopen ho, hsame⟩
  · intro s' hs'
    cases hs.symm.trans hs'
    exact hnone.1
  · intro s' hs'
    cases hs.symm.trans hs'
    exact hnone.2

/-- The SYN is the first segment of all, and takes one number. -/
theorem Placed.greeted (hl : Placed past c (.receiving w)) (hlive : (Stage.receiving w).Live c)
    (hs : h.segment? = some s) (hw : w = .syn ∨ w = .synAck)
    (htaken : (staged (c, .receiving w)).takesIn s = true)
    (hord : (staged (c, .receiving w)).inOrder s = true)
    (hd : d.expectedSeq = s.header.seq + s.seqLen)
    (hun : ¬(d.state = .listen ∨ x'.state = .synSent)) :
    Placed ((staged (c, .receiving w), h) :: past) d x' := by
  have hbefore : greetings past = [] ∧ arrivals past = [] := by
    refine hl.unopened ?_
    rw [hlive.state]
    obtain rfl | rfl := hw
    · exact .inl rfl
    · exact .inr rfl
  have hgreets : (staged (c, .receiving w)).greets s = true := by
    obtain rfl | rfl := hw <;> exact htaken
  have hbrings : (staged (c, .receiving w)).brings s = false := by
    obtain rfl | rfl := hw <;> rfl
  have hgreetings : greetings ((staged (c, .receiving w), h) :: past) = [s] := by
    rw [greetings, selected_of_some hs, if_pos hgreets]
    exact congrArg (· ++ [s]) hbefore.1
  have harrivals : arrivals ((staged (c, .receiving w), h) :: past) = [] := by
    refine (selected_of_not fun s' hs' => ?_).trans hbefore.2
    cases hs.symm.trans hs'
    exact hbrings
  refine ⟨fun h => absurd h hun, fun _ => ⟨s, hgreetings, ?_⟩, fun xs s' ys hsplit => ?_⟩
  · rw [hd, (inOrder_syn hw).1 hord, harrivals]
    exact (UInt32.add_zero _).symm
  · rw [harrivals] at hsplit
    simp at hsplit

/-- A segment that is awaited. -/
theorem Placed.accepts (hl : Placed past c (.receiving w)) (hlive : (Stage.receiving w).Live c)
    (hs : h.segment? = some s)
    (htaken : (staged (c, .receiving w)).takesIn s = true)
    (hord : (staged (c, .receiving w)).inOrder s = true) (hd : d.expectedSeq = s.header.seq + s.seqLen)
    (hafter : x' = (w.after s.payload).2) (hun : ¬(d.state = .listen ∨ x'.state = .synSent)) :
    Placed ((staged (c, .receiving w), h) :: past) d x' := by
  cases w with
  | syn => exact hl.greeted hlive hs (.inl rfl) htaken hord hd hun
  | synAck => exact hl.greeted hlive hs (.inr rfl) htaken hord hd hun
  | peerFin =>
    -- nothing is heard of the peer behind its FIN
    have hclosed : x'.isOpen = false := by
      rw [hafter, Wait.after]
      obtain ⟨-, hb⟩ | ⟨-, hb⟩ := arrival_begin .lastFin s.payload <;> rw [hb] <;> rfl
    obtain ⟨hseq, -⟩ := (inOrder_plain (.inr rfl)).1 hord
    refine ⟨fun h => absurd h hun, fun ho => ?_, hl.bring rfl hs hseq rfl⟩
    rw [hclosed] at ho
    cases ho
  | lastFin =>
    refine hl.acknowledged hs rfl hord hd hun fun ho => ?_
    rw [hafter] at ho
    cases ho
  | _ => exact hl.acknowledged hs rfl hord hd hun fun _ => rfl

/-- A segment that is taken in, in order. -/
theorem Placed.take (h₀ : c₀.Free .listen) (hx : x.Fits c₀ c) (hx' : x'.Fits c₀ d)
    (hl : Placed past c x) (hp : Passage c₀ c x h d x') (hs : h.segment? = some s)
    (htaken : (staged (c, x)).takesIn s = true) (hord : (staged (c, x)).inOrder s = true)
    (hd : d.expectedSeq = s.header.seq + s.seqLen) (hfail : ∀ e, x' ≠ .failed e) :
    Placed ((staged (c, x), h) :: past) d x' := by
  have hun := hp.unopened h₀ hx hx'
  cases hp with
  | again => cases hs
  | opens => cases hs
  | @answered call r _ _ hcall hcarry hpass =>
    have hlive := hx.live_of_call hcall
    have hopened : x = .reading → ¬(d.state = .listen ∨ x'.state = .synSent) := by
      rintro rfl h
      obtain h | h := hun h
      · cases hlive.state.symm.trans h
      · cases h
    cases hpass with
    | @drops bytes s' hs' hf hp =>
      obtain rfl := segment_unique hs' hs
      rw [takesIn_reading, hf, hp] at htaken
      cases htaken
    | @takes bytes s' _ hs' hf hp =>
      obtain rfl := segment_unique hs' hs
      exact hl.reads hs hord hd (hopened rfl) fun _ => ⟨hf, hp⟩
    | @takesFin bytes s' _ hs' hf =>
      obtain rfl := segment_unique hs' hs
      refine hl.reads hs hord hd (hopened rfl) fun ho => ?_
      obtain ⟨-, hb⟩ | ⟨-, hb⟩ := arrival_begin .peerFin s.payload <;> rw [hb] at ho <;> cases ho
    | @accepts w bytes s' _ d' hs' hk ha =>
      obtain rfl := segment_unique hs' hs
      exact hl.accepts hlive hs htaken hord hd rfl (opened_after hx')
    | fails => exact absurd rfl (hfail _)
    | _ => cases hs

/-- **A step keeps every place**, if what it takes in comes in order. -/
theorem Placed.step (h₀ : c₀.Free .listen) (hx : x.Fits c₀ c) (hx' : x'.Fits c₀ d)
    (hl : Placed past c x) (hp : Passage c₀ c x h d x')
    (hord : ∀ s, h.segment? = some s → (staged (c, x)).takesIn s = true →
      (staged (c, x)).inOrder s = true) : Placed ((staged (c, x), h) :: past) d x' := by
  have hun := hp.unopened h₀ hx hx'
  by_cases hfail : ∃ e, x' = .failed e
  · obtain ⟨e, rfl⟩ := hfail
    exact hl.keep (selected_of_not fun s hs => (hp.failed_brings hx hs).1)
      (selected_of_not fun s hs => (hp.failed_brings hx hs).2) hun nofun
  · have hx'' : ∀ e, x' ≠ .failed e := fun e he => hfail ⟨e, he⟩
    obtain ⟨s, hs, htaken, hd⟩ | ⟨hnone, hd⟩ := hp.expects hx hx''
    · exact hl.take h₀ hx hx' hp hs htaken (hord s hs htaken) hd hx''
    · refine hl.keep (selected_of_not fun s hs => not_brings (hnone s hs))
        (selected_of_not fun s hs => not_greets (hnone s hs)) hun fun ho => ⟨?_, hd⟩
      obtain hopen | ⟨s, hs, hgreets⟩ := hp.isOpen ho
      · exact hopen
      · rw [not_greets (hnone s hs)] at hgreets
        cases hgreets

/-- **What has arrived so far, and what has become of it.** -/
structure Delivered (past : Past) (c : Connection) (x : Stage) : Prop where
  all : offered past (staged (c, x)) = (arrivals past).map Segment.payload
  established : ∀ q ∈ past, ∀ s, q.2.segment? = some s → s.payload ≠ [] →
    q.1.connection.state = .established → q.1.brings s = q.1.connection.inFlight.isNone
  last : ∀ u h earlier s, past = (u, h) :: earlier → h.segment? = some s → u.brings s = true →
    (staged (c, x)).call? = some (.appSend s.payload) ∧ c.expectedSeq = s.header.seq + s.seqLen
  placed : Orderly past → Placed past c x

theorem placed_nil (c : Connection) : Placed [] c .ready := by
  refine ⟨fun _ => ⟨rfl, rfl⟩, fun ho => ?_, fun xs s ys hsplit => ?_⟩
  · cases ho
  · simp [arrivals, selected] at hsplit

theorem delivered_nil (c : Connection) : Delivered [] c .ready := by
  refine ⟨rfl, fun q hq => ?_, fun u h earlier s heq => ?_, fun _ => placed_nil c⟩
  · cases hq
  · cases heq

/-- In ESTABLISHED a payload is for the application, unless our own data is in flight. -/
theorem brings_of_established (hx : x.Fits c₀ c) (hp : Passage c₀ c x h d x')
    (hs : h.segment? = some s) (hne : s.payload ≠ []) (hc : c.state = .established) :
    (staged (c, x)).brings s = c.inFlight.isNone := by
  cases hp with
  | again | opens => cases hs
  | answered hcall hcarry hpass =>
    have hlive := hx.live_of_call hcall
    obtain ⟨n, bytes, rfl, rfl, -⟩ := Happening.of_segment hs
    have hflight : c.inFlight.isNone = !x.flies := by
      rw [← hlive.flight]
      cases c.inFlight <;> rfl
    rw [hflight]
    cases x with
    | reading =>
      rw [brings_reading]
      simpa [Stage.flies] using hne
    | receiving w =>
      have hw : w.state = .established := hlive.state.symm.trans hc
      cases w <;> first | rfl | cases hw
    | _ => cases hcall

theorem offered_cons (past : Past) : offered ((u, h) :: past) (staged (d, x')) =
    offered past u ++ ((staged (d, x')).call?.bind Call.offer?).toList := by
  rw [offered, calls, List.filterMap_append]
  cases (staged (d, x')).call? with
  | none => rfl
  | some call => cases call <;> rfl

theorem offer_eq_none (h : ∀ a bytes, x' ≠ .delivering a bytes) :
    (staged (d, x')).call?.bind Call.offer? = none := by
  cases x' with
  | delivering a bytes => exact absurd rfl (h a bytes)
  | _ => rfl

/-- **What a step makes of what has arrived.** -/
theorem Delivered.step (h₀ : c₀.Free .listen) (hx : x.Fits c₀ c) (hx' : x'.Fits c₀ d)
    (hl : Delivered past c x) (hp : Passage c₀ c x h d x') :
    Delivered ((staged (c, x), h) :: past) d x' := by
  constructor
  · rw [offered_cons, hl.all]
    obtain ⟨s, a, hs, hb, rfl⟩ | ⟨hnone, hx''⟩ := hp.arrives_or hx
    · rw [arrivals, selected_of_some hs, if_pos hb, List.map_append]
      rfl
    · rw [arrivals, selected_of_not hnone, offer_eq_none hx'']
      exact List.append_nil _
  · intro q hq s hs hne hc
    obtain rfl | hq := List.mem_cons.1 hq
    · exact brings_of_established hx hp hs hne hc
    · exact hl.established q hq s hs hne hc
  · rintro u h earlier s heq hs hb
    cases heq
    obtain ⟨s', a, hs', -, rfl⟩ | ⟨hnone, -⟩ := hp.arrives_or hx
    · cases hs.symm.trans hs'
      obtain ⟨s', hs'', -, hd⟩ | ⟨hnone, -⟩ := hp.expects hx nofun
      · cases hs.symm.trans hs''
        exact ⟨rfl, hd⟩
      · rw [not_brings (hnone s hs)] at hb
        cases hb
    · rw [hnone s hs] at hb
      cases hb
  · intro hord
    have hbefore : Orderly past := fun q hq => hord q (List.mem_cons_of_mem _ hq)
    exact (hl.placed hbefore).step h₀ hx hx' hp (hord _ List.mem_cons_self)

/-- **What arrives is handed over as it arrives.** The payloads handed to the application are those
of the segments that arrive for it, one for each arrival and in the order of arrival, whatever their
sequence numbers. In ESTABLISHED, every payload is for the application unless our own data is in
flight. It is handed over at once, and the number expected next is the one behind it. As long as all
that is taken in comes in order, the payloads handed over are the bytes that the peer has numbered
from behind its SYN on, without gap or repetition. -/
theorem arrivals_offered (settings : Settings) (role : Role) (sink : Option Log.Sink)
    (h : Trail (opened settings role sink) past t) :
    offered past t = (arrivals past).map Segment.payload ∧
    (∀ q ∈ past, ∀ s, q.2.segment? = some s → s.payload ≠ [] →
      q.1.connection.state = .established → q.1.brings s = q.1.connection.inFlight.isNone) ∧
    (∀ u e earlier s, past = (u, e) :: earlier → e.segment? = some s → u.brings s = true →
      t.call? = some (.appSend s.payload) ∧ t.connection.expectedSeq = s.header.seq + s.seqLen) ∧
    (Orderly past → ∀ xs s ys, arrivals past = xs ++ s :: ys → ∃ g, greetings past = [g] ∧
      s.header.seq = g.header.seq + 1 + volume xs) := by
  have h₀ := Connection.opened_free settings role sink
  rw [opened_eq] at h
  obtain ⟨c, x, rfl, -, hl⟩ := h.induct (P := Delivered) h₀ rfl (delivered_nil _)
    fun hl hx hx' hp => hl.step h₀ hx hx' hp
  exact ⟨hl.all, hl.established, hl.last, fun hord => (hl.placed hord).placed⟩

/-- The datagram of a segment of a kind with a sequence number and no other. -/
def numbered (kind : Kind) (seq : UInt8) (payload : List UInt8) : List UInt8 :=
  [0, 0, 0, 0, 0, 0, 0, seq, 0, 0, 0, 0, 80, kind.control.toByte, 0, 0, 0, 0, 0, 0] ++ payload

/-- A stack with which an active session opens and gets these datagrams, up to the last one. -/
def bringing : List (List UInt8) → List Response
  | [] => [.sent 20, .event .networkData, .bytes (numbered .synAck 0 []), .sent 20, .told]
  | datagram :: earlier =>
    bringing earlier ++ (if earlier.isEmpty then [] else [.told, .sent 20]) ++
      [.event .networkData, .bytes datagram]

/-- Two segments that come in order. -/
theorem arrivals_offered_pair : ∃ past t, Trail (opened {} .active none) past t ∧ Orderly past ∧
    offered past t = [[104, 105], [33]] ∧ ∃ a s g, arrivals past = [a, s] ∧
      greetings past = [g] ∧ s.header.seq = g.header.seq + 1 + volume [a] := by
  obtain ⟨past, y, hhears, hord, hpayloads⟩ : ∃ past y,
      rehearse {} .active none
        (bringing [numbered .data 3 [33], numbered .data 1 [104, 105]]) = some (past, y) ∧
      Orderly past ∧ (arrivals past).map Segment.payload = [[104, 105], [33]] :=
    ⟨_, _, rfl, by decide +kernel, by decide +kernel⟩
  have hreaches := reaches_rehearse hhears
  obtain ⟨hall, -, -, hplaced⟩ := arrivals_offered {} .active none hreaches.trail
  obtain ⟨a, rest, ha, -, hrest⟩ := List.map_eq_cons_iff.1 hpayloads
  obtain ⟨s, rest, rfl, -, hnil⟩ := List.map_eq_cons_iff.1 hrest
  obtain rfl : rest = [] := by simpa using hnil
  obtain ⟨g, hg, hseq⟩ := hplaced hord [a] s [] ha
  exact ⟨past, _, hreaches.trail, hord, hall.trans hpayloads, a, s, g, ha, hg, hseq⟩

/-- **The second copy of a segment is handed over as well**: it is not so that a payload is handed
over in ESTABLISHED only if it bears the number expected. -/
theorem repetition_offered : ¬ ∀ settings role sink past t,
    Trail (opened settings role sink) past t → ∀ u h earlier s, past = (u, h) :: earlier →
      u.connection.state = .established → h.segment? = some s →
        t.call? = some (.appSend s.payload) → s.header.seq = u.connection.expectedSeq := by
  intro hall
  have hhears : rehearse {} .active none
    (bringing [numbered .data 1 [104, 105], numbered .data 1 [104, 105]]) = some (_, _) := rfl
  have hreaches := reaches_rehearse hhears
  have hseq := hall {} .active none _ _ hreaches.trail _ _ _ _ rfl rfl rfl rfl
  revert hseq
  decide

end Session

end StopWait
