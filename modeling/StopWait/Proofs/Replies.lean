import StopWait.Proofs.Arrivals
import StopWait.Proofs.Notices

/-!
# What a session acknowledges

A session sends an acknowledgment for three reasons: it has accepted the SYN,ACK, it has read a
segment with a FIN or a payload while nothing was awaited, or it has accepted the FIN that answers
its own. It sends one for each, at once or after it has handed the payload over, and none for
anything else. So an acknowledgment is never acknowledged.

* `obligations`: the segments that a session has to acknowledge.
* `acks`: the acknowledgments that it hands to the network.
* `Pending`: what stands between a segment and its acknowledgment.
* `Passage.settles`: what a step makes of the two.
* `ack_discipline`: **each obligation has its acknowledgment, in order**, and there is no other.
-/

namespace StopWait

/-- The sequence number behind a segment, which an acknowledgment of it bears. -/
def Segment.behind (s : Segment) : Nat :=
  (s.header.seq.toNat + s.payload.length + s.header.control.syn.toNat +
    s.header.control.fin.toNat) % Word.limit32

/-- The acknowledgment that a call hands to the network, if it is one. -/
def Call.ack? : Call → Option Segment
  | .networkSend d => (Segment.parse d).toOption.filter (·.kind = .ack)
  | _ => none

namespace Session

/-- Whether a segment is to be acknowledged by the session that receives it: the SYN,ACK accepted in
SYN-SENT, the FIN accepted in FIN-WAIT-2, and whatever has a FIN or a payload and was received after
a wait for anything. -/
def obliges (past : Past) (u : Session) (s : Segment) : Bool :=
  (u.connection.state = .synSent && (u.connection.accept .synAck s).2.isOk) || acceptsFin u s ||
    (announced past && (s.header.control.fin || !s.payload.isEmpty))

/-- The received segments that are to be acknowledged, in order of arrival. -/
def obligations : Past → List Segment
  | [] => []
  | (u, h) :: past => obligations past ++ (h.segment?.filter (obliges past u)).toList

/-- The acknowledgments that a session has handed to the network, in order, with the one that it is
sending. -/
def acks (past : Past) (t : Session) : List Segment := (calls past t).filterMap Call.ack?

/-- The acknowledgment that a stage sends. -/
def Stage.acks (c : Connection) : Stage → List Segment
  | .sending m bytes => if m.kind = .ack then [c.reissue m.kind (m.payload bytes)] else []
  | _ => []

/-- An acknowledgment bears the next number, and the one expected of the peer. -/
def Stage.Numbered (c : Connection) : Stage → Prop
  | .sending m _ => m.kind = .ack → c.sent.seq = c.nextSeq ∧ c.sent.ack = c.expectedSeq
  | _ => True

/-- Whether a segment may still be without its acknowledgment at a stage. -/
def Stage.mayOwe : Stage → Bool
  | .delivering _ _ | .failed _ => true
  | _ => false

/-- **What is still to be acknowledged at a stage**: nothing, or the segment whose payload is being
handed over, or was when the last run failed. -/
inductive Pending (past : Past) (c : Connection) : Stage → List Segment → Prop where
  | none {x : Stage} (h : ∀ a bytes, x ≠ .delivering a bytes) : Pending past c x []
  | handing {a : Arrival} {s : Segment} (hp : s.payload ≠ [])
    (hnext : c.expectedSeq = s.header.seq + s.seqLen) :
    Pending past c (.delivering a s.payload) [s]
  | broken {e : Session.Error} {s : Segment} (hp : s.payload ≠ []) (hc : c.state ≠ .listen)
    (hlast : (calls past (staged (c, .failed e))).getLast? = some (.appSend s.payload)) :
    Pending past c (.failed e) [s]

/-- **Every obligation is met in order, but for what is pending.** -/
def Settled (past : Past) (c : Connection) (x : Stage) : Prop :=
  ∃ done pending, obligations past = done ++ pending ∧
    (acks past (staged (c, x))).map (·.header.ack) = done.map (fun s => s.header.seq + s.seqLen) ∧
    Pending past c x pending

variable {c₀ c d d' : Connection} {x x' : Stage} {h : Happening} {past : Past} {t u : Session}
  {s a : Segment} {w : Wait} {bytes : List UInt8} {m : Message}

/-! ## Obligations -/

theorem toNat_behind (s : Segment) : (s.header.seq + s.seqLen).toNat = s.behind := by
  have hbit : ∀ b : Bool, (if b = true then (1 : UInt32) else 0).toNat = b.toNat := by decide
  simp only [Segment.seqLen, Segment.behind, UInt32.toNat_add, UInt32.toNat_ofNat', hbit,
    Word.limit32]
  omega

theorem obligations_of_some (hs : h.segment? = some s) :
    obligations ((u, h) :: past) = obligations past ++ if obliges past u s then [s] else [] := by
  rw [obligations, hs, Option.filter_some]
  cases obliges past u s <;> rfl

theorem obligations_of_none (hs : h.segment? = none) :
    obligations ((u, h) :: past) = obligations past := by
  rw [obligations, hs]
  exact List.append_nil _

theorem obligations_of_not (hs : ∀ s, h.segment? = some s → obliges past u s = false) :
    obligations ((u, h) :: past) = obligations past := by
  cases hseg : h.segment? with
  | none => exact obligations_of_none hseg
  | some s => rw [obligations_of_some hseg, hs s hseg]; exact List.append_nil _

/-- What is read while nothing is awaited is to be acknowledged for its FIN or its payload. -/
theorem obliges_reading (ha : announced past = true) (hc : c.state = .established) :
    obliges past (staged (c, x)) s = (s.header.control.fin || !s.payload.isEmpty) := by
  simp [obliges, acceptsFin, staged, ha, hc]

/-- What is awaited is to be acknowledged where it is accepted as the SYN,ACK or as the last FIN. -/
theorem obliges_receiving (ha : announced past = false) (hc : c.state = w.state) :
    obliges past (staged (c, .receiving w)) s =
      ((w = .synAck || w = .peerFin) && (c.accept w.kind s).2.isOk) := by
  cases w <;> simp [obliges, acceptsFin, staged, ha, hc, Wait.state, Wait.kind]

/-- No session has to acknowledge an acknowledgment. -/
theorem obliges_ack (hk : a.header.control = Kind.ack.control) (hp : a.payload = []) :
    obliges past u a = false := by
  have hrefused : ∀ kind, kind = .synAck ∨ kind = .fin →
      (u.connection.accept kind a).2.isOk = false := by
    intro kind hkind
    have hbits : kind.accepts a.header.control = false := by
      rw [hk]
      obtain rfl | rfl := hkind <;> rfl
    unfold Connection.accept
    split
    · rfl
    · rw [hbits]; rfl
  have hfin : a.header.control.fin = false := by rw [hk]; rfl
  simp [obliges, acceptsFin, hrefused .synAck (.inl rfl), hrefused .fin (.inr rfl), hfin, hp]

/-! ## Acknowledgments -/

theorem acks_cons : acks ((u, h) :: past) (staged (d, x')) = acks past u ++ x'.acks d := by
  have hnew : (staged (d, x')).call?.toList.filterMap Call.ack? = x'.acks d := by
    cases x' with
    | sending m bytes =>
      have hparse : Segment.parse (d.reissue m.kind (m.payload bytes)).serialize = .ok _ :=
        Segment.parse_serialize rfl
      have hkind : (d.reissue m.kind (m.payload bytes)).kind = m.kind :=
        Kind.ofControl_control m.kind
      have hack : Call.ack? (.networkSend (d.reissue m.kind (m.payload bytes)).serialize) =
          if m.kind = .ack then some (d.reissue m.kind (m.payload bytes)) else none := by
        rw [Call.ack?, hparse, Except.toOption, Option.filter_some, hkind]
        by_cases hm : m.kind = .ack <;> simp [hm]
      show List.filterMap Call.ack? [.networkSend _] = _
      rw [List.filterMap_cons, hack, Stage.acks]
      by_cases hm : m.kind = .ack
      · rw [if_pos hm, if_pos hm]
        rfl
      · rw [if_neg hm, if_neg hm]
        rfl
    | _ => rfl
  rw [acks, calls, List.filterMap_append, hnew]
  rfl

/-- What is built to acknowledge bears these numbers. -/
theorem numbered_begin (ops : List Connection.Op)
    (hcarry : carry c (prepend ops (m.begin bytes)) = (d, .sending m bytes)) :
    (Stage.sending m bytes).Numbered d := by
  intro hk
  have hd : d.figures = (ops ++ [Connection.Op.segment m.kind (m.payload bytes)]).foldl
      Figures.count c.figures := figures_carry hcarry nofun
  rw [List.foldl_append, hk] at hd
  exact ⟨congrArg Figures.sentSeq hd |>.trans (congrArg Figures.next hd).symm,
    congrArg Figures.sentAck hd |>.trans (congrArg Figures.expects hd).symm⟩

theorem Passage.numbered (hp : Passage c₀ c x h d x') : x'.Numbered d := by
  have harrival : ∀ (a : Arrival) (ops : List Connection.Op) (s : Segment) {d : Connection},
      carry c (prepend ops (a.begin s.payload)) = (d, (a.begin s.payload).2) →
      (a.begin s.payload).2.Numbered d := by
    intro a ops s d hcarry
    obtain ⟨-, hb⟩ | ⟨-, hb⟩ := arrival_begin a s.payload <;> rw [hb] at hcarry ⊢
    · trivial
    · exact numbered_begin _ hcarry
  have hother : ∀ {m : Message} {bytes : List UInt8}, m.kind ≠ .ack →
      (Stage.sending m bytes).Numbered d := fun hm hk => absurd hk hm
  cases hp with
  | again => trivial
  | opens _ _ hopen =>
    obtain rfl | rfl := hopen
    · exact hother (by decide)
    · trivial
  | answered hcall hcarry hpass =>
    cases hpass with
    | closes | writes | signals => exact hother (by decide)
    | @takesFin bytes s _ hs hf =>
      have hturn : Stage.reading.turn (.bytes bytes) =
          prepend [.record s, .apply (.arrived .fin)] (Arrival.peerFin.begin s.payload) :=
        (readSegment_of_parse hs _).trans (arrival_of_fin hf)
      rw [hturn] at hcarry
      exact harrival .peerFin _ s hcarry
    | @accepts w bytes s _ d' hs hk ha =>
      have hturn : (Stage.receiving w).turn (.bytes bytes) = w.take s := readSegment_of_parse hs _
      rw [hturn] at hcarry
      cases w with
      | synAck => exact numbered_begin _ hcarry
      | peerFin => exact harrival .lastFin _ s hcarry
      | syn => exact hother (by decide)
      | _ => trivial
    | @posts m => cases m <;> trivial
    | @hands a bytes _ => exact numbered_begin [] hcarry
    | _ => trivial

/-- A stage that receives does so after a wait for anything, or after one for the network only. -/
theorem Passage.heralded (hp : Passage c₀ c x h d x') :
    x'.Heralded ((staged (c, x), h) :: past) := by
  have harrival : ∀ (a : Arrival) (s : Segment),
      (a.begin s.payload).2.Heralded ((staged (c, x), h) :: past) :=
    fun a s => (notice_begin _ a s).2.2
  cases hp with
  | again => trivial
  | opens _ _ hopen => obtain rfl | rfl := hopen <;> trivial
  | answered hcall hcarry hpass =>
    cases hpass with
    | hears | awaits => rfl
    | takesFin => exact harrival .peerFin _
    | @accepts w =>
      cases w with
      | peerFin => exact harrival .lastFin _
      | _ => trivial
    | @posts m => cases m <;> trivial
    | _ => trivial

/-! ## From an obligation to its acknowledgment -/

theorem Pending.eq_nil {pending : List Segment} (hp : Pending past c x pending)
    (hx : x.mayOwe = false) : pending = [] := by
  cases hp with
  | none => rfl
  | handing | broken => cases hx

/-- **A step that has to do with no acknowledgment.** -/
theorem Settled.quiet (hs : Settled past c x)
    (hob : obligations ((staged (c, x), h) :: past) = obligations past) (hacks : x'.acks d = [])
    (hpend : ∀ pending, Pending past c x pending →
      Pending ((staged (c, x), h) :: past) d x' pending) :
    Settled ((staged (c, x), h) :: past) d x' := by
  obtain ⟨done, pending, hall, hmet, hp⟩ := hs
  refine ⟨done, pending, hob.trans hall, ?_, hpend pending hp⟩
  rw [acks_cons, hacks, List.append_nil]
  exact hmet

/-- The same where nothing can be pending, before the step or after it. -/
theorem Settled.still (hs : Settled past c x) (hx : x.mayOwe = false)
    (hob : obligations ((staged (c, x), h) :: past) = obligations past)
    (hacks : x'.acks d = []) (hx' : x'.mayOwe = false) :
    Settled ((staged (c, x), h) :: past) d x' := by
  refine hs.quiet hob hacks fun pending hp => ?_
  rw [hp.eq_nil hx]
  refine .none fun a bytes hd => ?_
  rw [hd] at hx'
  cases hx'

/-- What arrives is handed over or acknowledged. -/
theorem begin_cases (a : Arrival) (bytes : List UInt8) :
    (bytes ≠ [] ∧ ∃ b, (a.begin bytes).2 = .delivering b bytes) ∨
      ∃ m rest, m.kind = .ack ∧ (a.begin bytes).2 = .sending m rest := by
  obtain ⟨hp, hb⟩ | ⟨hp, hb⟩ := arrival_begin a bytes <;> rw [hb]
  · exact .inl ⟨hp, a, rfl⟩
  · exact .inr ⟨a.message, [], by cases a <;> rfl, rfl⟩

/-- What a step takes in moves the number expected behind it. -/
theorem Passage.expects_behind (hx : x.Fits c₀ c) (hp : Passage c₀ c x h d x')
    (hx' : ∀ e, x' ≠ .failed e) (hs : h.segment? = some s)
    (ht : (staged (c, x)).takesIn s = true) : d.expectedSeq = s.header.seq + s.seqLen := by
  obtain ⟨s', hs', -, hd⟩ | ⟨hno, -⟩ := hp.expects hx hx'
  · cases hs.symm.trans hs'
    exact hd
  · rw [hno s hs] at ht
    cases ht

/-- **A segment that is to be acknowledged**: its payload is handed over first, or it is acknowledged
at once. -/
theorem Settled.owes (hs : Settled past c x) (hx : x.mayOwe = false) (hseg : h.segment? = some s)
    (hob : obliges past (staged (c, x)) s = true) (hnext : d.expectedSeq = s.header.seq + s.seqLen)
    (hnum : x'.Numbered d)
    (hx' : (s.payload ≠ [] ∧ ∃ a, x' = .delivering a s.payload) ∨
      ∃ m bytes, m.kind = .ack ∧ x' = .sending m bytes) :
    Settled ((staged (c, x), h) :: past) d x' := by
  obtain ⟨done, pending, hall, hmet, hp⟩ := hs
  obtain rfl := hp.eq_nil hx
  rw [List.append_nil] at hall
  have hobs : obligations ((staged (c, x), h) :: past) = done ++ [s] := by
    rw [obligations_of_some hseg, if_pos hob, hall]
  obtain ⟨hne, a, rfl⟩ | ⟨m, bytes, hm, rfl⟩ := hx'
  · refine ⟨done, [s], hobs, ?_, .handing hne hnext⟩
    rw [acks_cons]
    exact (congrArg _ (List.append_nil _)).trans hmet
  · refine ⟨done ++ [s], [], by rw [hobs, List.append_nil], ?_, .none nofun⟩
    have hack : d.sent.ack = s.header.seq + s.seqLen := (hnum hm).2.trans hnext
    rw [acks_cons, Stage.acks, if_pos hm, List.map_append, List.map_append, hmet]
    exact congrArg (_ ++ [·]) hack

/-- **A payload that was handed over** is acknowledged at once. -/
theorem Settled.pays {a : Arrival} (hs : Settled past c (.delivering a bytes))
    (hseg : h.segment? = none) (hnext : d.expectedSeq = c.expectedSeq)
    (hnum : (Stage.sending a.message bytes).Numbered d) :
    Settled ((staged (c, .delivering a bytes), h) :: past) d (.sending a.message bytes) := by
  obtain ⟨done, pending, hall, hmet, hp⟩ := hs
  have hm : a.message.kind = .ack := by cases a <;> rfl
  cases hp with
  | none hno => exact absurd rfl (hno _ _)
  | @handing _ s _ hbehind =>
    refine ⟨done ++ [s], [], by rw [obligations_of_none hseg, hall, List.append_nil], ?_, .none nofun⟩
    have hack : d.sent.ack = s.header.seq + s.seqLen := ((hnum hm).2.trans hnext).trans hbehind
    rw [acks_cons, Stage.acks, if_pos hm, List.map_append, List.map_append, hmet]
    exact congrArg (_ ++ [·]) hack

/-- What is pending when a run fails, or when a run cannot begin, stays pending. -/
theorem Pending.fails {e : Session.Error} {pending : List Segment} (hx : x.Fits c₀ c)
    (hp : Pending past c x pending) (hstate : d.state = c.state) :
    Pending ((staged (c, x), h) :: past) d (.failed e) pending := by
  have hcalls : calls ((staged (c, x), h) :: past) (staged (d, .failed e)) =
      calls past (staged (c, x)) := List.append_nil _
  cases hp with
  | none => exact .none nofun
  | @handing a s hne =>
    have hlisten : c.state ≠ .listen := by
      rw [hx.1.state]
      cases a <;> nofun
    exact .broken hne (hstate ▸ hlisten) (hcalls ▸ getLast?_calls rfl)
  | broken hne hlisten hlast => exact .broken hne (hstate ▸ hlisten) (hcalls ▸ hlast)

/-- Of the awaited segments, the SYN,ACK and the FIN that answers a FIN are to be acknowledged. -/
theorem Settled.accepts (hs : Settled past c (.receiving w))
    (hher : (Stage.receiving w).Heralded past) (hstate : c.state = w.state)
    (hseg : h.segment? = some s) (ha : c.accept w.kind s = (d', .ok ()))
    (hnext : d.expectedSeq = s.header.seq + s.seqLen) (hnum : (w.after s.payload).2.Numbered d) :
    Settled ((staged (c, .receiving w), h) :: past) d (w.after s.payload).2 := by
  have hobliges := obliges_receiving (s := s) hher hstate
  rw [ha] at hobliges
  have hother : (w = .synAck || w = .peerFin) = false → ∀ s', h.segment? = some s' →
      obliges past (staged (c, .receiving w)) s' = false := by
    intro hw s' hseg'
    cases hseg.symm.trans hseg'
    rw [hobliges, hw]
    rfl
  cases w with
  | synAck => exact hs.owes rfl hseg hobliges hnext hnum (.inr ⟨.openAck, _, rfl, rfl⟩)
  | peerFin => exact hs.owes rfl hseg hobliges hnext hnum (begin_cases .lastFin s.payload)
  | _ => exact hs.still rfl (obligations_of_not (hother rfl)) rfl rfl

/-- Nothing is pending in LISTEN. -/
theorem Pending.of_listen {pending : List Segment} (hp : Pending past c x pending)
    (hx : x.Fits c₀ c) (hlisten : c.state = .listen) : pending = [] := by
  cases hp with
  | none => rfl
  | @handing a =>
    rw [hx.1.state] at hlisten
    cases a <;> cases hlisten
  | broken _ hc => exact absurd hlisten hc

/-- **What a step makes of the obligations and the acknowledgments.** -/
theorem Passage.settles (h₀ : c₀.Free .listen) (hx : x.Fits c₀ c) (hher : x.Heralded past)
    (hs : Settled past c x) (hp : Passage c₀ c x h d x') :
    Settled ((staged (c, x), h) :: past) d x' := by
  have hnum := hp.numbered
  have hbehind := fun s => hp.expects_behind hx (s := s)
  have hstays := hp.expects hx
  cases hp with
  | again => exact hs.quiet (obligations_of_none rfl) rfl fun _ hp => hp.fails hx rfl
  | opens first _ hopen =>
    have hlisten : c.state = .listen := first ▸ h₀.state
    refine hs.quiet (obligations_of_none rfl) ?_ fun pending hp => ?_
    · obtain rfl | rfl := hopen <;> rfl
    · rw [hp.of_listen hx hlisten]
      obtain rfl | rfl := hopen <;> exact .none nofun
  | @answered call r _ _ hcall hcarry hpass =>
    have hstate := (hx.live_of_call hcall).state
    cases hpass with
    | fails why hsame =>
      refine hs.quiet (obligations_of_not fun s hseg => ?_) rfl fun _ hp => hp.fails hx hsame
      obtain ⟨w, d', e', rfl, ha, -⟩ := refused_of_failed hx hcall hseg hcarry
      rw [obliges_receiving hher hstate, ha]
      exact Bool.and_false _
    | hears | fetches | closes | writes | awaits | signals | opens =>
      exact hs.still rfl (obligations_of_none rfl) rfl rfl
    | @posts m =>
      cases m <;> exact hs.still rfl (obligations_of_none rfl) rfl rfl
    | hands =>
      obtain ⟨s, hseg, -⟩ | ⟨-, hnext⟩ := hstays nofun
      · cases hseg
      · exact hs.pays rfl hnext hnum
    | @drops bytes s hparse hf hp =>
      refine hs.still rfl (obligations_of_not fun s' hseg => ?_) rfl rfl
      obtain rfl := segment_unique hparse hseg
      rw [obliges_reading hher hstate, hf, hp]
      rfl
    | @takes bytes s _ hparse hf hp =>
      have hseg := Happening.segment_of_parse hparse
      have htakes : (s.header.control.fin || !s.payload.isEmpty) = true := by simpa [hf] using hp
      exact hs.owes rfl hseg ((obliges_reading hher hstate).trans htakes)
        (hbehind s nofun hseg htakes) hnum (.inl ⟨hp, _, rfl⟩)
    | @takesFin bytes s _ hparse hf =>
      have hseg := Happening.segment_of_parse hparse
      have htakes : (s.header.control.fin || !s.payload.isEmpty) = true := by rw [hf]; rfl
      exact hs.owes rfl hseg ((obliges_reading hher hstate).trans htakes)
        (hbehind s (arrival_ne_failed .peerFin) hseg htakes) hnum (begin_cases .peerFin s.payload)
    | @accepts w bytes s _ d' hparse hk ha =>
      have hseg := Happening.segment_of_parse hparse
      have hnext := hbehind s (after_ne_failed w) hseg hk
      exact hs.accepts hher hstate hseg ha hnext hnum

/-- A segment with neither FIN nor payload is dropped where nothing is awaited, and leaves no trace. -/
theorem Passage.drops (hx : x.Fits c₀ c) (hher : x.Heralded past) (ha : announced past = true)
    (hs : h.segment? = some s) (hf : s.header.control.fin = false) (hp : s.payload = [])
    (hpass : Passage c₀ c x h d x') :
    x' = .idle ∧ d = c ∧ obliges past (staged (c, x)) s = false := by
  cases hpass with
  | again | opens => cases hs
  | answered hcall hcarry hpass =>
    have hstate := (hx.live_of_call hcall).state
    cases hpass with
    | fails =>
      obtain ⟨w, d', e', rfl, -⟩ := refused_of_failed hx hcall hs hcarry
      have hno : announced past = false := hher
      rw [ha] at hno
      cases hno
    | accepts =>
      have hno : announced past = false := hher
      rw [ha] at hno
      cases hno
    | drops hparse =>
      obtain rfl := segment_unique hparse hs
      refine ⟨rfl, rfl, ?_⟩
      rw [obliges_reading ha hstate, hf, hp]
      rfl
    | takes hparse _ hne =>
      obtain rfl := segment_unique hparse hs
      exact absurd hp hne
    | takesFin hparse hfin =>
      obtain rfl := segment_unique hparse hs
      rw [hf] at hfin
      cases hfin
    | _ => cases hs

/-- **The acknowledgments of a session.** A session is run as often as one likes, and its stack
answers as it likes. It hands one acknowledgment to the network for each segment that it has to
acknowledge, in order of arrival, with the sequence number behind that segment. Only the last of
them may be without, while its payload is being handed over or when the run ended there. Each
acknowledgment bears the next sequence number of the connection, and no session has to acknowledge
it. A segment with neither FIN nor payload that is received while nothing is awaited has no
acknowledgment, and the session goes on waiting as before. -/
theorem ack_discipline (settings : Settings) (role : Role) (sink : Option Log.Sink)
    (h : Trail (opened settings role sink) past t) :
    (∃ done pending, obligations past = done ++ pending ∧
      (acks past t).map (·.header.ack.toNat) = done.map Segment.behind ∧
      (pending = [] ∨ ∃ s, pending = [s] ∧ s.payload ≠ [] ∧
        (calls past t).getLast? = some (.appSend s.payload) ∧
        (t.call? = none → ∃ e, t.result? = some (.error e)))) ∧
    (∀ a, t.Transmits a → a.kind = .ack → a.header.seq = t.connection.nextSeq ∧
      ∀ u e other, e.segment? = some a → obligations ((u, e) :: other) = obligations other) ∧
    (∀ u e earlier s, past = (u, e) :: earlier → announced earlier = true → e.segment? = some s →
      s.header.control.fin = false → s.payload = [] →
      obligations past = obligations earlier ∧ acks past t = acks earlier u ∧
        t.call? = some (.wait .any) ∧ t.connection = u.connection) := by
  have h₀ := Connection.opened_free settings role sink
  rw [opened_eq] at h
  -- what holds along every trail
  have hkept : ∀ {past t}, Trail (staged (Connection.opened settings role sink, .ready)) past t →
      ∃ c x, t = staged (c, x) ∧ x.Fits (Connection.opened settings role sink) c ∧
        x.Heralded past ∧ x.Numbered c ∧ Settled past c x := fun h =>
    h.induct (P := fun past c x => x.Heralded past ∧ x.Numbered c ∧ Settled past c x) h₀ rfl
      ⟨trivial, trivial, [], [], rfl, rfl, .none nofun⟩
      fun ⟨hher, _, hs⟩ hx _ hp => ⟨hp.heralded, hp.numbered, hp.settles h₀ hx hher hs⟩
  obtain ⟨c, x, rfl, hx, -, hnum, done, pending, hall, hmet, hpend⟩ := hkept h
  refine ⟨⟨done, pending, hall, ?_, ?_⟩, ?_, ?_⟩
  · have htoNat := congrArg (List.map UInt32.toNat) hmet
    rw [List.map_map, List.map_map] at htoNat
    refine htoNat.trans (List.map_congr_left fun s _ => ?_)
    exact toNat_behind s
  · cases hpend with
    | none => exact .inl rfl
    | handing hne =>
      exact .inr ⟨_, rfl, hne, getLast?_calls rfl, nofun⟩
    | broken hne _ hlast => exact .inr ⟨_, rfl, hne, hlast, fun _ => ⟨_, rfl⟩⟩
  · intro a ha hk
    obtain ⟨m, bytes, rfl, rfl⟩ := (transmits_iff hx).1 ha
    have hm : m.kind = .ack := (Kind.ofControl_control m.kind).symm.trans hk
    refine ⟨(hnum hm).1, fun u e other hseg => obligations_of_not fun s hs => ?_⟩
    cases hseg.symm.trans hs
    have hne : m ≠ .data := by
      rintro rfl
      cases hm
    exact obliges_ack (congrArg Kind.control hm) (if_neg hne)
  · rintro u e earlier s rfl hann hseg hf hp
    cases h with
    | step before last =>
      obtain ⟨c, x, rfl, hx, hher, -⟩ := hkept before
      obtain ⟨d, x', heq, -, hpass⟩ := last.passage h₀ hx
      obtain ⟨rfl, rfl, hno⟩ := hpass.drops hx hher hann hseg hf hp
      rw [heq]
      refine ⟨obligations_of_not fun s' hs' => ?_, acks_cons.trans (List.append_nil _), rfl, rfl⟩
      cases hseg.symm.trans hs'
      exact hno

/-- A stack with which an active session opens, reads two bytes and a segment that it drops, and has
to acknowledge a FIN with one more byte. -/
def dataAndFin : List Response :=
  [.sent 20, .event .networkData, .bytes (numbered .synAck 5 []), .sent 20, .told,
    .event .networkData, .bytes (numbered .data 6 [104, 105]), .told, .sent 20,
    .event .networkData, .bytes (numbered .ack 8 []),
    .event .networkData, .bytes (numbered .fin 8 [33]), .told]

/-- The SYN,ACK, the data and the FIN are acknowledged, the segment between them is not. -/
theorem ack_discipline_three : ∃ past t, Trail (opened {} .active none) past t ∧
    (acks past t).map (·.header.ack.toNat) = [6, 8, 10] := by
  obtain ⟨past, y, d, hhears, hcall, hbehind⟩ : ∃ past y d,
      rehearse {} .active none dataAndFin = some (past, y) ∧
      (staged y).call? = some (.networkSend d) ∧
      (obligations past).map Segment.behind = [6, 8, 10] :=
    ⟨_, _, _, rfl, rfl, by decide +kernel⟩
  have hreaches := reaches_rehearse hhears
  obtain ⟨⟨done, pending, hall, hmet, hpend⟩, -⟩ := ack_discipline {} .active none hreaches.trail
  refine ⟨past, _, hreaches.trail, ?_⟩
  obtain rfl | ⟨s, -, -, hlast, -⟩ := hpend
  · rw [hmet, ← hbehind, hall, List.append_nil]
  · -- nothing is being handed over
    cases (getLast?_calls hcall).symm.trans hlast

end Session
end StopWait
