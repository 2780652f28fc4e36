import StopWait.Proofs.Trail

/-!
# What the application is told

A session tells its application three things: that the connection is open, the bytes of the peer,
and that the peer sends no more. Here is all that it ever tells, whatever its stack answers and
however often it is run.

* `notices`: the calls that tell the application something.
* `unawaited`, `closing`: the payloads that are meant for the application.
* `Told`: what it was told so far, in order.
* `notices_eq`: **an application is told that it is released, then what arrived for it, then that
  the peer has ended.**
-/

namespace StopWait

/-- Whether a call tells the application something. -/
def Call.isNotice : Call → Bool
  | .unblock | .appSend _ | .finReceived => true
  | .wait _ | .networkSend _ | .networkRecv _ | .appRecv _ => false

/-- The payload of a segment, if there is any. -/
def Segment.content (s : Segment) : List (List UInt8) := if s.payload = [] then [] else [s.payload]

namespace Session

/-- What a session has told its application, in order, with the call that it waits on. -/
def notices (past : Past) (t : Session) : List Call := (calls past t).filter Call.isNotice

/-- The payloads of the received segments that are chosen, in order. A segment is chosen by the
steps before it, the session that received it, and what it is. -/
def payloads (chosen : Past → Session → Segment → Bool) : Past → List (List UInt8)
  | [] => []
  | (u, h) :: past => payloads chosen past ++
    match h.segment? with
    | some s => if chosen past u s then s.content else []
    | none => []

/-- The last answer reported network data to a wait for anything. -/
def announced (past : Past) : Bool :=
  past.head?.map Prod.snd = some (.answered (.wait .any) (.event .networkData))

/-- A session in FIN-WAIT-2 accepts a segment as the peer's FIN. -/
def acceptsFin (u : Session) (s : Segment) : Bool :=
  u.connection.state = .finWait2 && (u.connection.accept .fin s).2.isOk

/-- The payloads of the segments read after a wait for anything. -/
def unawaited : Past → List (List UInt8) := payloads fun past _ _ => announced past

/-- The payload of the segment accepted in FIN-WAIT-2. -/
def closing : Past → List (List UInt8) := payloads fun _ u s => acceptsFin u s

/-- What an application is told that is released or not yet, gets these bytes, and learns of the end
of the peer or not. -/
def told (released : Bool) (content : List (List UInt8)) (ended : Bool) : List Call :=
  (if released then [.unblock] else []) ++ content.map .appSend ++
    (if ended then [.finReceived] else [])

/-- **What an application was told so far.** -/
structure Told (past : Past) (t : Session) (released ended : Bool) : Prop where
  all : notices past t = told released (unawaited past ++ closing past) ended
  silent : released = false → unawaited past ++ closing past = [] ∧ ended = false
  last : (closing past).length ≤ 1

/-- What a stage waits for the application to be told. -/
def Stage.notice : Stage → List Call
  | .unblocking _ => [.unblock]
  | .delivering _ bytes => [.appSend bytes]
  | .signalling _ => [.finReceived]
  | _ => []

/-- What the application of a session in the middle of a run was told: whether that it is released,
and whether that the peer has ended. -/
def Stage.hasTold : Stage → Option (Bool × Bool)
  | .ready | .failed _ | .ended => none
  | .signalling _ | .sending .lastFin _ | .awaiting .lastFin | .receiving .lastFin =>
    some (true, true)
  | .unblocking _ => some (true, false)
  | x => some (x.isReleased, false)

/-- What was answered last at a stage that receives: that a wait for anything, or one for the
network only, is over. -/
def Stage.Heralded (past : Past) : Stage → Prop
  | .reading => announced past = true
  | .receiving _ => announced past = false
  | _ => True

variable {c₀ c d d' : Connection} {x x' : Stage} {h : Happening} {past past' : Past} {t u : Session}
  {bytes : List UInt8} {s : Segment} {chosen : Past → Session → Segment → Bool} {r e : Bool}

theorem notices_cons : notices ((u, h) :: past) (staged (c, x)) = notices past u ++ x.notice := by
  have hnotice : (staged (c, x)).call?.toList.filter Call.isNotice = x.notice := by
    cases x <;> rfl
  rw [notices, calls, List.filter_append, hnotice]
  rfl

theorem payloads_of_none (hs : h.segment? = none) :
    payloads chosen ((u, h) :: past) = payloads chosen past := by
  rw [payloads, hs, List.append_nil]

theorem payloads_of_some (hs : h.segment? = some s) :
    payloads chosen ((u, h) :: past) =
      payloads chosen past ++ if chosen past u s then s.content else [] := by
  rw [payloads, hs]

theorem nil_not_mem_content (s : Segment) : [] ∉ s.content := by
  intro hnil
  unfold Segment.content at hnil
  split at hnil
  · exact List.not_mem_nil hnil
  · rename_i hp
    exact hp (List.mem_singleton.1 hnil).symm

theorem nil_not_mem_payloads : [] ∉ payloads chosen past := by
  induction past with
  | nil => exact List.not_mem_nil
  | cons q past ih =>
    obtain ⟨u, h⟩ := q
    cases hs : h.segment? with
    | none => rwa [payloads_of_none hs]
    | some s =>
      rw [payloads_of_some hs, List.mem_append, not_or]
      refine ⟨ih, ?_⟩
      split
      · exact nil_not_mem_content s
      · exact List.not_mem_nil

/-- **A step tells what it brings**, and brings something only between the release and the end. -/
theorem Told.step (ht : Told past u r e) (content : List (List UInt8))
    (hbrings : unawaited past' ++ closing past' = unawaited past ++ closing past ++ content)
    (htells : notices past' t = notices past u ++ content.map .appSend)
    (hlast : (closing past').length ≤ 1) (hopen : content ≠ [] → r = true ∧ e = false) :
    Told past' t r e := by
  by_cases hc : content = []
  · -- nothing is brought, so that it does not matter whether the application was released
    subst hc
    rw [List.append_nil] at hbrings
    rw [List.map_nil, List.append_nil] at htells
    exact ⟨by rw [htells, hbrings, ht.all], by rw [hbrings]; exact ht.silent, hlast⟩
  · obtain ⟨rfl, rfl⟩ := hopen hc
    refine ⟨?_, nofun, hlast⟩
    rw [htells, hbrings, ht.all]
    simp [told]

theorem Told.release (ht : Told past u false e) (hpay : unawaited past' = unawaited past)
    (hclosing : closing past' = closing past)
    (htells : notices past' t = notices past u ++ [.unblock]) : Told past' t true e := by
  obtain ⟨hnone, rfl⟩ := ht.silent rfl
  refine ⟨?_, nofun, hclosing ▸ ht.last⟩
  rw [htells, ht.all, hpay, hclosing, hnone]
  rfl

theorem Told.signal (ht : Told past u true false) (hpay : unawaited past' = unawaited past)
    (hclosing : closing past' = closing past)
    (htells : notices past' t = notices past u ++ [.finReceived]) : Told past' t true true := by
  refine ⟨?_, nofun, hclosing ▸ ht.last⟩
  rw [htells, ht.all, hpay, hclosing]
  simp [told]

/-- What a session knows of what its application was told. -/
structure Informed (past : Past) (c : Connection) (x : Stage) : Prop where
  sofar : ∃ released ended, Told past (staged (c, x)) released ended ∧
    (x.hasTold.isSome = true → x.hasTold = some (released, ended)) ∧
    (c.state = .listen → released = false)
  unclosed : c.state ≠ .closed → closing past = []
  heralded : x.Heralded past

theorem unawaited_cons (hs : ∀ s, h.segment? = some s → announced past = true → s.content = []) :
    unawaited ((u, h) :: past) = unawaited past := by
  cases hseg : h.segment? with
  | none => exact payloads_of_none hseg
  | some s =>
    rw [unawaited, payloads_of_some hseg]
    split
    · rename_i ha
      rw [hs s hseg ha, List.append_nil]
    · rw [List.append_nil]

theorem closing_cons (hs : ∀ s, h.segment? = some s → acceptsFin u s = false) :
    closing ((u, h) :: past) = closing past := by
  cases hseg : h.segment? with
  | none => exact payloads_of_none hseg
  | some s =>
    rw [closing, payloads_of_some hseg, hs s hseg]
    exact List.append_nil _

theorem acceptsFin_of_ne (hc : c.state ≠ .finWait2) : acceptsFin (staged (c, x)) s = false := by
  simp [acceptsFin, staged, hc]

theorem acceptsFin_of_error {e : Connection.Error} (ha : c.accept .fin s = (d, .error e)) :
    acceptsFin (staged (c, x)) s = false := by
  simp [acceptsFin, staged, ha, Except.isOk, Except.toBool]

theorem Told.quiet (ht : Told past (staged (c, x)) r e)
    (hpay : unawaited ((staged (c, x), h) :: past) = unawaited past)
    (hclosing : closing ((staged (c, x), h) :: past) = closing past) (hn : x'.notice = []) :
    Told ((staged (c, x), h) :: past) (staged (d, x')) r e := by
  refine ht.step [] ?_ ?_ (hclosing ▸ ht.last) (absurd rfl)
  · rw [hpay, hclosing, List.append_nil]
  · rw [notices_cons, hn]
    rfl

theorem Informed.next (hi : Informed past c x) (hf : State.Follows c.state d.state)
    (hclosing : d.state ≠ .closed → closing ((staged (c, x), h) :: past) = closing past)
    (htold : Told ((staged (c, x), h) :: past) (staged (d, x')) r e)
    (hknown : x'.hasTold.isSome = true → x'.hasTold = some (r, e))
    (hlisten : c.state = .listen → r = false)
    (hheralded : x'.Heralded ((staged (c, x), h) :: past)) :
    Informed ((staged (c, x), h) :: past) d x' := by
  refine ⟨⟨r, e, htold, hknown, fun hd => hlisten ?_⟩, fun hd => ?_, hheralded⟩
  · rw [hd] at hf
    exact hf.to_listen
  · -- no state follows CLOSED, so that the session was short of it before
    rw [hclosing hd]
    refine hi.unclosed fun hc => hd ?_
    rw [hc] at hf
    exact hf.of_closed

theorem Informed.quiet (hi : Informed past c x) (hf : State.Follows c.state d.state)
    (hpay : unawaited ((staged (c, x), h) :: past) = unawaited past)
    (hclosing : closing ((staged (c, x), h) :: past) = closing past) (hn : x'.notice = [])
    (hsame : x'.hasTold.isSome = true → x'.hasTold = x.hasTold)
    (hheralded : x'.Heralded ((staged (c, x), h) :: past)) :
    Informed ((staged (c, x), h) :: past) d x' := by
  obtain ⟨r, e, ht, hknown, hlisten⟩ := hi.sofar
  refine hi.next hf (fun _ => hclosing) (ht.quiet hpay hclosing hn) (fun hs => ?_) hlisten hheralded
  have htold := hsame hs
  exact htold.trans (hknown (htold ▸ hs))

theorem Informed.told_of (hi : Informed past c x) {k : Bool × Bool} (hk : x.hasTold = some k) :
    Told past (staged (c, x)) k.1 k.2 := by
  obtain ⟨r, e, ht, hknown, -⟩ := hi.sofar
  have hsome : some k = some (r, e) := hk.symm.trans (hknown (by rw [hk]; rfl))
  cases hsome
  exact ht

/-- What arrives for the application is what it is told next. -/
theorem notice_begin (past : Past) (a : Arrival) (s : Segment) :
    (a.begin s.payload).2.notice = s.content.map .appSend ∧
      (a.begin s.payload).2.hasTold = some (true, false) ∧
      (a.begin s.payload).2.Heralded past := by
  obtain ⟨hp, hb⟩ | ⟨hp, hb⟩ := arrival_begin a s.payload <;> rw [hb, Segment.content]
  · rw [if_neg hp]
    exact ⟨rfl, rfl, trivial⟩
  · rw [if_pos hp]
    exact ⟨rfl, by cases a <;> rfl, trivial⟩

/-- A segment arrives for the application, after its release and before the end of the peer. -/
theorem Informed.arrives (hi : Informed past c x) (hf : State.Follows c.state d.state)
    (a : Arrival) (hk : x.hasTold = some (true, false)) (hc : c.state ≠ .listen)
    (hbrings : unawaited ((staged (c, x), h) :: past) ++ closing ((staged (c, x), h) :: past) =
      unawaited past ++ closing past ++ s.content)
    (hlast : (closing ((staged (c, x), h) :: past)).length ≤ 1)
    (hclosing : d.state ≠ .closed → closing ((staged (c, x), h) :: past) = closing past) :
    Informed ((staged (c, x), h) :: past) d (a.begin s.payload).2 := by
  obtain ⟨hnotice, hknown, hheralded⟩ := notice_begin ((staged (c, x), h) :: past) a s
  refine hi.next hf hclosing ?_ (fun _ => hknown) (absurd · hc) hheralded
  refine (hi.told_of hk).step s.content hbrings ?_ hlast fun _ => ⟨rfl, rfl⟩
  rw [notices_cons, hnotice]

/-- A segment that is read while nothing is awaited is for the application. -/
theorem Informed.reads (hi : Informed past c .reading) (hf : State.Follows c.state d.state)
    (a : Arrival) (hc : c.state = .established) (hs : h.segment? = some s) :
    Informed ((staged (c, .reading), h) :: past) d (a.begin s.payload).2 := by
  have hclosing : closing ((staged (c, .reading), h) :: past) = closing past :=
    closing_cons fun _ _ => acceptsFin_of_ne (by rw [hc]; decide)
  have hnone : closing past = [] := hi.unclosed (by rw [hc]; decide)
  have hread : announced past = true := hi.heralded
  refine hi.arrives hf a rfl (by rw [hc]; decide) ?_ ?_ fun _ => hclosing
  · rw [hclosing, hnone, unawaited, payloads_of_some hs, hread]
    simp
  · rw [hclosing, hnone]
    exact Nat.zero_le _

/-- A segment that is awaited is for the application only in FIN-WAIT-2. -/
theorem Informed.accepts {w : Wait} (hi : Informed past c (.receiving w))
    (hf : State.Follows c.state d.state) (hstate : c.state = w.state)
    (hs : Segment.parse (bytes.take receiveCapacity) = .ok s)
    (ha : c.accept w.kind s = (d', .ok ())) (hx' : (w.after s.payload).2.Fits c₀ d) :
    Informed ((staged (c, .receiving w),
      .answered (.networkRecv receiveCapacity) (.bytes bytes)) :: past) d
      (w.after s.payload).2 := by
  have hseg := Happening.segment_of_parse hs
  generalize Happening.answered (.networkRecv receiveCapacity) (.bytes bytes) = h at hseg ⊢
  have hnot : announced past = false := hi.heralded
  have hpay : unawaited ((staged (c, .receiving w), h) :: past) = unawaited past :=
    unawaited_cons fun _ _ ha => absurd (hnot.symm.trans ha) Bool.false_ne_true
  have hother : w.state ≠ .finWait2 →
      closing ((staged (c, .receiving w), h) :: past) = closing past :=
    fun hw => closing_cons fun _ _ => acceptsFin_of_ne (hstate ▸ hw)
  cases w with
  | peerFin =>
    have hst : c.state = .finWait2 := hstate
    have hacc : acceptsFin (staged (c, .receiving .peerFin)) s = true := by
      have hok : c.accept .fin s = (d', .ok ()) := ha
      simp [acceptsFin, staged, hst, hok, Except.isOk, Except.toBool]
    have hnone : closing past = [] := hi.unclosed (by rw [hst]; decide)
    have hlast : closing ((staged (c, .receiving .peerFin), h) :: past) = s.content := by
      rw [closing, payloads_of_some hseg, hacc, if_pos rfl]
      exact congrArg (· ++ s.content) hnone
    refine hi.arrives hf .lastFin rfl (by rw [hst]; decide) ?_ ?_ fun hd => ?_
    · rw [hpay, hlast, hnone, List.append_nil]
    · rw [hlast, Segment.content]
      split <;> simp
    · exact absurd (state_of_arrival (a := .lastFin) hx') hd
  | opening =>
    have htold : Told ((staged (c, .receiving .opening), h) :: past)
        (staged (d, .unblocking s.payload)) true false :=
      (hi.told_of rfl).release hpay (hother (by decide)) notices_cons
    exact hi.next hf (fun _ => hother (by decide)) htold (fun _ => rfl)
      (fun hl => absurd (hstate.symm.trans hl) (by decide)) trivial
  | lastFin => exact hi.quiet hf hpay (hother (by decide)) rfl (by rintro ⟨⟩) trivial
  | _ => exact hi.quiet hf hpay (hother (by decide)) rfl (fun _ => rfl) trivial

/-- A segment that is refused is not for the application. -/
theorem Informed.fails {call : Call} {resp : Response} {err : Session.Error}
    (hi : Informed past c x) (hx : x.Fits c₀ c) (hf : State.Follows c.state d.state)
    (hcall : (staged (c, x)).call? = some call)
    (hcarry : carry c (x.turn resp) = (d, .failed err)) :
    Informed ((staged (c, x), .answered call resp) :: past) d (.failed err) := by
  have hstate := (hx.live_of_call hcall).state
  -- a segment that was read was awaited
  have hrefused := fun s hs => refused_of_failed (s := s) hx hcall hs hcarry
  refine hi.quiet hf (unawaited_cons fun s hs ha => ?_) (closing_cons fun s hs => ?_) rfl nofun
    trivial
  · obtain ⟨w, -, -, rfl, -⟩ := hrefused s hs
    have hnot : announced past = false := hi.heralded
    rw [ha] at hnot
    cases hnot
  · obtain ⟨w, d', e', rfl, ha, -⟩ := hrefused s hs
    cases w with
    | peerFin => exact acceptsFin_of_error ha
    | _ => exact acceptsFin_of_ne (by rw [hstate]; decide)

/-- The acknowledgments of the SYN,ACK and of the peer's FIN are followed by a notice. -/
theorem Informed.posts {m : Message} (hi : Informed past c (.sending m bytes))
    (hf : State.Follows c.state d.state) (hstate : c.state = m.state)
    (hnone : ∀ chosen, payloads chosen ((staged (c, .sending m bytes), h) :: past) =
      payloads chosen past) :
    Informed ((staged (c, .sending m bytes), h) :: past) d (m.after bytes).2 := by
  cases m with
  | openAck =>
    have htold := hi.told_of rfl
    exact hi.next hf (fun _ => hnone _) (htold.release (hnone _) (hnone _) notices_cons)
      (fun _ => rfl) (fun hl => absurd (hstate.symm.trans hl) nofun) trivial
  | peerFinAck =>
    have htold := hi.told_of rfl
    exact hi.next hf (fun _ => hnone _) (htold.signal (hnone _) (hnone _) notices_cons)
      (fun _ => rfl) (fun hl => absurd (hstate.symm.trans hl) nofun) trivial
  | closeAck => exact hi.quiet hf (hnone _) (hnone _) rfl nofun trivial
  | _ => exact hi.quiet hf (hnone _) (hnone _) rfl (fun _ => rfl) trivial

/-- **What a session knows after a step**, from what it knew before. -/
theorem Passage.informed (h₀ : c₀.Free .listen) (hx : x.Fits c₀ c) (hx' : x'.Fits c₀ d)
    (hi : Informed past c x) (hp : Passage c₀ c x h d x') :
    Informed ((staged (c, x), h) :: past) d x' := by
  have hf := hp.follows h₀ hx hx'
  cases hp with
  | again hne =>
    exact hi.quiet hf (payloads_of_none rfl) (payloads_of_none rfl) rfl nofun trivial
  | opens first _ hopen =>
    -- in LISTEN nothing was told yet
    obtain ⟨r, e, ht, -, hlisten⟩ := hi.sofar
    obtain rfl := hlisten (first ▸ h₀.state)
    obtain ⟨-, rfl⟩ := ht.silent rfl
    have hnone : ∀ chosen, payloads chosen ((staged (c, x), .run) :: past) = payloads chosen past :=
      fun _ => payloads_of_none rfl
    obtain rfl | rfl := hopen <;>
      exact hi.next hf (fun _ => hnone _) (ht.quiet (hnone _) (hnone _) rfl) (fun _ => rfl) hlisten
        trivial
  | @answered call resp _ _ hcall hcarry hpass =>
    have hstate := (hx.live_of_call hcall).state
    have hnone : (Happening.answered call resp).segment? = none → ∀ chosen,
        payloads chosen ((staged (c, x), .answered call resp) :: past) = payloads chosen past :=
      fun hs _ => payloads_of_none hs
    cases hpass with
    | fails => exact hi.fails hx hf hcall hcarry
    | hears => exact hi.quiet hf (hnone rfl _) (hnone rfl _) rfl (fun _ => rfl) rfl
    | @awaits w =>
      refine hi.quiet hf (hnone rfl _) (hnone rfl _) rfl (fun _ => ?_) rfl
      cases w <;> rfl
    | fetches | closes | writes | signals | opens =>
      exact hi.quiet hf (hnone rfl _) (hnone rfl _) rfl (fun _ => rfl) trivial
    | @hands a =>
      refine hi.quiet hf (hnone rfl _) (hnone rfl _) rfl (fun _ => ?_) trivial
      cases a <;> rfl
    | drops hs _ hp =>
      refine hi.quiet hf (unawaited_cons fun s' hs' _ => ?_)
        (closing_cons fun _ _ => acceptsFin_of_ne (by rw [hstate]; decide)) rfl (fun _ => rfl)
        trivial
      rw [Happening.segment_of_parse hs] at hs'
      cases hs'
      exact if_pos hp
    | @takes bytes s _ hs _ hp =>
      have hstage : (Arrival.data.begin s.payload).2 = .delivering .data s.payload :=
        congrArg Prod.snd (begin_of_ne_nil .data hp)
      rw [← hstage]
      exact hi.reads hf .data hstate (Happening.segment_of_parse hs)
    | takesFin hs => exact hi.reads hf .peerFin hstate (Happening.segment_of_parse hs)
    | accepts hs _ ha => exact hi.accepts hf hstate hs ha hx'
    | posts => exact hi.posts hf hstate (hnone rfl)

/-- **What an application is told.** A session is run as often as one likes, and its stack answers
as it likes. The calls that tell its application something, the one that it waits on included, are
these, in this order: that it is released; the payloads of the segments that were read after a wait
for anything, as they arrived, and the payload of the FIN accepted in FIN-WAIT-2; and that the peer
has ended. Nothing is told before the release, and no payload is empty. -/
theorem notices_eq (settings : Settings) (role : Role) (sink : Option Log.Sink)
    (h : Trail (opened settings role sink) past t) :
    ∃ released ended, notices past t = told released (unawaited past ++ closing past) ended ∧
      (released = false → unawaited past ++ closing past = [] ∧ ended = false) ∧
      (closing past).length ≤ 1 ∧ [] ∉ unawaited past ++ closing past := by
  have h₀ := Connection.opened_free settings role sink
  rw [opened_eq] at h
  obtain ⟨c, x, rfl, -, hi⟩ := h.induct (P := Informed) h₀ rfl
    ⟨⟨false, false, ⟨rfl, fun _ => ⟨rfl, rfl⟩, Nat.zero_le _⟩, nofun, fun _ => rfl⟩,
      fun _ => rfl, trivial⟩
    (fun hi hx hx' hp => hp.informed h₀ hx hx' hi)
  obtain ⟨released, ended, htold, -⟩ := hi.sofar
  refine ⟨released, ended, htold.all, htold.silent, htold.last, ?_⟩
  rw [List.mem_append, not_or]
  exact ⟨nil_not_mem_payloads, nil_not_mem_payloads⟩

/-- A stack that brings an active session two bytes, then closes, and brings one more on the FIN. -/
def bytesAndClose : List Response :=
  [.sent 20, .event .networkData, .bytes (blank .synAck []), .sent 20, .told,
    .event .networkData, .bytes (blank .data [104, 105]), .told, .sent 20,
    .event .appCloseRequested, .sent 20, .event .networkData, .bytes (blank .ack [33]),
    .event .networkData, .bytes (blank .fin [98])]

/-- The bytes of data and of the FIN are told, those of the acknowledgment are not. -/
theorem notices_eq_close : ∃ past t, Trail (opened {} .active none) past t ∧
    unawaited past = [[104, 105]] ∧ closing past = [[98]] ∧
    ∃ ended, notices past t = told true [[104, 105], [98]] ended := by
  have hhears : rehearse {} .active none bytesAndClose = some (_, _) := rfl
  have hreaches := reaches_rehearse hhears
  obtain ⟨released, ended, htold, hsilent, -⟩ := notices_eq {} .active none hreaches.trail
  cases released with
  | false => exact absurd (hsilent rfl).1 (List.cons_ne_nil _ _)
  | true => exact ⟨_, _, hreaches.trail, rfl, rfl, ended, htold⟩

end Session

end StopWait
