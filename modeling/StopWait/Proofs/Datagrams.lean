import StopWait.Proofs.Acknowledged
import StopWait.Proofs.Party
import StopWait.Proofs.Terminal

/-!
# The datagrams that a session sends

A session sends what the state machine asks for, in datagrams that fit the receive buffer of a peer
and read back as what was meant.

* `fed`, `lastTransition`: the transition that a session is performing.
* `Stage.Asked`, `Passage.asked`: **what is sent was asked for**, and the rest of the transition is
  still to do.
* `localPort_carry`: the source port is the one that was configured.
* `datagrams_fit`: **every datagram fits the peer and means what was intended.**
-/

namespace StopWait

/-- **A regular segment fits the receive buffer.** -/
theorem Segment.Regular.fits {s : Segment} (h : s.Regular) :
    20 ≤ s.serialize.length ∧ s.serialize.length ≤ 556 ∧
      s.serialize.take receiveCapacity = s.serialize := by
  have hm : mss.toNat = 536 := rfl
  have hlen := h.length_le
  have hsize : s.serialize.length = 20 + s.payload.length := s.length_serialize
  refine ⟨by omega, by omega, List.take_of_length_le ?_⟩
  show _ ≤ 20 + mss.toNat
  omega

namespace Connection

/-- **No operation changes the source port.** -/
theorem perform_localPort (c : Connection) (op : Op) :
    (c.perform op).1.localPort = c.localPort := by
  cases op with
  | apply t =>
    simp only [perform, apply]
    cases c.done with
    | true => rfl
    | false => cases c.state.on t <;> rfl
  | segment kind payload =>
    rw [perform_fst_segment]
    obtain ⟨e, hs, -⟩ | ⟨-, e, -, hs⟩ | ⟨-, -, -, hs⟩ | ⟨-, -, -, -, -, -, hs⟩ :=
      segment_cases c kind payload <;> rw [hs] <;> rfl
  | accept kind s =>
    have hadvance : ((c.noteReceived s).advance kind s).localPort = c.localPort := by
      unfold advance
      split <;> rfl
    rw [perform_fst_accept]
    obtain ⟨e, hs, -⟩ | ⟨-, -, -, -, hs⟩ | ⟨-, -, -, -, hs⟩ := accept_cases c kind s <;> rw [hs]
    · exact hadvance
    · obtain ⟨window, log, h⟩ := ((c.noteReceived s).advance kind s).acknowledge_fst
      rw [h]
      exact hadvance
  | record s =>
    obtain ⟨e, hr, -⟩ | hr := c.perform_record_cases s <;> simp [hr, noteReceived]
  | finish =>
    simp only [perform, finish]
    split <;> rfl

theorem attempt_localPort (c : Connection) (ops : List Op) :
    (c.attempt ops).1.localPort = c.localPort := by
  induction ops generalizing c with
  | nil => rfl
  | cons op ops ih =>
    have hop := c.perform_localPort op
    rw [attempt]
    rcases hp : c.perform op with ⟨d, _ | e⟩ <;> rw [hp] at hop
    · exact (ih d).trans hop
    · exact hop

theorem grow_error {c d : Connection} {acked : Acknowledged} {e : Connection.Error}
    (h : c.grow acked = (d, .error e)) : ∃ o, e = .overflow o := by
  unfold grow at h
  split at h <;> cases h
  exact ⟨_, rfl⟩

/-- What can be wrong with an acknowledgment is not its kind. -/
theorem acknowledge_error {c d : Connection} {e : Connection.Error}
    (h : c.acknowledge = (d, .error e)) : (∃ l, e = .log l) ∨ ∃ o, e = .overflow o := by
  unfold acknowledge at h
  split at h
  · exact .inr (grow_error h)
  · split at h
    · cases h
      exact .inl ⟨_, rfl⟩
    · exact .inr (grow_error h)

/-- **A segment of the awaited kind is expected.** -/
theorem accept_ne_unexpected (c : Connection) {kind : Kind} {s : Segment}
    (hk : kind.accepts s.header.control = true) (k l : Kind) :
    (c.accept kind s).2 ≠ .error (.unexpectedSegment k l) := by
  by_cases hd : c.done = true
  · simp [accept, hd]
  rw [Bool.not_eq_true] at hd
  cases hfits : s.seqLenFits with
  | false => simp [accept_overflow hd hk hfits]
  | true =>
    rw [accept_eq hd hk hfits]
    split
    · intro h
      rcases ha : ((c.noteReceived s).advance kind s).acknowledge with ⟨d, e | u⟩ <;> rw [ha] at h
      · obtain ⟨l, rfl⟩ | ⟨o, rfl⟩ := acknowledge_error ha <;> cases h
      · cases h
    · rintro ⟨⟩

end Connection

namespace Session

/-- The trigger that a step feeds to the connection, if it feeds one. -/
def fed (u : Session) : Happening → Option Trigger
  | .run => some (.start u.connection.role)
  | .answered _ r =>
    match u.point?, r with
    | some .idle, .event .appCloseRequested => some .close
    | some .fetching, .bytes bytes =>
      if (bytes.take u.connection.budget).isEmpty then none else some .write
    | some .reading, .bytes bytes =>
      match Segment.parse (bytes.take receiveCapacity) with
      | .ok s =>
        if s.header.control.fin then some (.arrived .fin)
        else if s.payload.isEmpty then none
        else some (.arrived .data)
      | .error _ => none
    | some (.receiving kind), .bytes bytes =>
      match Segment.parse (bytes.take receiveCapacity) with
      | .ok s => if (u.connection.accept kind s).2.isOk then some (.arrived kind) else none
      | .error _ => none
    | some (.signalling ⟨_, [], .close⟩), .told => some .close
    | _, _ => none

/-- The transition that was made last. -/
def lastTransition : Past → Option Transition
  | [] => none
  | (u, h) :: past => ((fed u h).bind u.connection.state.transition?).or (lastTransition past)

variable {c₀ c d : Connection} {x x' : Stage} {h : Happening} {past : Past} {t u : Session}
  {bytes : List UInt8} {s : Segment} {trigger : Trigger} {r : Transition}

theorem lastTransition_of_fed (hfed : fed u h = some trigger)
    (hr : u.connection.state.transition? trigger = some r) :
    lastTransition ((u, h) :: past) = some r := by
  rw [lastTransition, hfed, Option.bind_some, hr]
  rfl

theorem lastTransition_of_not_fed (hfed : fed u h = none) :
    lastTransition ((u, h) :: past) = lastTransition past := by
  rw [lastTransition, hfed]
  rfl

/-- **What a session is performing** when it sends a segment, or is about to acknowledge what it
delivers: the transition that was made last, as far as it is still to do. -/
def Stage.Asked (past : Past) : Stage → Prop
  | .sending m _ => ∃ done, lastTransition past =
      some ⟨m.state, done ++ .send m.kind :: m.rest.1, m.rest.2⟩
  | .delivering a _ => lastTransition past =
      some ⟨a.message.state, .deliver :: .send a.message.kind :: a.message.rest.1, a.message.rest.2⟩
  | _ => True

theorem asked_begin {a : Arrival} (h : lastTransition past =
      some ⟨a.message.state, .deliver :: .send a.message.kind :: a.message.rest.1,
        a.message.rest.2⟩) (payload : List UInt8) : (a.begin payload).2.Asked past := by
  obtain ⟨-, hb⟩ | ⟨-, hb⟩ := arrival_begin a payload <;> rw [hb]
  · exact h
  · exact ⟨[.deliver], h⟩

/-- **What is sent was asked for.** -/
theorem Passage.asked (h₀ : c₀.Free .listen) (hx : x.Fits c₀ c) (ho : x.Asked past)
    (hp : Passage c₀ c x h d x') : x'.Asked ((staged (c, x), h) :: past) := by
  cases hp with
  | again => trivial
  | opens first hcarry hopen =>
    obtain rfl | rfl := hopen
    · -- it is the active end that sends first
      obtain ⟨hrole, -⟩ | ⟨-, hawait⟩ := carry_opening h₀
      · have hstart : fed (staged (c, x)) .run = some (.start .active) := by
          rw [← hrole, ← first]
          rfl
        refine ⟨[], lastTransition_of_fed hstart ?_⟩
        show c.state.transition? _ = _
        rw [first, h₀.state]
        rfl
      · rw [hcarry] at hawait
        cases hawait
    · trivial
  | answered hcall hcarry hpass =>
    have hstate := (hx.live_of_call hcall).state
    -- the transition out of the state of the stage
    have hfed : ∀ {r : Response} {call : Call} {trigger : Trigger} {tr : Transition},
        fed (staged (c, x)) (.answered call r) = some trigger →
        x.state.transition? trigger = some tr →
        lastTransition ((staged (c, x), .answered call r) :: past) = some tr := by
      intro r call trigger tr hf ht
      refine lastTransition_of_fed hf ?_
      show c.state.transition? _ = _
      rw [hstate, ht]
    cases hpass with
    | closes => exact ⟨[], hfed rfl rfl⟩
    | @writes n bytes _ _ hne _ =>
      obtain rfl : c.budget = n := by cases hcall; rfl
      have hwrite : fed (staged (c, .fetching)) (.answered (.appRecv c.budget) (.bytes bytes)) =
          some .write := by
        have hb : ¬ (bytes.take c.budget).isEmpty = true := fun h => hne (List.isEmpty_iff.1 h)
        exact if_neg hb
      exact ⟨[], hfed hwrite rfl⟩
    | @takes bytes s _ hs hf hne =>
      have hdata : fed (staged (c, .reading)) (.answered (.networkRecv receiveCapacity)
          (.bytes bytes)) = some (.arrived .data) := by
        simp [fed, staged, point?, Stage.status, hs, hf, hne]
      exact hfed hdata rfl
    | @takesFin bytes s _ hs hf =>
      have hfin : fed (staged (c, .reading)) (.answered (.networkRecv receiveCapacity)
          (.bytes bytes)) = some (.arrived .fin) := by
        simp [fed, staged, point?, Stage.status, hs, hf]
      exact asked_begin (hfed hfin rfl) s.payload
    | @accepts w bytes s _ d' hs hk ha =>
      have htaken : fed (staged (c, .receiving w))
          (.answered (.networkRecv receiveCapacity) (.bytes bytes)) = some (.arrived w.kind) := by
        simp [fed, staged, point?, Stage.status, hs, ha, Except.isOk, Except.toBool]
      cases w with
      | syn | synAck => exact ⟨[], hfed htaken rfl⟩
      | peerFin => exact asked_begin (hfed htaken rfl) s.payload
      | _ => trivial
    | @posts m => cases m <;> trivial
    | @hands a bytes _ => exact ⟨[.deliver], (lastTransition_of_not_fed rfl).trans ho⟩
    | signals => exact ⟨[], hfed rfl rfl⟩
    | _ => trivial

theorem localPort_carry (c : Connection) (t : Turn) : (carry c t).1.localPort = c.localPort := by
  have h := c.attempt_localPort t.1
  rw [carry]
  rcases ha : c.attempt t.1 with ⟨d, _ | e⟩ <;> rw [ha] at h <;> exact h

theorem Passage.localPort (hp : Passage c₀ c x h d x') : d.localPort = c.localPort := by
  cases hp with
  | opens first hcarry => rw [first, ← localPort_carry c₀ (opening c₀.role), hcarry]
  | again => rfl
  | @answered _ r _ _ _ hcarry => rw [← localPort_carry c (x.turn r), hcarry]

theorem Message.kind_mem (m : Message) : m.kind ∈ [Kind.syn, .synAck, .ack, .data, .fin] := by
  cases m <;> decide

/-- **Every datagram that a session sends fits the peer and means what was intended.** However often
a session is run and whatever its stack answers: a datagram has between 20 and 556 bytes, which a
receive buffer takes without loss. It reads back as a segment of the kind that the transition asked
for that the session is performing, whose later actions are still to do: a SYN, a SYN,ACK, an ACK,
data or a FIN. It has 1 to 536 bytes of payload if it is data and none otherwise, the source port
that was configured, the window 3072, and neither checksum nor urgent pointer. A peer that awaits
this kind finds the control bits that it looks for. -/
theorem datagrams_fit (settings : Settings) (role : Role) (sink : Option Log.Sink)
    (h : Trail (opened settings role sink) past t) {datagram : List UInt8}
    (hsend : t.call? = some (.networkSend datagram)) :
    (20 ≤ datagram.length ∧ datagram.length ≤ 556 ∧
      datagram.take receiveCapacity = datagram) ∧
    ∃ s todo, Segment.parse datagram = .ok s ∧ t.point? = some (.sending s todo) ∧
      (∃ done, lastTransition past =
        some ⟨t.connection.state, done ++ .send s.kind :: todo.actions, todo.followUp⟩) ∧
      s.kind ∈ [Kind.syn, .synAck, .ack, .data, .fin] ∧
      (if s.kind = .data then 1 ≤ s.payload.length ∧ s.payload.length ≤ 536 else s.payload = []) ∧
      s.header.srcPort = settings.localPort ∧ s.header.window = 3072 ∧
      s.header.checksum = 0 ∧ s.header.urgent = 0 ∧
      s.kind.accepts s.header.control = true ∧
      ∀ peer k l, (Connection.accept peer s.kind s).2 ≠ .error (.unexpectedSegment k l) := by
  have h₀ := Connection.opened_free settings role sink
  have hport : (Connection.opened settings role sink).localPort = settings.localPort := by
    cases sink <;> rfl
  rw [opened_eq] at h
  obtain ⟨c, x, rfl, hx, hasked, hlocal⟩ := h.induct
    (P := fun past c x => x.Asked past ∧ c.localPort = settings.localPort) h₀ rfl
    ⟨trivial, hport⟩ (fun ho hx _ hp => ⟨hp.asked h₀ hx ho.1, hp.localPort.trans ho.2⟩)
  -- only at a stage that sends is the call one of the network
  cases x with
  | sending m bytes =>
    cases hsend
    have hreg : (c.reissue m.kind (m.payload bytes)).Regular :=
      regular_outgoing hx.1.sound _ List.mem_cons_self
    have hkind : (c.reissue m.kind (m.payload bytes)).kind = m.kind :=
      Kind.ofControl_control m.kind
    have hstate : c.state = m.state := hx.1.state
    have haccepts : m.kind.accepts m.kind.control = true := by cases m <;> rfl
    obtain ⟨done, hdone⟩ := hasked
    refine ⟨hreg.fits, _, _, Segment.parse_serialize rfl, rfl, ⟨done, ?_⟩, ?_, ?_, hlocal, rfl, rfl,
      rfl, ?_, ?_⟩ <;> rw [hkind]
    · rw [hdone, ← hstate]
      rfl
    · exact m.kind_mem
    · split
      · rename_i hdata
        have hne := hreg.payload_ne_nil (congrArg Kind.control hdata)
        exact ⟨List.length_pos_iff.2 hne, hreg.length_le⟩
      · rename_i hdata
        exact if_neg fun h => hdata (congrArg Message.kind h)
    · exact haccepts
    · exact fun peer => peer.accept_ne_unexpected haccepts
  | _ => cases hsend

/-- The acknowledgment of a FIN with two bytes is asked for by the transition that delivers them,
and the application is still to be told of the end. -/
theorem datagrams_fit_ack : ∃ past t datagram s, Trail (opened {} .active none) past t ∧
    t.call? = some (.networkSend datagram) ∧ datagram.take receiveCapacity = datagram ∧
    Segment.parse datagram = .ok s ∧ s.payload = [] ∧
    lastTransition past =
      some ⟨.closeWait, [.deliver, .send .ack, .signalPeerFin], .close⟩ := by
  have hhears : rehearse {} .active none twoBytesAndFin = some (_, _) := rfl
  have hreaches := reaches_rehearse hhears
  obtain ⟨⟨-, -, hfits⟩, s, todo, hs, hpoint, -, -, hpayload, -⟩ :=
    datagrams_fit {} .active none hreaches.trail rfl
  cases hpoint
  exact ⟨_, _, _, _, hreaches.trail, rfl, hfits, hs, hpayload, rfl⟩

end Session

end StopWait
