import Mathlib.Data.List.Basic
import StopWait.Proofs.Trail

/-!
# Stop and wait

A session has at most one data segment on its way. It asks its application for bytes only where the
last ones are acknowledged, and until then it listens to the network alone.

* `Connection.Quiet`, `Connection.AwaitsPeer`: the connections of the two kinds of waits.
* `Acknowledges`, `Completes`: the steps in which the data on its way is acknowledged, and in which
  the opening handshake completes.
* `stop_and_wait`: **what a session waits for, and when it sends data.**
-/

namespace StopWait

/-- An open connection that has nothing on its way, and room for a full segment. -/
structure Connection.Quiet (c : Connection) : Prop where
  state : c.state = .established
  undone : c.done = false
  flight : c.inFlight = none
  budget : c.budget = mss.toNat

/-- A connection that goes on only when the peer says so: it opens or closes, or has data on its
way. -/
structure Connection.AwaitsPeer (c : Connection) : Prop where
  undone : c.done = false
  state : (c.state = .established ∧ c.inFlight.isSome = true) ∨ (c.inFlight = none ∧
    c.state ∈ [.listen, .synSent, .synReceived, .finWait1, .finWait2, .lastAck])

namespace Session

/-- A session that waits for a segment of a kind receives one, and accepts it. -/
structure TakesIn (q : Session × Happening) (k : Kind) (s : Segment) (d : Connection) : Prop where
  waits : q.1.status = .suspended (.receiving k)
  receives : q.2.segment? = some s
  accepts : q.1.connection.accept k s = (d, .ok ())

/-- **The data that a connection has on its way is acknowledged**: the session, still with this very
connection, takes in a segment that has the ACK bit. -/
structure Acknowledges (c : Connection) (q : Session × Happening) : Prop where
  same : q.1.connection = c
  taken : ∃ s d, TakesIn q .ack s d ∧ s.header.control.ack = true ∧ d.inFlight = none

/-- **The opening handshake completes**: the SYN,ACK is taken in, or the acknowledgment of ours. -/
def Completes (q : Session × Happening) : Prop :=
  ∃ k s d, TakesIn q k s d ∧
    ((q.1.connection.state = .synSent ∧ k = .synAck) ∨
      (q.1.connection.state = .synReceived ∧ k = .ack))

variable {c₀ c d : Connection} {x x' : Stage} {h : Happening} {past : Past} {t : Session}
  {bytes : List UInt8} {s : Segment}

/-- **What a session waits for.** -/
theorem wait_cases (hx : x.Fits c₀ c) {mask : Interest}
    (h : (staged (c, x)).call? = some (.wait mask)) :
    (mask = .any ∧ c.Quiet) ∨ (mask = .networkOnly ∧ c.AwaitsPeer) := by
  cases x with
  | idle =>
    cases h
    have hfree : c.Free .established := hx.1.free rfl
    exact .inl ⟨rfl, hfree.state, hfree.undone, hfree.flight,
      hfree.balanced.budget_eq hfree.flight⟩
  | awaiting w =>
    cases h
    refine .inr ⟨rfl, hx.1.undone, ?_⟩
    cases w with
    | data => exact .inl ⟨hx.1.state, hx.1.flight⟩
    | _ => exact .inr ⟨(hx.1.free rfl).flight, by rw [hx.1.state]; decide⟩
  | _ => cases h

/-- Data is sent at one kind of stage. -/
theorem sends_data (hx : x.Fits c₀ c) (hs : (staged (c, x)).Transmits s) (hk : s.kind = .data) :
    ∃ bytes, x = .sending .data bytes ∧ s.payload = bytes := by
  obtain ⟨m, bytes, rfl, rfl⟩ := (transmits_iff hx).1 hs
  cases m with
  | data => exact ⟨bytes, rfl, rfl⟩
  | _ => cases hk

/-- What a step that leads to a stage was, or left behind: bytes of the application are asked for
where it has just announced them, and data that is to be sent is in flight. -/
def Stage.Due (h : Happening) (d : Connection) : Stage → Prop
  | .fetching => h = .answered (.wait .any) (.event .appData)
  | .sending .data bytes => d.inFlight = some (UInt32.ofNat bytes.length)
  | _ => True

theorem Passage.due (hp : Passage c₀ c x h d x') : x'.Due h d := by
  have harrival : ∀ a bytes, (Arrival.begin a bytes).2.Due h d := by
    intro a bytes
    obtain ⟨-, hb⟩ | ⟨-, hb⟩ := arrival_begin a bytes <;> rw [hb]
    · trivial
    · cases a <;> trivial
  cases hp with
  | again => trivial
  | opens _ _ hopen => obtain rfl | rfl := hopen <;> trivial
  | answered _ _ hpass =>
    cases hpass with
    | fetches => rfl
    | writes _ _ hf => exact hf
    | takesFin => exact harrival _ _
    | @accepts w =>
      cases w with
      | peerFin => exact harrival _ _
      | _ => trivial
    | @posts m => cases m <;> trivial
    | @hands a => cases a <;> trivial
    | _ => trivial

/-- **A connection is open once the handshake completes.** -/
theorem Passage.completes (h₀ : c₀.Free .listen) (hx : x.Fits c₀ c) (hx' : x'.Fits c₀ d)
    (hp : Passage c₀ c x h d x') (hd : d.state = .established) :
    c.state = .established ∨ Completes (staged (c, x), h) := by
  have hfollows : State.Follows c.state .established := hd ▸ hp.follows h₀ hx hx'
  cases hp with
  | again => exact .inl hd
  | opens first =>
    rw [first, h₀.state] at hfollows
    cases hfollows
  | answered hcall _ hpass =>
    have hstate := (hx.live_of_call hcall).state
    rw [hstate] at hfollows
    cases hpass with
    | @accepts w bytes s _ d' hs _ ha =>
      cases w with
      | data => exact .inl hstate
      | synAck =>
        exact .inr ⟨.synAck, s, d', ⟨rfl, Happening.segment_of_parse hs, ha⟩, .inl ⟨hstate, rfl⟩⟩
      | opening =>
        exact .inr ⟨.ack, s, d', ⟨rfl, Happening.segment_of_parse hs, ha⟩, .inr ⟨hstate, rfl⟩⟩
      | _ => cases hfollows
    | fails _ hkept => exact .inl (hkept.symm.trans hd)
    | @awaits w => exact .inl hd
    | @posts m _ _ _ _ hc =>
      cases m with
      | closeAck => cases hfollows
      | _ => exact .inl ((congrArg Connection.state (hc nofun)).symm.trans hd)
    | @hands a =>
      cases a with
      | data => exact .inl hstate
      | _ => cases hfollows
    | signals => cases hfollows
    | _ => exact .inl hstate

/-- What a session has behind it that sends data. -/
structure Opened (past : Past) : Prop where
  completes : ∃ q ∈ past, Completes q
  released : ∃ q ∈ past, q.2 = .answered .unblock .told

theorem Passage.released (hp : Passage c₀ c x h d x') (hr : x'.isReleased = true) :
    x.isReleased = true ∨ h = .answered .unblock .told := by
  cases hp with
  | again => cases hr
  | opens _ _ hopen => obtain rfl | rfl := hopen <;> cases hr
  | answered _ _ hpass => exact (hpass.released hr).imp_right fun ⟨hc, hr⟩ => by rw [hc, hr]

/-- **Data is sent only after the opening handshake.** -/
theorem opened_of_data (h₀ : c₀.Free .listen) (ht : Trail (staged (c₀, .ready)) past t)
    (hs : t.Transmits s) (hk : s.kind = .data) : Opened past := by
  obtain ⟨c, x, rfl, hx, hcompletes, hreleased⟩ := ht.induct
    (P := fun past c x => (c.state = .established → ∃ q ∈ past, Completes q) ∧
      (x.isReleased = true → ∃ q ∈ past, q.2 = .answered .unblock .told))
    h₀ rfl
    ⟨fun h => absurd (h₀.state.symm.trans h) nofun, nofun⟩
    (by
      intro past c x h d x' ⟨hcompletes, hreleased⟩ hx hx' hp
      refine ⟨fun hd => ?_, fun hr => ?_⟩
      · obtain hc | hq := hp.completes h₀ hx hx' hd
        · exact List.exists_mem_cons_of_exists (hcompletes hc)
        · exact List.exists_mem_cons_of _ hq
      · obtain hr | rfl := hp.released hr
        · exact List.exists_mem_cons_of_exists (hreleased hr)
        · exact List.exists_mem_cons_of _ rfl)
  obtain ⟨bytes, rfl, -⟩ := sends_data hx hs hk
  exact ⟨hcompletes hx.1.state, hreleased rfl⟩

theorem shut_of_fin (hx : x.Fits c₀ c) (hs : (staged (c, x)).Transmits s) (hk : s.kind = .fin) :
    c.state.isShut = true := by
  obtain ⟨m, bytes, rfl, rfl⟩ := (transmits_iff hx).1 hs
  rw [hx.1.state]
  cases m <;> first | rfl | cases hk

/-- **No data is sent after the FIN.** -/
theorem not_data_of_shut (h₀ : c₀.Free .listen) (hx : x.Fits c₀ c) (hc : c.state.isShut = true)
    (ht : Trail (staged (c, x)) past t) (hs : t.Transmits s) : s.kind ≠ .data := by
  intro hk
  obtain ⟨d, x', rfl, hx', hshut⟩ := ht.induct (P := fun _ c _ => c.state.isShut = true) h₀ hx hc
    (fun hshut hx hx' hp => (hp.follows h₀ hx hx').isShut hshut)
  obtain ⟨bytes, rfl, -⟩ := sends_data hx' hs hk
  rw [hx'.1.state] at hshut
  cases hshut

/-- **Where a session is that has sent data**, with the connection that sent it: it has taken the
acknowledgment in, or still waits for it, or has failed. -/
inductive SinceData (c : Connection) : Past → Connection → Stage → Prop where
  | sends {bytes : List UInt8} : SinceData c [] c (.sending .data bytes)
  | waits {past : Past} : SinceData c past c (.awaiting .data)
  | receives {past : Past} : SinceData c past c (.receiving .data)
  | acknowledged {past : Past} {d : Connection} {x : Stage} (h : ∃ q ∈ past, Acknowledges c q) :
    SinceData c past d x
  | failed {past : Past} {d : Connection} {e : Session.Error} (h : d.state ≠ .listen) :
    SinceData c past d (.failed e)

theorem SinceData.step (h₀ : c₀.Free .listen) (hc : c.state = .established)
    {a b : Connection} (hs : SinceData c past a x) (hx : x.Fits c₀ a) (hp : Passage c₀ a x h b x') :
    SinceData c ((staged (a, x), h) :: past) b x' := by
  by_cases hack : ∃ q ∈ past, Acknowledges c q
  · exact .acknowledged (List.exists_mem_cons_of_exists hack)
  have hne : ∀ {d : Connection}, d.state = c.state → d.state ≠ .listen := by
    intro d hd
    rw [hd, hc]
    decide
  have hleft : a.state ≠ .listen := by
    cases hs with
    | acknowledged h => exact absurd h hack
    | failed h => exact h
    | _ => exact hne rfl
  cases hp with
  | opens first =>
    -- the connection has left LISTEN, and does not open again
    exact absurd (first ▸ h₀.state) hleft
  | again => exact .failed hleft
  | answered hcall _ hpass =>
    cases hs with
    | acknowledged h => exact absurd h hack
    | failed => cases hcall
    | sends =>
      cases hpass with
      | fails _ hkept => exact .failed (hne hkept)
      | posts _ hd =>
        obtain rfl := hd nofun
        exact .waits
    | waits =>
      cases hpass with
      | fails _ hkept => exact .failed (hne hkept)
      | awaits => exact .receives
    | receives =>
      cases hpass with
      | fails _ hkept => exact .failed (hne hkept)
      | accepts hs hk ha =>
        have hfree := ((hx.live_of_call hcall).of_accept ha).2
        exact .acknowledged (List.exists_mem_cons_of _ ⟨rfl, _, _,
          ⟨rfl, Happening.segment_of_parse hs, ha⟩, Kind.ack_of_accepts hk rfl, hfree.flight⟩)

/-- **Between two data segments, the first one is acknowledged.** -/
theorem acknowledged_between (h₀ : c₀.Free .listen) (hx : (Stage.sending .data bytes).Fits c₀ c)
    (ht : Trail (staged (c, .sending .data bytes)) past t) (hpast : past ≠ [])
    (hs : t.Transmits s) (hk : s.kind = .data) : ∃ q ∈ past, Acknowledges c q := by
  obtain ⟨d, x, rfl, hfits, hsince⟩ := ht.induct (P := SinceData c) h₀ hx .sends
    (fun hs hy _ hp => hs.step h₀ hx.1.state hy hp)
  obtain ⟨bytes', rfl, -⟩ := sends_data hfits hs hk
  cases hsince with
  | sends => exact absurd rfl hpast
  | acknowledged h => exact h

/-- **Stop and wait.** A session is run as often as one likes, and its stack answers as it likes.

It waits for anything only while its connection is open and has nothing on its way, and has room for
a full segment; then, and at no other time, it may ask its application for bytes. All its other
waits are for the network.

When it sends data, the opening handshake has completed, and its application has been released. It
sends no data after its FIN. And between any two calls that send data, there is a segment that
acknowledges the first. -/
theorem stop_and_wait (settings : Settings) (role : Role) (sink : Option Log.Sink)
    (h : Trail (opened settings role sink) past t) :
    (∀ mask, t.call? = some (.wait mask) →
      (mask = .any ∧ t.connection.Quiet) ∨ (mask = .networkOnly ∧ t.connection.AwaitsPeer)) ∧
    (∀ n, t.call? = some (.appRecv n) → n = mss.toNat ∧
      ∃ u before, past = (u, .answered (.wait .any) (.event .appData)) :: before) ∧
    (∀ s, t.Transmits s → s.kind = .data → Opened past) ∧
    ∀ {past' v s}, Trail t past' v → v.Transmits s → s.kind = .data →
      (∀ fin, t.Transmits fin → fin.kind ≠ .fin) ∧
      ∀ first, t.Transmits first → first.kind = .data → past' ≠ [] →
        t.connection.inFlight = some (UInt32.ofNat first.payload.length) ∧
        ∃ q ∈ past', Acknowledges t.connection q := by
  have h₀ := Connection.opened_free settings role sink
  rw [opened_eq] at h
  have hopened : ∀ s, t.Transmits s → s.kind = .data → Opened past :=
    fun s hs hk => opened_of_data h₀ h hs hk
  obtain ⟨c, x, rfl, hx, hdue⟩ := h.induct
    (P := fun past c x => x = .ready ∨ ∃ u g before, past = (u, g) :: before ∧ x.Due g c)
    h₀ rfl (.inl rfl) (fun _ _ _ hp => .inr ⟨_, _, _, rfl, hp.due⟩)
  refine ⟨fun _ hw => wait_cases hx hw, fun n hn => ?_, hopened, fun htrail hv hk => ⟨?_, ?_⟩⟩
  · obtain rfl : x = .fetching := by cases x <;> first | rfl | cases hn
    cases hn
    have hfree : c.Free .established := hx.1.free rfl
    obtain hr | ⟨u, g, before, rfl, rfl⟩ := hdue
    · cases hr
    · exact ⟨hfree.balanced.budget_eq hfree.flight, u, before, rfl⟩
  · intro fin hfin hkind
    exact not_data_of_shut h₀ hx (shut_of_fin hx hfin hkind) htrail hv hk
  · intro first hfirst hkfirst hpast
    obtain ⟨bytes, rfl, rfl⟩ := sends_data hx hfirst hkfirst
    obtain hr | ⟨u, g, before, rfl, hin⟩ := hdue
    · cases hr
    · exact ⟨hin, acknowledged_between h₀ hx htrail hpast hv hk⟩

/-- A stack with which an active session opens, and has a byte to send. -/
def oneByte : List Response :=
  [.sent 20, .event .networkData, .bytes (blank .synAck []), .sent 20, .told, .event .appData,
    .bytes [65]]

/-- A stack that brings the acknowledgment of a byte, and has another to send. -/
def anotherByte : List Response :=
  [.sent 21, .event .networkData, .bytes (blank .ack []), .event .appData, .bytes [66]]

/-- A session that sends two bytes waits for the acknowledgment of the first. -/
theorem stop_and_wait_bytes : ∃ past t past' v first second,
    Trail (opened {} .active none) past t ∧ Trail t past' v ∧ t.Transmits first ∧
    first.payload = [65] ∧ v.Transmits second ∧ second.payload = [66] ∧ Opened past ∧
    t.connection.inFlight = some 1 ∧ ∃ q ∈ past', Acknowledges t.connection q := by
  have hfirst : rehearse {} .active none oneByte = some (_, _) := rfl
  have hone := reaches_rehearse hfirst
  have htwo := (reaches_self hone.fits).hear (show hear [] _ anotherByte = some (_, _) from rfl)
  have hsends := (transmits_iff hone.fits).2 ⟨.data, [65], rfl, rfl⟩
  have hsends' := (transmits_iff htwo.fits).2 ⟨.data, [66], rfl, rfl⟩
  obtain ⟨-, -, hopened, hbetween⟩ := stop_and_wait {} .active none hone.trail
  obtain ⟨hflight, hack⟩ := (hbetween htwo.trail hsends' rfl).2 _ hsends rfl (List.cons_ne_nil _ _)
  exact ⟨_, _, _, _, _, _, hone.trail, htwo.trail, hsends, rfl, hsends', rfl,
    hopened _ hsends rfl, hflight, hack⟩

end Session

end StopWait
