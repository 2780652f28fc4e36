import StopWait.Proofs.Moves
import StopWait.Proofs.Opening

/-!
# When calls are answered

A call of a session is answered at once, as soon as something waits for it, or once the datagram
that it sends is due. The applications have their calls answered likewise.

* `World.CanMove`: a task that can make its next move, now or later.
* `listen_isSome`, `listen_none`: **when a wait is answered**, and what is left when it is not.
* `moves_of_stirs`, `moves_of_idle`, `canMove_of_sending`: the moves of a session.
* `actApp_of_room`: a request that has room.
-/

namespace StopWait.Link

open Session (Stage Party Message staged)

/-- A task that can make its next move once it is late enough. -/
def World.CanMove (w : World) (task : Task) : Prop :=
  ∃ due, ∀ now, due ≤ now → ((w.atTime now).act task).2 = true

namespace Endpoint

variable {e : Endpoint} {gone : Bool} {mask : Interest}

/-- **A wait for datagrams is answered when one waits.** -/
theorem listen_isSome (hm : mask.network = true) (hq : e.queue ≠ [])
    (hc : e.networkClosed = false) : (e.listen gone mask).2.isSome = true := by
  fun_induction listen e gone mask with
  | case1 => rfl
  | case2 e hv hi =>
    -- the datagram would have been taken in
    have hslot := slot_of_verdict hm hv
    have hhears : e.hearsNetwork mask = true := by simp [hearsNetwork, hm, hc]
    cases hin : e.inbox with
    | nil => exact absurd (by simp [queue, hslot, hin]) hq
    | cons d rest => simp [intake, hhears, intakeDatagram, hin] at hi
  | case3 e hv f hi ih =>
    have hsame : e.Same gone f := same_intake hv hi
    refine ih (hsame.queue ▸ hq) ?_
    cases hf : f.networkClosed with
    | false => rfl
    | true =>
      obtain h | ⟨-, h⟩ := hsame.shuts hf
      · cases hc.symm.trans h
      · exact absurd h hq

/-- Where nothing is ready, nothing can be read and no close has been seen. -/
theorem of_available_none (h : e.available .any = none) :
    e.buffer = [] ∧ e.closeRequested = false := by
  simp only [available, Interest.any, Bool.true_and] at h
  split at h
  · cases h
  · split at h
    · cases h
    · rename_i hb
      have hnil : e.buffer = [] := by simpa using hb
      split at h
      · cases h
      · rename_i hc
        exact ⟨hnil, by simpa [hnil] using hc⟩

/-- **A wait for anything that is not answered leaves no request.** -/
theorem listen_none (h : (e.listen gone .any).2 = none) :
    (e.listen gone .any).1.requests = [] ∧ (e.listen gone .any).1.pledged = none := by
  generalize hm : Interest.any = mask at h ⊢
  fun_induction listen e gone mask with
  | case1 => cases h
  | case2 e hv hi =>
    subst hm
    have hav : e.available .any = none := by
      unfold verdict at hv
      split at hv
      · cases hv
      · assumption
    obtain ⟨hbuffer, hclose⟩ := of_available_none hav
    -- the wait would have gone on with a request
    have hreq : e.intakeRequest = none := by
      have hhears : e.hearsApp .any = true := by simp [hearsApp, Interest.any, Interest.anyApp, hclose]
      simp only [intake, hhears, if_true] at hi
      split at hi
      · cases hi
      · exact hi
    unfold intakeRequest at hreq
    split at hreq
    · cases hreq
    · cases hreq
    · rename_i hr
      split at hreq
      · cases hreq
      · rename_i happ
        exact ⟨hr, by simp [pledged, hclose, hr, uptoClose, happ]⟩
  | case3 e hv f hi ih => exact ih h

end Endpoint

variable {l : Link} {w : World} {side : Side} {c : Connection} {x : Stage} {p : Party} {q : Point}
  {left : Nat} {results : List (Except Session.Error Unit)} {timer : Option Nat} {mask : Interest}

/-- What a wait comes to is what listening comes to. -/
theorem attempt_wait_eq {e : Endpoint} {answer : Option (Except Call.Failure Event)}
    (h : (l.ends.get side).listen (l.peerGone side) mask = (e, answer))
    (hidle : (l.ends.get side).idleTimeout = none) :
    l.attempt side timer (.wait mask) =
      (l.setEnd side e, answer.elim (.blocked none) .ready) := by
  have hsame := ((l.ends.get side).listen_spec (l.peerGone side) mask).1
  rw [h] at hsame
  have hnone : e.idleTimeout = none := hsame.idle.trans hidle
  simp only [attempt, attemptWait, h]
  cases answer with
  | some answer => rfl
  | none =>
    simp only [hnone]
    rfl

theorem attempt_wait (hm : mask.network = true) (hq : (l.ends.get side).queue ≠ [])
    (hc : (l.ends.get side).networkClosed = false) (hidle : (l.ends.get side).idleTimeout = none) :
    ∃ a, (l.attempt side timer (.wait mask)).2 = .ready a := by
  have hsome := @Endpoint.listen_isSome _ (l.peerGone side) mask hm hq hc
  rcases hl : (l.ends.get side).listen (l.peerGone side) mask with ⟨e, answer⟩
  rw [hl] at hsome
  obtain ⟨a, rfl⟩ := Option.isSome_iff_exists.1 hsome
  exact ⟨a, by rw [attempt_wait_eq hl hidle]; rfl⟩

theorem attempt_recv {n : Nat} (hq : (l.ends.get side).queue ≠ []) :
    ∃ a, (l.attempt side timer (.networkRecv n)).2 = .ready a := by
  simp only [attempt, attemptRecv, Endpoint.recv]
  cases hs : (l.ends.get side).slot with
  | some d => exact ⟨_, rfl⟩
  | none =>
    cases hi : (l.ends.get side).inbox with
    | cons d rest => exact ⟨_, rfl⟩
    | nil => exact absurd (by simp [Endpoint.queue, hs, hi]) hq

theorem act_of_answered
    (hd : (w.hosts.get side).driver = .session (staged (c, x)) left results)
    (hf : (w.hosts.get side).finished = false) (hp : x.status c = .suspended q)
    (ha : ∃ a, (w.link.attempt side (w.hosts.get side).timer (q.call c)).2 = .ready a) :
    (w.actStack side).2 = true := by
  obtain ⟨a, ha⟩ := ha
  have hx : x.rests = false := Stage.rests_of_suspended hp
  have hst : staged (c, x) = ⟨c, .suspended q⟩ := by rw [staged, hp]
  rw [actStack_session w side hd hf (.inl hx), hst]
  simp only [World.actSession, Session.point?]
  rcases hr : w.link.attempt side (w.hosts.get side).timer (q.call c) with ⟨m, progress⟩
  rw [hr] at ha
  obtain rfl : progress = .ready a := ha
  rfl

/-- **A party that stirs moves**, unless it has a segment to send. -/
theorem moves_of_stirs
    (hd : (w.hosts.get side).driver = .session (staged (p.connection, p.stage)) left results)
    (hf : (w.hosts.get side).finished = false) (hleft : p.stage = .ready → left ≠ 0)
    (hq : p.mail ≠ [] → (w.link.ends.get side).queue ≠ [])
    (hc : (w.link.ends.get side).networkClosed = true → (w.link.ends.get side).queue = [])
    (hidle : (w.link.ends.get side).idleTimeout = none) (hs : p.Stirs)
    (hsend : ∀ m bytes, p.stage ≠ .sending m bytes) : (w.actStack side).2 = true := by
  -- a datagram that waits is heard
  have hopen : (w.link.ends.get side).queue ≠ [] →
      (w.link.ends.get side).networkClosed = false := by
    intro hne
    rw [← Bool.not_eq_true]
    exact fun h => hne (hc h)
  obtain ⟨c, x, mail⟩ := p
  cases x with
  | failed | ended => exact hs.elim
  | sending m bytes => exact absurd rfl (hsend m bytes)
  | ready =>
    rw [actStack_session w side hd hf (.inr (hleft rfl))]
    rfl
  | idle =>
    have hne := hq hs
    exact act_of_answered hd hf rfl (attempt_wait rfl hne (hopen hne) hidle)
  | awaiting w =>
    have hne := hq hs
    exact act_of_answered hd hf rfl (attempt_wait rfl hne (hopen hne) hidle)
  | reading => exact act_of_answered hd hf rfl (attempt_recv (hq hs))
  | receiving w => exact act_of_answered hd hf rfl (attempt_recv (hq hs))
  | fetching => exact act_of_answered hd hf rfl ⟨_, rfl⟩
  | delivering a bytes => exact act_of_answered hd hf rfl ⟨_, rfl⟩
  | signalling bytes => exact act_of_answered hd hf rfl ⟨_, rfl⟩
  | unblocking bytes => exact act_of_answered hd hf rfl ⟨_, rfl⟩

/-- A network that loses nothing. -/
def Network.Lossless : Network → Prop
  | .reliable | .latent _ => True
  | .unreliable .. => False

theorem Network.Lossless.dispatch {n : Network} (h : n.Lossless) :
    ∃ delay, n.dispatch = (.due delay, n) := by
  cases n with
  | reliable => exact ⟨0, rfl⟩
  | latent delay => exact ⟨_, rfl⟩
  | unreliable => exact h.elim

/-- A datagram that is due reaches the peer's queue if there is room. -/
theorem attemptDelivery_of_due {d : List UInt8} {due : Nat}
    (hthere : (l.ends.get side.other).stackGone = false)
    (hroom : (l.ends.get side.other).inbox.length < inboxCapacity) (hdue : due ≤ l.now) :
    (l.attemptDelivery side d due).2 = .ready (.ok d.length) := by
  rw [attemptDelivery, if_neg (Nat.not_lt.2 hdue)]
  obtain ⟨hgone, -⟩ | ⟨-, -, he⟩ | ⟨-, hfull, -⟩ := (l.ends.get side.other).enqueue_cases d
  · cases hthere.symm.trans hgone
  · rw [he]
  · omega

/-- A datagram that is handed to a lossless network is under way. -/
theorem attemptSend_of_lossless {d : List UInt8} {delay : Nat}
    (h : l.network.dispatch = (.due delay, l.network)) :
    l.attemptSend side d none =
      { l with handed := d :: l.handed }.attemptDelivery side d (l.now + delay) := by
  simp only [attemptSend, handOver, h]

/-- **A session whose datagram is due moves.** -/
theorem moves_of_due {m : Message} {bytes : List UInt8} {due : Nat}
    (hd : (w.hosts.get side).driver =
      .session (staged (c, .sending m bytes)) left results)
    (hf : (w.hosts.get side).finished = false) (ht : (w.hosts.get side).timer = some due)
    (hthere : (w.link.ends.get side.other).stackGone = false)
    (hroom : (w.link.ends.get side.other).inbox.length < inboxCapacity)
    (hdue : due ≤ w.link.now) : (w.actStack side).2 = true := by
  have hattempt : ∀ d, (w.link.attempt side (w.hosts.get side).timer (.networkSend d)).2 =
      .ready (.ok d.length) := by
    intro d
    rw [ht]
    exact attemptDelivery_of_due hthere hroom hdue
  exact act_of_answered hd hf rfl ⟨_, hattempt _⟩

/-- A session whose datagram is under way moves when it is due. -/
theorem canMove_of_due {m : Message} {bytes : List UInt8} {due : Nat}
    (hd : (w.hosts.get side).driver =
      .session (staged (c, .sending m bytes)) left results)
    (hf : (w.hosts.get side).finished = false) (ht : (w.hosts.get side).timer = some due)
    (hthere : (w.link.ends.get side.other).stackGone = false)
    (hroom : (w.link.ends.get side.other).inbox.length < inboxCapacity) :
    w.CanMove (.stack side) :=
  ⟨due, fun now hnow => moves_of_due (w := w.atTime now) hd hf ht hthere hroom hnow⟩

/-- **A session that sends on a lossless network moves**, perhaps after its datagram has been on its
way for some time. -/
theorem canMove_of_sending {m : Message} {bytes : List UInt8}
    (hd : (w.hosts.get side).driver =
      .session (staged (c, .sending m bytes)) left results)
    (hf : (w.hosts.get side).finished = false) (hnet : w.link.network.Lossless)
    (hthere : (w.link.ends.get side.other).stackGone = false)
    (hroom : (w.link.ends.get side.other).inbox.length < inboxCapacity) :
    w.CanMove (.stack side) ∨ (w.move (.turn (.stack side))).CanMove (.stack side) := by
  cases ht : (w.hosts.get side).timer with
  | some due => exact .inl (canMove_of_due hd hf ht hthere hroom)
  | none =>
    obtain ⟨delay, hdispatch⟩ := hnet.dispatch
    by_cases hdelay : delay = 0
    · -- the datagram is due at once
      subst hdelay
      refine .inl ⟨0, fun now _ => ?_⟩
      have hattempt : ∀ d, ((w.atTime now).link.attempt side (w.hosts.get side).timer
          (.networkSend d)).2 = .ready (.ok d.length) := by
        intro d
        have hsend := @attemptSend_of_lossless (w.atTime now).link side d 0 hdispatch
        rw [ht]
        exact (congrArg Prod.snd hsend).trans (attemptDelivery_of_due
          (l := { (w.atTime now).link with handed := d :: w.link.handed }) hthere hroom
          (Nat.le_refl _))
      show ((w.atTime now).actStack side).2 = true
      exact act_of_answered hd hf rfl ⟨_, hattempt _⟩
    · -- the first try hands the datagram over, and a later one finds it due
      right
      have hblocked : ∀ d, w.link.attempt side none (.networkSend d) =
          ({ w.link with handed := d :: w.link.handed }, .blocked (some (w.link.now + delay))) := by
        intro d
        have hlate : w.link.now < w.link.now + delay := by omega
        refine (attemptSend_of_lossless hdispatch).trans ?_
        rw [attemptDelivery]
        exact if_pos hlate
      obtain ⟨l', hends, hhold⟩ : ∃ l', l'.ends = w.link.ends ∧
          (w.actStack side).1 = w.hold side l' (some (w.link.now + delay)) := by
        refine ⟨{ w.link with handed := (c.reissue m.kind (m.payload bytes)).serialize ::
          w.link.handed }, rfl, ?_⟩
        rw [actStack_session w side hd hf (.inl rfl), ht]
        have hst : staged (c, .sending m bytes) = ⟨c, .suspended
            (.sending (c.reissue m.kind (m.payload bytes)) (m.todo bytes))⟩ := rfl
        simp only [hst, World.actSession, Session.point?, Point.call, hblocked]
      have hmove : w.move (.turn (.stack side)) = w.hold side l' (some (w.link.now + delay)) := hhold
      rw [hmove]
      refine @canMove_of_due _ side c left results m bytes (w.link.now + delay) ?_ ?_ ?_ ?_ ?_ <;>
        simp only [World.hold, World.setStack, Both.get_set_self, hends]
      · exact hd
      · exact hf
      · exact hthere
      · exact hroom

/-- **An idle session moves, or its try leaves no request.** -/
theorem moves_of_idle
    (hd : (w.hosts.get side).driver = .session (staged (c, .idle)) left results)
    (hf : (w.hosts.get side).finished = false)
    (hidle : (w.link.ends.get side).idleTimeout = none) :
    (∀ now, ((w.atTime now).actStack side).2 = true) ∨
      (((w.actStack side).1.link.ends.get side).requests = [] ∧
        ((w.actStack side).1.link.ends.get side).pledged = none ∧
        ((w.actStack side).1.link.ends.get side).stackGone =
          (w.link.ends.get side).stackGone) := by
  have hnone := @Endpoint.listen_none (w.link.ends.get side) (w.link.peerGone side)
  have hsame := ((w.link.ends.get side).listen_spec (w.link.peerGone side) .any).1
  rcases hl : (w.link.ends.get side).listen (w.link.peerGone side) .any with ⟨e, answer⟩
  rw [hl] at hnone hsame
  cases answer with
  | some answer =>
    refine .inl fun now => ?_
    have hattempt := @attempt_wait_eq (w.atTime now).link side (w.hosts.get side).timer .any e
      (some answer) hl hidle
    exact act_of_answered (w := w.atTime now) hd hf rfl ⟨answer, congrArg Prod.snd hattempt⟩
  | none =>
    right
    have hblocked := @attempt_wait_eq w.link side (w.hosts.get side).timer .any e none hl hidle
    have hact : (w.actStack side).1 = w.hold side (w.link.setEnd side e) none := by
      rw [actStack_session w side hd hf (.inl rfl)]
      have hst : staged (c, .idle) = ⟨c, .suspended .idle⟩ := rfl
      simp only [hst, World.actSession, Session.point?, Point.call, hblocked, Option.elim]
    rw [hact]
    simp only [World.hold, World.setStack, setEnd, Both.get_set_self]
    exact ⟨(hnone rfl).1, (hnone rfl).2, hsame.stack⟩

/-- A request that has room is queued. -/
theorem attempt_request {e : Endpoint} (r : Request) (hthere : e.stackGone = false)
    (hroom : e.requests.length < requestCapacity) :
    r.call.attempt e = ({ e with requests := e.requests ++ [r] }, .ok .done) := by
  obtain ⟨hgone, hr⟩ | ⟨-, -, hr⟩ | ⟨-, hfull, -⟩ := request_cases e r
  · cases hthere.symm.trans hgone
  · cases r <;> simp only [Request.call, AppCall.attempt, hr]
  · omega

/-- **An application whose request has room moves.** -/
theorem actApp_of_room {r : Request} {rest : List AppStep}
    (hs : (w.apps.get side).script = .call r.call :: rest)
    (happ : (w.link.ends.get side).appGone = false)
    (hthere : (w.link.ends.get side).stackGone = false)
    (hroom : (w.link.ends.get side).requests.length < requestCapacity) :
    w.actApp side =
      (World.replyApp
        { w with
          link := w.link.setEnd side { w.link.ends.get side with
            requests := (w.link.ends.get side).requests ++ [r] } }
        side rest .done, true) := by
  simp only [World.actApp, hs, happ, attemptApp, attempt_request r hthere hroom,
    Bool.false_eq_true, if_false]

theorem canMove_app {r : Request} {rest : List AppStep}
    (hs : (w.apps.get side).script = .call r.call :: rest)
    (happ : (w.link.ends.get side).appGone = false)
    (hthere : (w.link.ends.get side).stackGone = false)
    (hroom : (w.link.ends.get side).requests.length < requestCapacity) :
    w.CanMove (.app side) :=
  ⟨0, fun now _ => congrArg Prod.snd (actApp_of_room (w := w.atTime now) hs happ hthere hroom)⟩

end StopWait.Link
