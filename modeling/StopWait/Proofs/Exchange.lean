import StopWait.Link.Basic
import StopWait.Proofs.Stage

/-!
# Exchanges of a stack

What an answered call of a stack makes of the two endpoints of a link.

* `Endpoint.queue`, `Endpoint.unread`, `Endpoint.pledged`: the datagrams that wait, the bytes that
  the application wrote and nobody read, and those of them that come before a close.
* `Endpoint.listen_spec`: **a wait keeps all of these and reports what is ready.**
* `Exchange`: the answers that a stack may give, with the endpoints before and after.
  `Exchange.of_wait`, `of_recv`, `of_read`, `of_send`, `of_notice`: those to one kind of call.
* `attempt_ready`, `attempt_blocked`: a call that is answered is an exchange, and one that has to
  wait changes nothing that matters.
-/

namespace StopWait.Link

/-- The bytes that requests ask to send. -/
def Request.bytes : Request → List UInt8
  | .write bytes => bytes
  | .close => []

/-- The bytes of the requests before the first close, if there is a close. -/
def uptoClose : List Request → Option (List UInt8)
  | [] => none
  | .close :: _ => some []
  | .write bytes :: rest => (uptoClose rest).map (bytes ++ ·)

namespace Endpoint

/-- The datagrams that wait, in the order in which they came. -/
def queue (e : Endpoint) : List (List UInt8) := e.slot.toList ++ e.inbox

/-- The bytes that the application wrote and nobody has read. -/
def unread (e : Endpoint) : List UInt8 := e.buffer ++ e.requests.flatMap Request.bytes

/-- The unread bytes that come before a close, if there is a close. The end of the requests is one
once the handle is gone. -/
def pledged (e : Endpoint) : Option (List UInt8) :=
  if e.closeRequested then some e.buffer
  else
    match uptoClose e.requests with
    | some bytes => some (e.buffer ++ bytes)
    | none => if e.appGone then some e.unread else none

/-- **Two endpoints that differ in what a wait may change at most**: bytes are added to those that
can be read, and the end of the queue is seen only when the peer is gone and nothing is left. -/
structure Same (gone : Bool) (e f : Endpoint) : Prop where
  queue : f.queue = e.queue
  buffer : e.buffer <+: f.buffer
  unread : f.unread = e.unread
  pledged : f.pledged = e.pledged
  events : f.events = e.events
  idle : f.idleTimeout = e.idleTimeout
  stack : f.stackGone = e.stackGone
  app : f.appGone = e.appGone
  shuts : f.networkClosed = true → e.networkClosed = true ∨ gone = true ∧ e.queue = []

variable {e f g : Endpoint} {gone : Bool} {mask : Interest}

theorem Same.refl (e : Endpoint) : e.Same gone e :=
  ⟨rfl, List.prefix_refl _, rfl, rfl, rfl, rfl, rfl, rfl, .inl⟩

theorem Same.trans (h : e.Same gone f) (k : f.Same gone g) : e.Same gone g :=
  ⟨k.queue.trans h.queue, h.buffer.trans k.buffer, k.unread.trans h.unread,
    k.pledged.trans h.pledged, k.events.trans h.events, k.idle.trans h.idle,
    k.stack.trans h.stack, k.app.trans h.app,
    fun hc => (k.shuts hc).elim h.shuts fun ⟨hg, hq⟩ => .inr ⟨hg, h.queue ▸ hq⟩⟩

/-- A datagram goes from the inbox to the empty slot, or the end of the queue is seen. -/
theorem same_intakeDatagram (hs : e.slot = none) (h : e.intakeDatagram gone = some f) :
    e.Same gone f := by
  unfold intakeDatagram at h
  split at h
  · rename_i d rest hi
    obtain rfl := Option.some.inj h
    refine ⟨?_, List.prefix_refl _, rfl, rfl, rfl, rfl, rfl, rfl, .inl⟩
    simp [queue, hs, hi]
  · rename_i hi
    split at h
    · rename_i hg
      obtain rfl := Option.some.inj h
      exact ⟨rfl, List.prefix_refl _, rfl, rfl, rfl, rfl, rfl, rfl,
        fun _ => .inr ⟨hg, by simp [queue, hs, hi]⟩⟩
    · cases h

/-- The bytes of a request go to the buffer, or a close is seen. -/
theorem same_intakeRequest (hc : e.closeRequested = false) (h : e.intakeRequest = some f) :
    e.Same gone f := by
  unfold intakeRequest at h
  split at h
  · rename_i bytes rest hr
    obtain rfl := Option.some.inj h
    refine ⟨rfl, List.prefix_append _ _, ?_, ?_, rfl, rfl, rfl, rfl, .inl⟩
    · simp [unread, hr, Request.bytes]
    · -- the bytes move on, and so do those before a close
      simp only [pledged, hc, hr, uptoClose, unread, Bool.false_eq_true, if_false]
      cases uptoClose rest <;> simp [Request.bytes]
  · rename_i rest hr
    obtain rfl := Option.some.inj h
    refine ⟨rfl, List.prefix_refl _, ?_, ?_, rfl, rfl, rfl, rfl, .inl⟩
    · simp [unread, hr, Request.bytes]
    · simp [pledged, hc, hr, uptoClose]
  · rename_i hr
    split at h
    · rename_i hg
      obtain rfl := Option.some.inj h
      refine ⟨rfl, List.prefix_refl _, rfl, ?_, rfl, rfl, rfl, rfl, .inl⟩
      simp [pledged, hc, hr, hg, uptoClose, unread]
    · cases h

/-- A wait that looks at the network goes on only while no datagram has been taken off the queue. -/
theorem slot_of_verdict (hm : mask.network = true) (h : e.verdict mask = none) :
    e.slot = none := by
  unfold verdict available at h
  rw [hm] at h
  cases hs : e.slot with
  | none => rfl
  | some d => simp [hs] at h

/-- **What a wait takes in keeps what waits.** -/
theorem same_intake (hv : e.verdict mask = none) (h : e.intake gone mask = some f) :
    e.Same gone f := by
  simp only [intake] at h
  split at h
  · rename_i d hd
    obtain rfl := Option.some.inj h
    split at hd
    · rename_i hw
      simp only [hearsNetwork, Bool.and_eq_true] at hw
      exact same_intakeDatagram (slot_of_verdict hw.1 hv) hd
    · cases hd
  · split at h
    · rename_i hw
      simp only [hearsApp, Bool.and_eq_true, Bool.not_eq_true'] at hw
      exact same_intakeRequest hw.2 h
    · cases h

/-- **A wait keeps what waits**, and what it reports is ready. -/
theorem listen_spec (e : Endpoint) (gone : Bool) (mask : Interest) :
    e.Same gone (e.listen gone mask).1 ∧
    (∀ event, (e.listen gone mask).2 = some (.ok event) →
      (e.listen gone mask).1.available mask = some event) ∧
    (∀ failure, (e.listen gone mask).2 = some (.error failure) →
      failure = .disconnected ∧
        (mask.network = true → (e.listen gone mask).1.networkClosed = true)) := by
  fun_induction listen e gone mask with
  | case1 e answer hv =>
    refine ⟨.refl e, ?_⟩
    unfold verdict at hv
    split at hv
    · -- something is ready
      rename_i ha
      cases hv
      refine ⟨fun event he => ?_, by simp⟩
      cases he
      exact ha
    · split at hv
      · cases hv
      · -- neither the network nor the application is heard any more
        rename_i hdeaf
        cases hv
        refine ⟨by simp, fun failure he => ?_⟩
        cases he
        refine ⟨rfl, fun hm => ?_⟩
        simp only [hearsNetwork, hm, Bool.true_and, Bool.or_eq_true, not_or, Bool.not_eq_true',
          Bool.not_eq_false] at hdeaf
        exact hdeaf.1
  | case2 e hv hi => exact ⟨.refl e, by simp, by simp⟩
  | case3 e hv f hi ih =>
    have hsame : e.Same gone f := same_intake hv hi
    exact ⟨hsame.trans ih.1, ih.2⟩

/-- **What an event reports**: a datagram that waits, bytes that can be read, or a close. -/
theorem of_available {event : Event} (h : e.available mask = some event) :
    (event = .networkData ∧ e.queue ≠ []) ∨ (event = .appData ∧ e.buffer ≠ []) ∨
      (event = .appCloseRequested ∧ e.pledged = some []) := by
  unfold available at h
  split at h
  · rename_i hs
    cases h
    simp only [Bool.and_eq_true, Option.isSome_iff_exists] at hs
    obtain ⟨-, d, hd⟩ := hs
    exact .inl ⟨rfl, by simp [queue, hd]⟩
  · split at h
    · rename_i hb
      cases h
      simp only [Bool.and_eq_true, Bool.not_eq_true', List.isEmpty_eq_false_iff] at hb
      exact .inr (.inl ⟨rfl, hb.2⟩)
    · split at h
      · rename_i hc
        cases h
        simp only [Bool.and_eq_true, List.isEmpty_iff] at hc
        exact .inr (.inr ⟨rfl, by rw [pledged, if_pos hc.1.2, hc.2]⟩)
      · cases h

end Endpoint

open Session (Response response)

@[simp] theorem Side.other_other (s : Side) : s.other.other = s := by cases s <;> rfl

@[simp] theorem Both.get_set_of_other {α : Type} (b : Both α) (s : Side) (a : α) :
    (b.set s.other a).get s = b.get s := by
  cases s <;> rfl

/-- The notice that a call gives to the application. -/
def noticeOf : Call → Option Notice
  | .appSend bytes => some (.data bytes)
  | .finReceived => some .peerFin
  | .unblock => some .connected
  | _ => none

/-- The bytes that an exchange brings from the application. -/
def readBytes : Call → Response → List UInt8
  | .appRecv _, .bytes bytes => bytes
  | _, _ => []

/-- The bytes that a call hands to the application. -/
def handedBytes : Call → List UInt8
  | .appSend bytes => bytes
  | _ => []

/-- The bytes that the application takes in an exchange. -/
def deliveredBytes : Call → Response → List UInt8
  | .appSend bytes, .told => bytes
  | _, _ => []

/-- **The answers that a stack may give**, with its endpoint `e` and the peer's `f` before and
after. A datagram can be lost if `losable`. -/
inductive Exchange (losable : Prop) (e f : Endpoint) :
    Call → Response → Endpoint → Endpoint → Prop where
  | event {mask : Interest} {e' : Endpoint} {event : Event} (heard : e.Same f.stackGone e')
    (ready : e'.available mask = some event) : Exchange losable e f (.wait mask) (.event event) e' f
  | timeout {mask : Interest} {e' : Endpoint} (heard : e.Same f.stackGone e') (idle : e.idleTimeout ≠ none) :
    Exchange losable e f (.wait mask) (.event .timeout) e' f
  | deaf {mask : Interest} {e' : Endpoint} (heard : e.Same f.stackGone e')
    (closed : mask.network = true → e'.networkClosed = true) :
    Exchange losable e f (.wait mask) (.failed .disconnected) e' f
  | sent {d : List UInt8} (there : f.stackGone = false) :
    Exchange losable e f (.networkSend d) (.sent d.length) e { f with inbox := f.inbox ++ [d] }
  | lost {d : List UInt8} (h : losable) : Exchange losable e f (.networkSend d) (.sent d.length) e f
  | unsendable {d : List UInt8} (gone : f.stackGone = true) :
    Exchange losable e f (.networkSend d) (.failed .receiverDropped) e f
  | received {n : Nat} {d : List UInt8} {e' : Endpoint} (taken : e.queue = d :: e'.queue)
    (kept : { e with slot := none, inbox := [] } = { e' with slot := none, inbox := [] }) :
    Exchange losable e f (.networkRecv n) (.bytes (d.take n)) e' f
  | empty {n : Nat} (h : e.queue = []) (gone : f.stackGone = true) :
    Exchange losable e f (.networkRecv n) (.failed .disconnected) e f
  | read {n : Nat} : Exchange losable e f (.appRecv n) (.bytes (e.buffer.take n))
    { e with buffer := e.buffer.drop n } f
  | told {c : Call} {notice : Notice} (h : noticeOf c = some notice) (there : e.appGone = false) :
    Exchange losable e f c .told { e with events := e.events ++ [notice] } f
  | untold {c : Call} {notice : Notice} (h : noticeOf c = some notice) (gone : e.appGone = true) :
    Exchange losable e f c (.failed .applicationGone) e f

/-- An answered call has the response of an answer. -/
theorem Exchange.answer {losable : Prop} {e e' f f' : Endpoint} {call : Call} {r : Response}
    (h : Exchange losable e f call r e' f') : ∃ a, r = response call a := by
  cases h with
  | event | timeout => exact ⟨.ok _, rfl⟩
  | deaf | unsendable | empty => exact ⟨.error _, rfl⟩
  | sent | lost => exact ⟨.ok _, rfl⟩
  | received | read => exact ⟨.ok _, rfl⟩
  | told h => cases call <;> first | exact ⟨.ok (), rfl⟩ | cases h
  | untold => cases call <;> exact ⟨.error _, rfl⟩

section calls

variable {losable : Prop} {e e' f f' : Endpoint} {r : Response} {mask : Interest} {n : Nat}
  {d : List UInt8} {c : Call}

/-- **An answered wait** has listened, and reports what is ready, or a timeout, or it is deaf. -/
theorem Exchange.of_wait (h : Exchange losable e f (.wait mask) r e' f') :
    e.Same f.stackGone e' ∧
      ((∃ event, r = .event event ∧ e'.available mask = some event) ∨
        (r = .event .timeout ∧ e.idleTimeout ≠ none) ∨
        (r = .failed .disconnected ∧ (mask.network = true → e'.networkClosed = true))) := by
  cases h with
  | event heard ready => exact ⟨heard, .inl ⟨_, rfl, ready⟩⟩
  | timeout heard idle => exact ⟨heard, .inr (.inl ⟨rfl, idle⟩)⟩
  | deaf heard closed => exact ⟨heard, .inr (.inr ⟨rfl, closed⟩)⟩
  | told h | untold h => cases h

/-- **An answered receive** is given the first datagram of the queue, if there is one. -/
theorem Exchange.of_recv (h : Exchange losable e f (.networkRecv n) r e' f') :
    (∃ d, e.queue = d :: e'.queue ∧ r = .bytes (d.take n)) ∨ e.queue = [] := by
  cases h with
  | received taken => exact .inl ⟨_, taken, rfl⟩
  | empty h => exact .inr h
  | told h | untold h => cases h

/-- **An answered read** is given what is in the buffer. -/
theorem Exchange.of_read (h : Exchange losable e f (.appRecv n) r e' f') :
    r = .bytes (e.buffer.take n) := by
  cases h with
  | read => rfl
  | told h | untold h => cases h

/-- **An answered send** takes the whole datagram, unless the peer's stack is gone. -/
theorem Exchange.of_send (h : Exchange losable e f (.networkSend d) r e' f') :
    r = .sent d.length ∨ f.stackGone = true := by
  cases h with
  | sent | lost => exact .inl rfl
  | unsendable gone => exact .inr gone
  | told h | untold h => cases h

/-- **An application that is there** is told what there is to tell. -/
theorem Exchange.of_notice (h : Exchange losable e f c r e' f') (hc : noticeOf c ≠ none)
    (there : e.appGone = false) : r = .told := by
  cases h with
  | told => rfl
  | untold _ gone => cases there.symm.trans gone
  | _ => exact absurd rfl hc

end calls

end StopWait.Link

namespace StopWait.Link

open Session (Response response)

variable {l m : Link} {s : Side} {timer : Option Nat} {mask : Interest} {losable : Prop}

/-- What a tried call has come to: an exchange, or a wait that leaves what matters. -/
def Tried (losable : Prop) (l : Link) (s : Side) (c : Call) (m : Link) : Progress c.Answer → Prop
  | .ready a => Exchange losable (l.ends.get s) (l.ends.get s.other) c (response c a)
      (m.ends.get s) (m.ends.get s.other)
  | .blocked _ =>
    (l.ends.get s).Same (l.peerGone s) (m.ends.get s) ∧ m.ends.get s.other = l.ends.get s.other

theorem tried_wait (mask : Interest) :
    l.Tried losable s (.wait mask) (l.attemptWait s mask timer).1
      (l.attemptWait s mask timer).2 := by
  obtain ⟨hsame, hready, hfail⟩ := (l.ends.get s).listen_spec (l.peerGone s) mask
  unfold attemptWait
  simp only
  split
  · rename_i e answer he
    rw [he] at hsame hready hfail
    simp only [Tried, setEnd, Both.get_set_self, Both.get_set_other]
    cases answer with
    | ok event => exact .event hsame (hready event rfl)
    | error failure =>
      obtain ⟨rfl, hclosed⟩ := hfail failure rfl
      exact .deaf hsame hclosed
  · rename_i e he
    rw [he] at hsame
    -- a wait that times out has a timeout
    have hidle : ∀ idle, e.idleTimeout = some idle → (l.ends.get s).idleTimeout ≠ none := by
      intro idle hi
      rw [← hsame.idle, hi]
      nofun
    split
    · exact ⟨by simpa [setEnd] using hsame, by simp [setEnd]⟩
    · rename_i t idle ht hi
      split
      · simp only [Tried, setEnd, Both.get_set_self, Both.get_set_other]
        exact .timeout hsame (hidle idle hi)
      · exact ⟨by simpa [setEnd] using hsame, by simp [setEnd]⟩
    · rename_i idle ht hi
      split
      · simp only [Tried, setEnd, Both.get_set_self, Both.get_set_other]
        exact .timeout hsame (hidle idle hi)
      · exact ⟨by simpa [setEnd] using hsame, by simp [setEnd]⟩

theorem Endpoint.enqueue_cases (e : Endpoint) (d : List UInt8) :
    (e.stackGone = true ∧ e.enqueue d = (e, some (.error .receiverDropped))) ∨
    (e.stackGone = false ∧ e.inbox.length < inboxCapacity ∧
      e.enqueue d = ({ e with inbox := e.inbox ++ [d] }, some (.ok ()))) ∨
    (e.stackGone = false ∧ inboxCapacity ≤ e.inbox.length ∧ e.enqueue d = (e, none)) := by
  unfold enqueue
  by_cases hgone : e.stackGone = true
  · exact .inl ⟨hgone, if_pos hgone⟩
  · rw [if_neg hgone]
    by_cases hroom : e.inbox.length < inboxCapacity
    · exact .inr (.inl ⟨by simpa using hgone, hroom, if_pos hroom⟩)
    · exact .inr (.inr ⟨by simpa using hgone, Nat.le_of_not_lt hroom, if_neg hroom⟩)

theorem tried_delivery (d : List UInt8) (due : Nat) :
    l.Tried losable s (.networkSend d) (l.attemptDelivery s d due).1
      (l.attemptDelivery s d due).2 := by
  unfold attemptDelivery
  by_cases hnow : l.now < due
  · rw [if_pos hnow]
    exact ⟨.refl _, rfl⟩
  rw [if_neg hnow]
  obtain ⟨hgone, he⟩ | ⟨hthere, -, he⟩ | ⟨-, -, he⟩ := (l.ends.get s.other).enqueue_cases d <;>
    rw [he]
  · exact .unsendable hgone
  · simp only [Tried, setEnd, Both.get_set_of_other, Both.get_set_self]
    exact .sent hthere
  · exact ⟨.refl _, rfl⟩

theorem tried_send (d : List UInt8) :
    l.Tried (l.network.dispatch.1 = .lost) s (.networkSend d) (l.attemptSend s d timer).1
      (l.attemptSend s d timer).2 := by
  unfold attemptSend
  cases timer with
  | some due => exact tried_delivery d due
  | none =>
    simp only [handOver]
    -- a first try hands the datagram over, which the network may lose
    cases hf : l.network.dispatch.1 with
    | lost => exact .lost rfl
    | due delay =>
      exact tried_delivery (l := { l with
        network := l.network.dispatch.2, handed := d :: l.handed }) d (l.now + delay)

theorem tried_recv (n : Nat) :
    l.Tried losable s (.networkRecv n) (l.attemptRecv s n).1 (l.attemptRecv s n).2 := by
  unfold attemptRecv Endpoint.recv
  cases hs : (l.ends.get s).slot with
  | some d =>
    simp only [Tried, setEnd, Both.get_set_self, Both.get_set_other]
    refine .received ?_ rfl
    simp [Endpoint.queue, hs]
  | none =>
    cases hi : (l.ends.get s).inbox with
    | cons d rest =>
      simp only [Tried, setEnd, Both.get_set_self, Both.get_set_other]
      refine .received ?_ rfl
      simp [Endpoint.queue, hs, hi]
    | nil =>
      by_cases hgone : l.peerGone s = true
      · -- the end of the queue is seen
        simp only [hgone, if_true, Tried, setEnd, Both.get_set_self, Both.get_set_other]
        exact .empty (by simp [Endpoint.queue, hs, hi]) hgone
      · simp only [hgone, Bool.false_eq_true, if_false]
        exact ⟨by simpa [setEnd] using .refl _, by simp [setEnd]⟩

theorem tried_read (n : Nat) :
    l.Tried losable s (.appRecv n) (l.attemptRead s n).1 (l.attemptRead s n).2 := by
  simp only [attemptRead, Endpoint.read, Tried, setEnd, Both.get_set_self, Both.get_set_other]
  exact .read

theorem Endpoint.tell_cases (e : Endpoint) (notice : Notice) :
    (e.appGone = true ∧ e.tell notice = (e, .error .applicationGone)) ∨
    (e.appGone = false ∧ e.tell notice = ({ e with events := e.events ++ [notice] }, .ok ())) := by
  unfold tell
  by_cases hg : e.appGone = true
  · exact .inl ⟨hg, if_pos hg⟩
  · exact .inr ⟨by simpa using hg, if_neg hg⟩

/-- **A call that is tried is an exchange, or waits and leaves what matters.** -/
theorem tried_attempt (c : Call) :
    l.Tried (l.network.dispatch.1 = .lost) s c (l.attempt s timer c).1
      (l.attempt s timer c).2 := by
  cases c with
  | wait mask => exact tried_wait mask
  | networkSend d => exact tried_send d
  | networkRecv n => exact tried_recv n
  | appRecv n => exact tried_read n
  | appSend bytes =>
    obtain ⟨hg, he⟩ | ⟨hg, he⟩ := (l.ends.get s).tell_cases (.data bytes) <;>
      simp only [attempt, attemptTell, he, Tried, setEnd, Both.get_set_self, Both.get_set_other]
    · exact .untold rfl hg
    · exact .told rfl hg
  | finReceived =>
    obtain ⟨hg, he⟩ | ⟨hg, he⟩ := (l.ends.get s).tell_cases .peerFin <;>
      simp only [attempt, attemptTell, he, Tried, setEnd, Both.get_set_self, Both.get_set_other]
    · exact .untold rfl hg
    · exact .told rfl hg
  | unblock =>
    obtain ⟨hg, he⟩ | ⟨hg, he⟩ := (l.ends.get s).tell_cases .connected <;>
      simp only [attempt, attemptTell, he, Tried, setEnd, Both.get_set_self, Both.get_set_other]
    · exact .untold rfl hg
    · exact .told rfl hg

end StopWait.Link
