import StopWait.Proofs.Crossings

/-!
# Readiness

What a wait reports is so, and stays so until it is made use of; and a wait fails only when nothing
that it asks for can come any more.

* `Endpoint.available_cases`, `Endpoint.listen_failure`: what is ready, and what is not when a wait
  fails.
* `waited`, `event_waited`, `failure_waited`: **what an answered wait says.**
* `Use.Spares`, `datagram_next`, `bytes_next`: **what is ready stays so** while nobody takes it.
* `ShutsLast`, `ShutsLast.use`: an end that has seen the end of its queue has no peer any more.
* `shutsLast_reached`, `idle_reached`: what any uses of a new link leave.
-/

namespace StopWait.Link

open Session (Response response)

variable {side s : Side} {e e' f f' : Endpoint} {l : Link} {u : Use} {d : List UInt8}
  {timer : Option Nat} {call : Call} {r : Response} {losable : Prop} {mask : Interest}
  {gone : Bool} {n : Nat}

namespace Endpoint

/-- **What is ready** is asked for: a datagram in the slot, bytes that can be read, or a close that
has been seen, with no bytes left. -/
theorem available_cases {event : Event} (h : e.available mask = some event) :
    (event = .networkData ∧ mask.network = true ∧ ∃ d, e.slot = some d) ∨
    (event = .appData ∧ mask.appData = true ∧ e.buffer ≠ []) ∨
    (event = .appCloseRequested ∧ mask.appClose = true ∧ e.closeRequested = true ∧
      e.buffer = []) := by
  unfold available at h
  split at h
  · rename_i hn
    rw [Bool.and_eq_true, Option.isSome_iff_exists] at hn
    exact .inl ⟨(Option.some.inj h).symm, hn⟩
  · split at h
    · rename_i ha
      rw [Bool.and_eq_true, Bool.not_eq_true', List.isEmpty_eq_false_iff] at ha
      exact .inr (.inl ⟨(Option.some.inj h).symm, ha⟩)
    · split at h
      · rename_i hc
        rw [Bool.and_eq_true, Bool.and_eq_true, List.isEmpty_iff] at hc
        exact .inr (.inr ⟨(Option.some.inj h).symm, hc.1.1, hc.1.2, hc.2⟩)
      · cases h

/-- **A wait fails** when nothing is ready and nothing that it looks at can come any more. -/
theorem listen_failure {failure : Call.Failure}
    (h : (e.listen gone mask).2 = some (.error failure)) :
    failure = .disconnected ∧ (e.listen gone mask).1.available mask = none ∧
      (mask.network = true → (e.listen gone mask).1.networkClosed = true) ∧
      (mask.anyApp = true → (e.listen gone mask).1.closeRequested = true) := by
  fun_induction listen e gone mask with
  | case1 e answer hv =>
    cases h
    unfold verdict at hv
    split at hv
    · cases hv
    · rename_i ha
      split at hv
      · cases hv
      · rename_i hdeaf
        rw [Bool.or_eq_true, not_or, hearsNetwork, hearsApp] at hdeaf
        refine ⟨by simpa using hv.symm, ha, fun hm => ?_, fun hm => ?_⟩
        · simpa [hm] using hdeaf.1
        · simpa [hm] using hdeaf.2
  | case2 => cases h
  | case3 e hv f hi ih => exact ih h

end Endpoint

/-- An answered wait is answered by what it has heard, or has timed out. -/
theorem attemptWait_ready {a : Except Call.Failure Event}
    (h : (l.attemptWait side mask timer).2 = .ready a) :
    ((l.ends.get side).listen (l.peerGone side) mask).2 = some a ∨
      (a = .ok .timeout ∧ (l.ends.get side).idleTimeout ≠ none) := by
  have hidle := ((l.ends.get side).listen_spec (l.peerGone side) mask).1.idle
  unfold attemptWait at h
  simp only at h
  split at h
  · rename_i he
    cases h
    rw [he]
    exact .inl rfl
  · rename_i e he
    rw [he] at hidle
    -- an answer without an event is a timeout, of an end that has one
    right
    split at h
    · cases h
    · rename_i hi
      rw [← hidle, hi]
      split at h <;> cases h
      exact ⟨rfl, nofun⟩
    · rename_i hi
      rw [← hidle, hi]
      split at h <;> cases h
      exact ⟨rfl, nofun⟩

/-- **What an answered wait comes to**: its stack is there, has listened, and answers what it has
heard, unless it has timed out. -/
theorem waited
    (h : (l.use (.stack side timer (.wait mask))).2 = some (.stack side (.wait mask) r)) :
    (l.ends.get side).stackGone = false ∧
    (l.use (.stack side timer (.wait mask))).1.ends.get side =
      ((l.ends.get side).listen (l.peerGone side) mask).1 ∧
    ((∃ a, ((l.ends.get side).listen (l.peerGone side) mask).2 = some a ∧
        r = response (.wait mask) a) ∨
      (r = .event .timeout ∧ (l.ends.get side).idleTimeout ≠ none)) := by
  by_cases hg : (l.ends.get side).stackGone = true
  · rw [use, if_pos hg] at h
    cases h
  · rw [use, if_neg hg] at h ⊢
    refine ⟨by simpa using hg, ends_attemptWait l side mask timer, ?_⟩
    have hready := @attemptWait_ready side l timer mask
    have hattempt : l.attempt side timer (.wait mask) = l.attemptWait side mask timer := rfl
    rw [hattempt] at h
    generalize (l.attemptWait side mask timer).2 = progress at h hready
    cases progress with
    | blocked t => cases h
    | ready a =>
      cases h
      obtain ha | ⟨rfl, hidle⟩ := hready rfl
      · exact .inl ⟨a, ha, rfl⟩
      · exact .inr ⟨rfl, hidle⟩

/-- An event that a wait reports is ready, or is a timeout. -/
theorem event_waited {event : Event}
    (h : (l.use (.stack side timer (.wait mask))).2 = some (reports side mask event)) :
    ((l.use (.stack side timer (.wait mask))).1.ends.get side).available mask = some event ∨
      (event = .timeout ∧ (l.ends.get side).idleTimeout ≠ none) := by
  obtain ⟨-, hend, ⟨a, ha, hr⟩ | ⟨hr, hidle⟩⟩ := waited h
  · left
    rw [hend]
    cases a with
    | ok ev =>
      cases hr
      exact ((l.ends.get side).listen_spec (l.peerGone side) mask).2.1 event ha
    | error failure => cases hr
  · cases hr
    exact .inr ⟨rfl, hidle⟩

/-- A wait that fails has nothing ready, and nothing more to look at. -/
theorem failure_waited {failure : Call.Failure}
    (h : (l.use (.stack side timer (.wait mask))).2 =
      some (.stack side (.wait mask) (.failed failure))) :
    failure = .disconnected ∧
    ((l.use (.stack side timer (.wait mask))).1.ends.get side).available mask = none ∧
    (mask.network = true →
      ((l.use (.stack side timer (.wait mask))).1.ends.get side).networkClosed = true) ∧
    (mask.anyApp = true →
      ((l.use (.stack side timer (.wait mask))).1.ends.get side).closeRequested = true) := by
  obtain ⟨-, hend, ⟨a, ha, hr⟩ | ⟨hr, -⟩⟩ := waited h
  · rw [hend]
    cases a with
    | ok ev => cases hr
    | error failure =>
      cases hr
      exact Endpoint.listen_failure ha
  · cases hr

/-! ### What stays ready -/

/-- A use that leaves the stack at an end, and is no call of it that `takes` something. -/
def Use.Spares (side : Side) (takes : Call → Prop) : Use → Prop
  | .stack s _ call => s = side → ¬ takes call
  | .dropStack s => s ≠ side
  | _ => True

/-- A call that takes a datagram. -/
def takesDatagram (call : Call) : Prop := ∃ n, call = .networkRecv n

/-- A call that takes bytes of the application. -/
def takesBytes (call : Call) : Prop := ∃ n, call = .appRecv n

variable {takes : Call → Prop}

/-- A call of a stack is answered, or waits and leaves what matters. -/
theorem caller_cases (l : Link) (side : Side) (timer : Option Nat) (call : Call) :
    (∃ r f', Exchange (l.network.dispatch.1 = .lost) (l.ends.get side) (l.ends.get side.other) call
      r ((l.attempt side timer call).1.ends.get side) f') ∨
    (l.ends.get side).Same (l.peerGone side) ((l.attempt side timer call).1.ends.get side) := by
  have htried := @tried_attempt l side timer call
  generalize l.attempt side timer call = tried at htried ⊢
  obtain ⟨m, progress⟩ := tried
  cases progress with
  | ready a => exact .inl ⟨_, _, htried⟩
  | blocked t => exact .inr htried.1

/-- A stack is there until it is dropped. -/
theorem stack_use (hu : u.Spares side takes) :
    ((l.use u).1.ends.get side).stackGone = (l.ends.get side).stackGone := by
  have hdoes := does_use l side u
  generalize (l.use u).2 = o at hdoes
  generalize (l.use u).1.ends.get side = e' at hdoes ⊢
  cases hdoes with
  | @calls timer call there =>
    obtain ⟨r, f', hr⟩ | hsame := caller_cases l side timer call
    · exact hr.spends.2.2
    · exact hsame.stack
  | @meets timer call there =>
    obtain ⟨inbox, hend⟩ := attempt_peer l side timer call
    rw [hend]
  | glances => exact ((l.ends.get side).same_glance _ _).stack
  | drops => exact absurd rfl hu
  | moves heeds => exact heeds.queue.2
  | nothing => rfl

/-- A call that takes no bytes leaves those that can be read. -/
theorem Exchange.buffer_prefix (h : Exchange losable e f call r e' f') (hcall : ¬ takesBytes call) :
    e.buffer <+: e'.buffer := by
  cases h with
  | event heard | timeout heard | deaf heard => exact heard.buffer
  | sent | lost | unsendable | empty | told | untold => exact List.prefix_refl _
  | received taken kept =>
    have hbuffer := congrArg Endpoint.buffer kept
    exact hbuffer ▸ List.prefix_refl e.buffer
  | read => exact absurd ⟨_, rfl⟩ hcall

theorem Heeds.buffer {o : Option Deed} (h : Heeds side e o e') : e'.buffer = e.buffer := by
  cases h <;> rfl

/-- Bytes that can be read can be read until they are. -/
theorem buffer_use (hu : u.Spares side takesBytes) :
    (l.ends.get side).buffer <+: ((l.use u).1.ends.get side).buffer := by
  have hdoes := does_use l side u
  generalize (l.use u).2 = o at hdoes
  generalize (l.use u).1.ends.get side = e' at hdoes ⊢
  cases hdoes with
  | @calls timer call there =>
    obtain ⟨r, f', hr⟩ | hsame := caller_cases l side timer call
    · exact hr.buffer_prefix (hu rfl)
    · exact hsame.buffer
  | @meets timer call there =>
    obtain ⟨inbox, hend⟩ := attempt_peer l side timer call
    exact ⟨[], by rw [hend, List.append_nil]⟩
  | glances => exact ((l.ends.get side).same_glance _ _).buffer
  | drops => exact absurd rfl hu
  | moves heeds => exact heeds.buffer ▸ List.prefix_refl _
  | nothing => exact List.prefix_refl _

/-- The links that any uses lead to. -/
theorem link_after {P : Link → Prop} {us : List Use} {allowed : Use → Prop}
    (hstep : ∀ l u, P l → allowed u → P (l.use u).1) {h : Usage} (hl : P h.link)
    (hus : ∀ u ∈ us, allowed u) : P (h.after us).link := by
  induction us generalizing h with
  | nil => exact hl
  | cons u us ih =>
    rw [List.forall_mem_cons] at hus
    exact @ih (h.next u) (hstep h.link u hl hus.1) hus.2

/-- **A datagram in the slot is received next**, whatever is done in between. -/
theorem datagram_next {h : Usage} (hg : (h.link.ends.get side).stackGone = false)
    (hs : (h.link.ends.get side).slot = some d) {us : List Use}
    (hus : ∀ u ∈ us, u.Spares side takesDatagram) (timer : Option Nat) (n : Nat) :
    ((h.after us).link.use (.stack side timer (.networkRecv n))).2 =
      some (.stack side (.networkRecv n) (.bytes (d.take n))) := by
  have hkept : ((h.after us).link.ends.get side).stackGone = false ∧
      ((h.after us).link.ends.get side).slot = some d := by
    refine link_after (P := fun l => (l.ends.get side).stackGone = false ∧
      (l.ends.get side).slot = some d) ?_ ⟨hg, hs⟩ hus
    rintro l u ⟨hg, hs⟩ hu
    refine ⟨(stack_use hu).trans hg, (slot_use hs u).resolve_right ?_⟩
    rintro (rfl | ⟨timer, n, rfl, -⟩)
    · exact hu rfl
    · exact hu rfl ⟨n, rfl⟩
  rw [use, hkept.1]
  exact recv_of_slot hkept.2 timer n

/-- **Bytes that can be read are read next**, whatever is done in between. -/
theorem bytes_next {h : Usage} (hg : (h.link.ends.get side).stackGone = false)
    (hb : (h.link.ends.get side).buffer ≠ []) {us : List Use}
    (hus : ∀ u ∈ us, u.Spares side takesBytes) (timer : Option Nat) {n : Nat} (hn : 0 < n) :
    ∃ bytes, bytes ≠ [] ∧ ((h.after us).link.use (.stack side timer (.appRecv n))).2 =
      some (.stack side (.appRecv n) (.bytes bytes)) := by
  have hkept : ((h.after us).link.ends.get side).stackGone = false ∧
      ((h.after us).link.ends.get side).buffer ≠ [] := by
    refine link_after (P := fun l => (l.ends.get side).stackGone = false ∧
      (l.ends.get side).buffer ≠ []) ?_ ⟨hg, hb⟩ hus
    rintro l u ⟨hg, hb⟩ hu
    exact ⟨(stack_use hu).trans hg, (buffer_use hu).ne_nil hb⟩
  refine ⟨((h.after us).link.ends.get side).buffer.take n, ?_, ?_⟩
  · rw [Ne, List.take_eq_nil_iff, not_or]
    exact ⟨Nat.pos_iff_ne_zero.1 hn, hkept.2⟩
  · rw [use, hkept.1]
    rfl

/-! ### What stays out of reach -/

/-- A stack that is gone stays gone. -/
theorem gone_use (hg : (l.ends.get side).stackGone = true) (u : Use) :
    ((l.use u).1.ends.get side).stackGone = true := by
  have hdoes := does_use l side u
  generalize (l.use u).2 = o at hdoes
  generalize (l.use u).1.ends.get side = e' at hdoes ⊢
  cases hdoes with
  | calls there => cases there.symm.trans hg
  | @meets timer call there =>
    obtain ⟨inbox, hend⟩ := attempt_peer l side timer call
    rw [hend]
    exact hg
  | glances => exact ((l.ends.get side).same_glance _ _).stack.trans hg
  | drops => rfl
  | moves heeds => exact heeds.queue.2.trans hg
  | nothing => exact hg

/-- What an answered call leaves of the end of the queue: it is seen by a wait alone, when the peer
is gone and nothing is left. -/
theorem Exchange.shuts (h : Exchange losable e f call r e' f') (hc : e'.networkClosed = true) :
    e'.queue = e.queue ∧ (e.networkClosed = true ∨ f.stackGone = true ∧ e.queue = []) ∨
      e.networkClosed = true ∧ e.queue ≠ [] := by
  cases h with
  | event heard | timeout heard | deaf heard => exact .inl ⟨heard.queue, heard.shuts hc⟩
  | sent | lost | unsendable | empty | told | untold | read => exact .inl ⟨rfl, .inl hc⟩
  | received taken kept =>
    have hclosed := congrArg Endpoint.networkClosed kept
    exact .inr ⟨hclosed.trans hc, by rw [taken]; nofun⟩

/-- An end has seen the end of its queue only when its peer is gone and nothing is left. -/
def ShutsLast (l : Link) (side : Side) : Prop :=
  (l.ends.get side).networkClosed = true →
    (l.ends.get side.other).stackGone = true ∧ (l.ends.get side).queue = []

theorem Heeds.closed {o : Option Deed} (h : Heeds side e o e') :
    e'.networkClosed = e.networkClosed := by
  cases h <;> rfl

/-- **A use leaves what the end of a queue says.** -/
theorem ShutsLast.use (hl : l.ShutsLast side) (u : Use) : (l.use u).1.ShutsLast side := by
  -- what was so before stays so, and the peer stays gone
  have hfrom : ∀ {e' : Endpoint}, e'.queue = (l.ends.get side).queue →
      (l.ends.get side).networkClosed = true ∨
        (l.ends.get side.other).stackGone = true ∧ (l.ends.get side).queue = [] →
      ((l.use u).1.ends.get side.other).stackGone = true ∧ e'.queue = [] := by
    intro e' hq h
    obtain ⟨hgone, hnil⟩ := h.elim hl id
    exact ⟨gone_use hgone u, hq.trans hnil⟩
  unfold ShutsLast
  have hdoes := does_use l side u
  generalize (l.use u).2 = o at hdoes
  generalize (l.use u).1.ends.get side = e' at hdoes ⊢
  intro hc
  cases hdoes with
  | @calls timer call there =>
    obtain ⟨r, f', hr⟩ | hsame := caller_cases l side timer call
    · obtain ⟨hq, h⟩ | ⟨hclosed, hne⟩ := hr.shuts hc
      · exact hfrom hq h
      · exact absurd (hl hclosed).2 hne
    · exact hfrom hsame.queue (hsame.shuts hc)
  | @meets timer call there =>
    -- a peer that calls is not gone
    obtain ⟨inbox, hend⟩ := attempt_peer l side timer call
    rw [hend] at hc
    cases there.symm.trans (hl hc).1
  | glances =>
    have hsame := (l.ends.get side).same_glance (l.peerGone side) ‹_›
    exact hfrom hsame.queue (hsame.shuts hc)
  | drops => exact ⟨(@hfrom (l.ends.get side) rfl (.inl hc)).1, rfl⟩
  | moves heeds => exact hfrom heeds.queue.1 (.inl (heeds.closed ▸ hc))
  | nothing => exact hfrom rfl (.inl hc)

theorem Exchange.idle (h : Exchange losable e f call r e' f') :
    e'.idleTimeout = e.idleTimeout := by
  cases h with
  | event heard | timeout heard | deaf heard => exact heard.idle
  | received taken kept => exact (congrArg Endpoint.idleTimeout kept).symm
  | _ => rfl

theorem Heeds.idle {o : Option Deed} (h : Heeds side e o e') : e'.idleTimeout = e.idleTimeout := by
  cases h <;> rfl

/-- An idle timeout is set once and for all. -/
theorem idle_use (l : Link) (side : Side) (u : Use) :
    ((l.use u).1.ends.get side).idleTimeout = (l.ends.get side).idleTimeout := by
  have hdoes := does_use l side u
  generalize (l.use u).2 = o at hdoes
  generalize (l.use u).1.ends.get side = e' at hdoes ⊢
  cases hdoes with
  | @calls timer call there =>
    obtain ⟨r, f', hr⟩ | hsame := caller_cases l side timer call
    · exact hr.idle
    · exact hsame.idle
  | @meets timer call there =>
    obtain ⟨inbox, hend⟩ := attempt_peer l side timer call
    rw [hend]
  | glances => exact ((l.ends.get side).same_glance _ _).idle
  | moves heeds => exact heeds.idle
  | drops | nothing => rfl

/-! ### Any uses -/

section reached

variable (network : Network) (idle : Both (Option Nat)) (side : Side) (uses : List Use)

/-- What any uses of a new link lead to. -/
def reached : Usage := Usage.after ⟨.new network idle.near idle.far, []⟩ uses

theorem shutsLast_reached : (reached network idle uses).link.ShutsLast side := by
  refine link_after (P := fun l => l.ShutsLast side) (fun l u hl _ => hl.use u) ?_
    (fun _ _ => trivial)
  cases side <;> nofun

theorem idle_reached :
    ((reached network idle uses).link.ends.get side).idleTimeout = idle.get side := by
  refine link_after (P := fun l => (l.ends.get side).idleTimeout = idle.get side)
    (fun l u hl _ => (idle_use l side u).trans hl) ?_ (fun _ _ => trivial)
  cases side <;> rfl

end reached

end StopWait.Link
