import StopWait.Proofs.Interleavings
import StopWait.Proofs.Transfer

/-!
# Datagrams cross in order

The datagrams that the two stacks of a link send each other, whatever else is done with the link: a
datagram may be under way, on the queue, or in the slot that a wait fills, and it may be received
out of either.

* `Does`, `does_use`: **what a use does to the endpoint at an end.**
* `Link.loses`, `Transit`: the datagrams that the network loses, and what is done without them.
* `Queues`, `queues_use`: **what a use makes of the datagrams that wait at an end.**
* `Crosses`, `Crosses.after`: **what was carried is what was received and what waits**, after any
  uses.
* `slot_use`, `slot_after`: a datagram that a wait took off the queue **stays until received.**
* `datagrams_cross_in_order`: what both come to.
-/

namespace StopWait.Link

open Session (Response response)

namespace Deed

/-- The datagrams that completed sends of the stack at an end carry. -/
def sent (side : Side) : Deed → List (List UInt8)
  | .stack s (.networkSend d) (.sent _) => if s = side then [d] else []
  | _ => []

/-- What completed receives of the stack at an end are given, with the length of the buffer. -/
def received (side : Side) : Deed → List (Nat × List UInt8)
  | .stack s (.networkRecv n) (.bytes bytes) => if s = side then [(n, bytes)] else []
  | _ => []

end Deed

/-- **What a use does to the endpoint at an end**, with what is done. -/
inductive Does (l : Link) (side : Side) : Use → Option Deed → Endpoint → Prop where
  /-- A call of its stack is tried. -/
  | calls {timer : Option Nat} {call : Call} (there : (l.ends.get side).stackGone = false) :
    Does l side (.stack side timer call) (triedDeed side call (l.attempt side timer call).2)
      ((l.attempt side timer call).1.ends.get side)
  /-- A call of the peer's stack is tried. -/
  | meets {timer : Option Nat} {call : Call}
    (there : (l.ends.get side.other).stackGone = false) :
    Does l side (.stack side.other timer call)
      (triedDeed side.other call (l.attempt side.other timer call).2)
      ((l.attempt side.other timer call).1.ends.get side)
  /-- A wait of its stack makes one turn. -/
  | glances {mask : Interest} :
    Does l side (.glance side mask) none ((l.ends.get side).glance (l.peerGone side) mask)
  /-- Its stack is dropped. -/
  | drops : Does l side (.dropStack side) none (l.ends.get side).dropStack
  /-- Its application makes a move. -/
  | moves {u : Use} {d : Option Deed} {e' : Endpoint}
    (heeds : Heeds side (l.ends.get side) d e') : Does l side u d e'
  /-- Something is done elsewhere, and not by a stack. -/
  | nothing {u : Use} {d : Option Deed} (still : ∀ s call r, d ≠ some (.stack s call r)) :
    Does l side u d (l.ends.get side)

/-- Whether the network loses a datagram in a use. It decides when a send is first tried, which has
no timer then. -/
def loses (l : Link) : Use → Bool
  | .stack _ none (.networkSend _) => l.network.dispatch.1 = .lost
  | _ => false

/-- A link with what was done, and with what was done of that without losing a datagram. -/
structure Transit extends Usage where
  kept : List Deed := []

namespace Transit

variable (h : Transit) (side : Side)

/-- Uses the link. -/
def next (u : Use) : Transit where
  toUsage := h.toUsage.next u
  kept := h.kept ++ if h.link.loses u then [] else (h.link.use u).2.toList

/-- Uses the link any number of times. -/
def after (us : List Use) : Transit := us.foldl next h

/-- The datagrams that completed sends of the stack at an end have carried. -/
def sent : List (List UInt8) := h.deeds.flatMap (Deed.sent side)

/-- Those of them that the network has not lost. -/
def carried : List (List UInt8) := h.kept.flatMap (Deed.sent side)

/-- What the stack at an end has received. -/
def received : List (Nat × List UInt8) := h.deeds.flatMap (Deed.received side)

end Transit

/-- **What a use makes of the datagrams that wait at an end**, with those that are carried to it
and what its stack receives. -/
inductive Queues (e : Endpoint) :
    List (List UInt8) → List (Nat × List UInt8) → Endpoint → Prop where
  /-- A datagram comes through the network. -/
  | joins {d : List UInt8} {e' : Endpoint} (there : e.stackGone = false)
    (queue : e'.queue = e.queue ++ [d]) (stack : e'.stackGone = e.stackGone) : Queues e [d] [] e'
  /-- The first datagram is received. -/
  | leaves {n : Nat} {d : List UInt8} {e' : Endpoint} (there : e.stackGone = false)
    (queue : e.queue = d :: e'.queue) (stack : e'.stackGone = e.stackGone) :
    Queues e [] [(n, d.take n)] e'
  /-- Its stack is dropped. -/
  | drops {e' : Endpoint} (gone : e'.stackGone = true) : Queues e [] [] e'
  /-- Something else happens. -/
  | stays {e' : Endpoint} (queue : e'.queue = e.queue) (stack : e'.stackGone = e.stackGone) :
    Queues e [] [] e'

variable {side s : Side} {e e' f f' : Endpoint} {l : Link} {u : Use} {d : List UInt8}
  {timer : Option Nat} {call : Call} {r : Response} {losable : Prop}

/-- **Every use does one of these.** -/
theorem does_use (l : Link) (side : Side) (u : Use) :
    l.Does side u (l.use u).2 ((l.use u).1.ends.get side) := by
  have hnone : ∀ s call r, (none : Option Deed) ≠ some (.stack s call r) := by
    intro s call r h
    cases h
  cases u with
  | stack s timer call =>
    rw [use]
    split
    · exact .nothing hnone
    · rename_i hg
      rw [Bool.not_eq_true] at hg
      obtain rfl | rfl := Side.eq_or_eq_other s side
      · exact .calls hg
      · exact .meets hg
  | glance s mask =>
    rw [use]
    split
    · exact .nothing hnone
    · obtain rfl | rfl := Side.eq_or_eq_other s side
      · rw [setEnd, Both.get_set_self]
        exact .glances
      · rw [setEnd, Both.get_set_of_other]
        exact .nothing hnone
  | dropStack s =>
    rw [use, Link.dropStack]
    obtain rfl | rfl := Side.eq_or_eq_other s side
    · rw [setEnd, Both.get_set_self]
      exact .drops
    · rw [setEnd, Both.get_set_of_other]
      exact .nothing hnone
  | app s call =>
    rw [use]
    split
    · exact .nothing hnone
    · rename_i hg
      have hheeds := @heeds_attempt s _ call (by simpa using hg)
      obtain rfl | rfl := Side.eq_or_eq_other s side
      · simp only [attemptApp, setEnd, Both.get_set_self]
        exact .moves hheeds
      · simp only [attemptApp, setEnd, Both.get_set_of_other]
        exact .nothing fun _ => hheeds.ne_stack
  | dropApp s =>
    rw [use]
    split
    · exact .nothing hnone
    · rw [Link.dropApp]
      obtain rfl | rfl := Side.eq_or_eq_other s side
      · rw [setEnd, Both.get_set_self]
        exact .moves .drops
      · rw [setEnd, Both.get_set_of_other]
        refine .nothing fun s call r h => ?_
        cases h
  | clock | network => exact .nothing hnone

/-- The datagrams that a use carries from an end, less one that the network loses. -/
def carries (l : Link) (side : Side) (u : Use) : List (List UInt8) :=
  if l.loses u then [] else (l.use u).2.toList.flatMap (Deed.sent side)

/-- What the stack at an end receives in a use. -/
def receives (l : Link) (side : Side) (u : Use) : List (Nat × List UInt8) :=
  (l.use u).2.toList.flatMap (Deed.received side)

theorem Deed.sent_of_ne (hs : s ≠ side) : (Deed.stack s call r).sent side = [] := by
  cases call <;> cases r <;> first | rfl | exact if_neg hs

theorem Deed.received_of_ne (hs : s ≠ side) : (Deed.stack s call r).received side = [] := by
  cases call <;> cases r <;> first | rfl | exact if_neg hs

/-- An answered call leaves the caller's queue, or receives what is first on it. -/
theorem Exchange.queues_caller (h : Exchange losable e f call r e' f') (there : e.stackGone = false)
    (side : Side) : Queues e [] ((Deed.stack side call r).received side) e' := by
  cases h with
  | event heard | timeout heard | deaf heard => exact .stays heard.queue heard.stack
  | sent | lost | unsendable | empty | read => exact .stays rfl rfl
  | told | untold => cases call <;> exact .stays rfl rfl
  | received taken kept =>
    rw [Deed.received, if_pos rfl]
    exact .leaves there taken (congrArg Endpoint.stackGone kept).symm

/-- An answered call that loses nothing leaves the peer's queue, or puts what it sends on it. -/
theorem Exchange.queues_peer (h : Exchange False e f call r e' f') (side : Side) :
    Queues f ((Deed.stack side call r).sent side) [] f' := by
  cases h with
  | lost h => exact h.elim
  | sent there =>
    rw [Deed.sent, if_pos rfl]
    exact .joins there (List.append_assoc _ _ _).symm rfl
  | told | untold => cases call <;> exact .stays rfl rfl
  | _ => exact .stays rfl rfl

/-- Only a send loses a datagram. -/
theorem Exchange.unlost (h : Exchange losable e f call r e' f')
    (hcall : ∀ d, call ≠ .networkSend d) : Exchange False e f call r e' f' := by
  cases h with
  | event heard ready => exact .event heard ready
  | timeout heard idle => exact .timeout heard idle
  | deaf heard closed => exact .deaf heard closed
  | sent | lost | unsendable => exact absurd rfl (hcall _)
  | received taken kept => exact .received taken kept
  | empty h gone => exact .empty h gone
  | read => exact .read
  | told h there => exact .told h there
  | untold h gone => exact .untold h gone

/-- **A call that is tried without losing a datagram.** -/
theorem tried_of_keeps (h : l.loses (.stack s timer call) = false) :
    l.Tried False s call (l.attempt s timer call).1 (l.attempt s timer call).2 := by
  have htried := @tried_attempt l s timer call
  cases call with
  | networkSend d =>
    cases timer with
    | some due => exact tried_delivery d due
    | none =>
      cases hf : l.network.dispatch.1 with
      | lost => simp [loses, hf] at h
      | due delay =>
        simp only [attempt, attemptSend, handOver, hf]
        exact tried_delivery d _
  | _ =>
    generalize l.attempt s timer _ = tried at htried ⊢
    obtain ⟨m, progress⟩ := tried
    cases progress with
    | ready a =>
      refine Exchange.unlost htried fun d hd => ?_
      cases hd
    | blocked t => exact htried

/-- An answered call puts a datagram on the peer's queue at most. -/
theorem Exchange.peer_eq (h : Exchange losable e f call r e' f') :
    ∃ inbox, f' = { f with inbox } := by
  cases h <;> exact ⟨_, rfl⟩

/-- **A call of the peer's stack changes the queue at most.** -/
theorem attempt_peer (l : Link) (side : Side) (timer : Option Nat) (call : Call) :
    ∃ inbox, (l.attempt side.other timer call).1.ends.get side =
      { l.ends.get side with inbox } := by
  have htried := @tried_attempt l side.other timer call
  generalize l.attempt side.other timer call = tried at htried ⊢
  obtain ⟨m, progress⟩ := tried
  cases progress with
  | ready a =>
    have hpeer := Exchange.peer_eq htried
    rwa [Side.other_other] at hpeer
  | blocked t =>
    have hother := htried.2
    rw [Side.other_other] at hother
    exact ⟨_, hother⟩

/-- A call whose datagram is lost touches no endpoint. -/
theorem ends_of_loses (h : l.loses (.stack s timer call) = true) :
    (l.attempt s timer call).1.ends = l.ends := by
  unfold loses at h
  split at h
  · rename_i s' d hu
    cases hu
    have hlost : l.network.dispatch.1 = .lost := by simpa using h
    simp only [attempt, attemptSend, handOver, hlost]
    rfl
  · cases h

/-- **What a call of the stack at an end makes of the datagrams that wait there.** -/
theorem queues_caller (timer : Option Nat) (call : Call)
    (there : (l.ends.get side).stackGone = false) :
    Queues (l.ends.get side) []
      ((triedDeed side call (l.attempt side timer call).2).toList.flatMap (Deed.received side))
      ((l.attempt side timer call).1.ends.get side) := by
  have htried := @tried_attempt l side timer call
  generalize l.attempt side timer call = tried at htried ⊢
  obtain ⟨m, progress⟩ := tried
  cases progress with
  | ready a =>
    have hqueues := htried.queues_caller there side
    simpa [triedDeed] using hqueues
  | blocked t => exact .stays htried.1.queue htried.1.stack

/-- **What a call of the peer's stack makes of them.** -/
theorem queues_peer (l : Link) (side : Side) (timer : Option Nat) (call : Call) :
    Queues (l.ends.get side)
      (if l.loses (.stack side.other timer call) then [] else
        (triedDeed side.other call
          (l.attempt side.other timer call).2).toList.flatMap (Deed.sent side.other))
      [] ((l.attempt side.other timer call).1.ends.get side) := by
  cases hl : l.loses (.stack side.other timer call) with
  | true =>
    rw [ends_of_loses hl]
    exact .stays rfl rfl
  | false =>
    have htried := tried_of_keeps hl
    generalize l.attempt side.other timer call = tried at htried ⊢
    obtain ⟨m, progress⟩ := tried
    cases progress with
    | ready a =>
      have hqueues := htried.queues_peer side.other
      rw [Side.other_other] at hqueues
      simpa [triedDeed] using hqueues
    | blocked t =>
      have hother := htried.2
      rw [Side.other_other] at hother
      rw [hother]
      exact .stays rfl rfl

/-- What the peer's stack sends is not received from it, and the other way round. -/
theorem sent_elsewhere {p : Progress call.Answer} (hs : s ≠ side) :
    (triedDeed s call p).toList.flatMap (Deed.sent side) = [] ∧
      (triedDeed s call p).toList.flatMap (Deed.received side) = [] := by
  cases p with
  | ready a => simp [triedDeed, Deed.sent_of_ne hs, Deed.received_of_ne hs]
  | blocked t => exact ⟨rfl, rfl⟩

/-- What is done without a call of a stack carries nothing, and receives nothing. -/
theorem quiet_deed {o : Option Deed} (h : ∀ s call r, o ≠ some (.stack s call r)) :
    o.toList.flatMap (Deed.sent s) = [] ∧ o.toList.flatMap (Deed.received side) = [] := by
  cases o with
  | none => exact ⟨rfl, rfl⟩
  | some deed =>
    cases deed with
    | stack s call r => exact absurd rfl (h s call r)
    | app | drop => exact ⟨rfl, rfl⟩

/-- **What a use makes of the datagrams that wait at an end.** -/
theorem queues_use (l : Link) (side : Side) (u : Use) :
    Queues (l.ends.get side) (l.carries side.other u) (l.receives side u)
      ((l.use u).1.ends.get side) := by
  have hdoes := does_use l side u
  unfold carries receives
  generalize (l.use u).2 = o at hdoes ⊢
  generalize (l.use u).1.ends.get side = e' at hdoes ⊢
  -- what is not done by a stack neither carries nor receives
  have hquiet : (∀ s call r, o ≠ some (.stack s call r)) → Queues (l.ends.get side) [] [] e' →
      Queues (l.ends.get side) (if l.loses u then [] else o.toList.flatMap (Deed.sent side.other))
        (o.toList.flatMap (Deed.received side)) e' := by
    intro hstill hqueues
    obtain ⟨hsent, hreceived⟩ := @quiet_deed side side.other o hstill
    rwa [hsent, hreceived, ite_self]
  cases hdoes with
  | @calls timer call there =>
    rw [(sent_elsewhere (Side.other_ne side).symm).1, ite_self]
    exact queues_caller timer call there
  | @meets timer call there =>
    rw [(sent_elsewhere (Side.other_ne side)).2]
    exact queues_peer l side timer call
  | @glances mask =>
    have hsame := (l.ends.get side).same_glance (l.peerGone side) mask
    exact hquiet nofun (.stays hsame.queue hsame.stack)
  | drops => exact hquiet nofun (.drops rfl)
  | moves heeds => exact hquiet (fun _ => heeds.ne_stack) (.stays heeds.queue.1 heeds.queue.2)
  | nothing still => exact hquiet still (.stays rfl rfl)

/-! ### Any uses -/

/-- **What was carried to an end is what its stack received and what waits.** Each datagram that was
received is cut to the length of its buffer. -/
structure Crosses (e : Endpoint) (carried : List (List UInt8))
    (received : List (Nat × List UInt8)) (taken : List (List UInt8)) : Prop where
  cut : List.Forall₂ (fun r d => r.2 = d.take r.1) received taken
  order : taken <+: carried
  waits : e.stackGone = false → carried = taken ++ e.queue

variable {carried c : List (List UInt8)} {received rs : List (Nat × List UInt8)}
  {taken : List (List UInt8)} {h : Transit}

/-- **A use keeps the order.** -/
theorem Crosses.queues (hc : Crosses e carried received taken) (hq : Queues e c rs e') :
    ∃ taken', Crosses e' (carried ++ c) (received ++ rs) taken' := by
  cases hq with
  | joins there queue stack =>
    refine ⟨taken, ?_, hc.order.trans (List.prefix_append _ _), fun _ => ?_⟩
    · rw [List.append_nil]
      exact hc.cut
    · rw [hc.waits there, queue, List.append_assoc]
  | @leaves n d _ there queue stack =>
    have htotal : carried = (taken ++ [d]) ++ e'.queue := by
      rw [hc.waits there, queue, List.append_assoc, List.singleton_append]
    rw [List.append_nil]
    refine ⟨taken ++ [d], List.rel_append hc.cut (.cons rfl .nil), ?_, fun _ => htotal⟩
    rw [htotal]
    exact List.prefix_append _ _
  | drops gone =>
    rw [List.append_nil, List.append_nil]
    exact ⟨taken, hc.cut, hc.order, fun hg => nomatch gone.symm.trans hg⟩
  | stays queue stack =>
    rw [List.append_nil, List.append_nil]
    exact ⟨taken, hc.cut, hc.order, fun hg => queue ▸ hc.waits (stack ▸ hg)⟩

namespace Transit

theorem carried_next (h : Transit) (u : Use) :
    (h.next u).carried side = h.carried side ++ h.link.carries side u := by
  rw [carries, carried, carried, next, List.flatMap_append]
  split <;> rfl

theorem received_next (h : Transit) (u : Use) :
    (h.next u).received side = h.received side ++ h.link.receives side u :=
  List.flatMap_append

theorem sent_next (h : Transit) (u : Use) :
    (h.next u).sent side =
      h.sent side ++ (h.link.use u).2.toList.flatMap (Deed.sent side) :=
  List.flatMap_append

end Transit

/-- **Any uses keep the order.** -/
theorem Crosses.after
    (hc : Crosses (h.link.ends.get side) (h.carried side.other) (h.received side) taken)
    (us : List Use) :
    ∃ taken', Crosses ((h.after us).link.ends.get side) ((h.after us).carried side.other)
      ((h.after us).received side) taken' := by
  induction us generalizing h taken with
  | nil => exact ⟨taken, hc⟩
  | cons u us ih =>
    obtain ⟨taken', hc'⟩ := hc.queues (queues_use h.link side u)
    rw [← h.carried_next, ← h.received_next] at hc'
    exact ih hc'

/-- What was carried is a part of what was sent. -/
theorem carried_sublist (h : Transit) (side : Side)
    (hs : (h.carried side).Sublist (h.sent side)) (us : List Use) :
    ((h.after us).carried side).Sublist ((h.after us).sent side) := by
  induction us generalizing h with
  | nil => exact hs
  | cons u us ih =>
    refine ih (h.next u) ?_
    rw [h.carried_next, h.sent_next]
    refine hs.append ?_
    unfold carries
    split
    · exact List.nil_sublist _
    · exact List.Sublist.refl _

/-! ### Networks that lose nothing -/

/-- A use that leaves a network that loses nothing, or puts another one in its place. -/
def Use.Lossless : Use → Prop
  | .network n => n.Lossless
  | _ => True

theorem loses_of_lossless (hl : l.network.Lossless) (u : Use) : l.loses u = false := by
  obtain ⟨delay, hdispatch⟩ := hl.dispatch
  unfold loses
  split
  · simp [hdispatch]
  · rfl

theorem lossless_use (hl : l.network.Lossless) (hu : u.Lossless) :
    (l.use u).1.network.Lossless := by
  cases u with
  | stack s timer call =>
    rw [use]
    split
    · exact hl
    · rwa [(attempt_leaves hl).1]
  | network n => exact hu
  | glance | app | dropApp =>
    rw [use]
    split <;> exact hl
  | dropStack | clock => exact hl

/-- **All that is sent is carried**, as long as the network loses nothing. -/
theorem carried_of_lossless (hl : h.link.network.Lossless) (hs : h.carried side = h.sent side)
    {us : List Use} (hus : ∀ u ∈ us, u.Lossless) :
    (h.after us).carried side = (h.after us).sent side := by
  induction us generalizing h with
  | nil => exact hs
  | cons u us ih =>
    rw [List.forall_mem_cons] at hus
    refine @ih (h.next u) (lossless_use hl hus.1) ?_ hus.2
    rw [h.carried_next, h.sent_next, hs, carries, loses_of_lossless hl]
    rfl

/-! ### The slot -/

section slot

variable {gone : Bool} {mask : Interest}

/-- A wait that goes on with a datagram in the slot does not look at the network. -/
theorem Endpoint.slot_intake (hv : e.verdict mask = none) (hs : e.slot = some d)
    (hi : e.intake gone mask = some f) : f.slot = some d := by
  have hdeaf : e.hearsNetwork mask = false := by
    cases hm : mask.network with
    | true => cases hs.symm.trans (slot_of_verdict hm hv)
    | false => rw [hearsNetwork, hm, Bool.false_and]
  simp only [intake, hdeaf, Bool.false_eq_true, if_false] at hi
  split at hi
  · unfold intakeRequest at hi
    split at hi
    · obtain rfl := Option.some.inj hi
      exact hs
    · obtain rfl := Option.some.inj hi
      exact hs
    · split at hi
      · obtain rfl := Option.some.inj hi
        exact hs
      · cases hi
  · cases hi

theorem Endpoint.slot_listen (hs : e.slot = some d) :
    (e.listen gone mask).1.slot = some d := by
  fun_induction listen e gone mask with
  | case1 | case2 => exact hs
  | case3 e hv f hi ih => exact ih (slot_intake hv hs hi)

theorem Endpoint.slot_glance (hs : e.slot = some d) : (e.glance gone mask).slot = some d := by
  unfold glance
  split
  · exact hs
  · rename_i hv
    cases hi : e.intake gone mask with
    | none => exact hs
    | some f => exact slot_intake hv hs hi

end slot

/-- A wait leaves its end as it has listened. -/
theorem ends_attemptWait (l : Link) (s : Side) (mask : Interest) (timer : Option Nat) :
    (l.attemptWait s mask timer).1.ends.get s =
      ((l.ends.get s).listen (l.peerGone s) mask).1 := by
  unfold attemptWait
  simp only
  split
  · rename_i he
    rw [he, setEnd, Both.get_set_self]
  · rename_i he
    rw [he]
    split <;> exact Both.get_set_self _ _ _

/-- A send leaves the end that sends. -/
theorem ends_attemptSend (l : Link) (s : Side) (d : List UInt8) (timer : Option Nat) :
    (l.attemptSend s d timer).1.ends.get s = l.ends.get s := by
  have hdelivery : ∀ (l : Link) due,
      (l.attemptDelivery s d due).1.ends.get s = l.ends.get s := by
    intro l due
    unfold attemptDelivery
    split
    · rfl
    · split
      · exact Both.get_set_of_other _ _ _
      · rfl
      · rfl
  unfold attemptSend
  cases timer with
  | some due => exact hdelivery l due
  | none =>
    simp only [handOver]
    cases l.network.dispatch.1 with
    | lost => rfl
    | due delay => exact hdelivery _ _

/-- A use receives a datagram at an end out of the slot, or drops the stack there. -/
def Frees (l : Link) (side : Side) (d : List UInt8) (u : Use) : Prop :=
  u = .dropStack side ∨ ∃ timer n, u = .stack side timer (.networkRecv n) ∧
    (l.use u).2 = some (.stack side (.networkRecv n) (.bytes (d.take n)))

/-- A receive is given what is in the slot. -/
theorem recv_of_slot (hs : (l.ends.get side).slot = some d) (timer : Option Nat) (n : Nat) :
    triedDeed side (.networkRecv n) (l.attempt side timer (.networkRecv n)).2 =
      some (.stack side (.networkRecv n) (.bytes (d.take n))) := by
  simp only [attempt, attemptRecv, Endpoint.recv, hs]
  rfl

/-- A call of the stack leaves its slot, or is a receive that is given what is in it. -/
theorem slot_attempt_caller (hs : (l.ends.get side).slot = some d) (timer : Option Nat)
    (call : Call) :
    ((l.attempt side timer call).1.ends.get side).slot = some d ∨
      ∃ n, call = .networkRecv n ∧ triedDeed side call (l.attempt side timer call).2 =
        some (.stack side (.networkRecv n) (.bytes (d.take n))) := by
  have htell : ∀ notice, ((l.attemptTell side notice).1.ends.get side).slot = some d := by
    intro notice
    obtain ⟨-, ht⟩ | ⟨-, ht⟩ := (l.ends.get side).tell_cases notice <;>
      simp only [attemptTell, ht, setEnd, Both.get_set_self] <;> exact hs
  cases call with
  | wait mask =>
    left
    rw [attempt, ends_attemptWait]
    exact Endpoint.slot_listen hs
  | networkSend d' =>
    left
    rw [attempt, ends_attemptSend]
    exact hs
  | networkRecv n => exact .inr ⟨n, rfl, recv_of_slot hs timer n⟩
  | appRecv n =>
    left
    simp only [attempt, attemptRead, Endpoint.read, setEnd, Both.get_set_self]
    exact hs
  | appSend | finReceived | unblock => exact .inl (htell _)

theorem Heeds.slot {o : Option Deed} (h : Heeds side e o e') : e'.slot = e.slot := by
  cases h <;> rfl

/-- **A datagram in the slot stays there until it is received.** A use leaves it, or is the receive
that is given it, or drops the stack. -/
theorem slot_use (hs : (l.ends.get side).slot = some d) (u : Use) :
    ((l.use u).1.ends.get side).slot = some d ∨ l.Frees side d u := by
  have hdoes := does_use l side u
  unfold Frees
  generalize (l.use u).2 = o at hdoes ⊢
  generalize (l.use u).1.ends.get side = e' at hdoes ⊢
  cases hdoes with
  | @calls timer call there =>
    obtain hslot | ⟨n, rfl, hdeed⟩ := slot_attempt_caller hs timer call
    · exact .inl hslot
    · exact .inr (.inr ⟨timer, n, rfl, hdeed⟩)
  | @meets timer call there =>
    obtain ⟨inbox, hend⟩ := attempt_peer l side timer call
    rw [hend]
    exact .inl hs
  | glances => exact .inl (Endpoint.slot_glance hs)
  | drops => exact .inr (.inl rfl)
  | moves heeds => exact .inl (heeds.slot.trans hs)
  | nothing => exact .inl hs

/-- **Any uses leave a datagram in the slot, up to the one that receives it.** -/
theorem slot_after (hs : (h.link.ends.get side).slot = some d) (us : List Use) :
    ((h.after us).link.ends.get side).slot = some d ∨
      ∃ before u later, us = before ++ u :: later ∧
        ((h.after before).link.ends.get side).slot = some d ∧
        (h.after before).link.Frees side d u := by
  induction us generalizing h with
  | nil => exact .inl hs
  | cons u us ih =>
    obtain hslot | hfrees := slot_use hs u
    · obtain hslot | ⟨before, v, later, rfl, hbefore, hfrees⟩ := @ih (h.next u) hslot
      · exact .inl hslot
      · exact .inr ⟨u :: before, v, later, rfl, hbefore, hfrees⟩
    · exact .inr ⟨[], u, us, rfl, hs, hfrees⟩

/-- **Datagrams cross in order and once.** A link has been used in any way, on any network: its
stacks and its applications have made any calls in any order, with any buffers and masks, and sends,
receives and waits have been given up at any point.

What the stack at an end has received is, in order, a beginning of what completed sends of the
other one have carried, each datagram cut to the length of its buffer; and as long as there is a
stack, what it has not received is all still with it. What is carried is all that is sent but for
the datagrams that the network loses, and a network that is reliable or latent loses none. A
datagram that a wait took off the queue stays until the next receive is given it, or the stack is
dropped. -/
theorem datagrams_cross_in_order (network : Network) (idleNear idleFar : Option Nat) (side : Side)
    (uses : List Use) :
    let h := Transit.after ⟨⟨.new network idleNear idleFar, []⟩, []⟩ uses
    (∃ taken, List.Forall₂ (fun r d => r.2 = d.take r.1) (h.received side) taken ∧
      taken <+: h.carried side.other ∧
      ((h.link.ends.get side).stackGone = false →
        h.carried side.other = taken ++ (h.link.ends.get side).queue)) ∧
    (h.carried side).Sublist (h.sent side) ∧
    (network.Lossless → (∀ u ∈ uses, u.Lossless) → h.carried side = h.sent side) ∧
    ∀ d, (h.link.ends.get side).slot = some d → ∀ us,
      ((h.after us).link.ends.get side).slot = some d ∨
      ∃ before u later, us = before ++ u :: later ∧
        ((h.after before).link.ends.get side).slot = some d ∧
        (u = .dropStack side ∨ ∃ timer n, u = .stack side timer (.networkRecv n) ∧
          ((h.after before).link.use u).2 =
            some (.stack side (.networkRecv n) (.bytes (d.take n)))) := by
  intro h
  have hnew : Crosses ((Link.new network idleNear idleFar).ends.get side) [] [] [] := by
    cases side <;> exact ⟨.nil, List.prefix_refl _, fun _ => rfl⟩
  obtain ⟨taken, hcrosses⟩ :=
    Crosses.after (h := ⟨⟨.new network idleNear idleFar, []⟩, []⟩) hnew uses
  refine ⟨⟨taken, hcrosses.cut, hcrosses.order, hcrosses.waits⟩,
    carried_sublist _ side (List.Sublist.refl _) uses, fun hl hus => ?_, fun d hs us => ?_⟩
  · exact carried_of_lossless (h := ⟨⟨.new network idleNear idleFar, []⟩, []⟩) hl rfl hus
  · exact slot_after hs us

/-- Two datagrams are sent after a send that is given up. A wait takes the first one off the queue,
and waits for something else leave it there. -/
def relayed : List Use :=
  [.stack .near none (.networkSend [9]), .stack .near none (.networkSend [1, 2, 3]), .clock 5,
    .stack .near (some 5) (.networkSend [1, 2, 3]), .glance .far .networkOnly,
    .stack .near none (.networkSend [4]), .clock 10, .stack .near (some 10) (.networkSend [4]),
    .glance .far .any, .stack .far none (.wait .any), .stack .far none (.networkRecv 2),
    .stack .far none (.networkRecv 5)]

/-- Both datagrams cross, the first one cut to two bytes and the second one whole. -/
theorem datagrams_cross_in_order_relayed :
    let h := Transit.after ⟨⟨.new (.latent 5) none none, []⟩, []⟩ relayed
    (∀ u ∈ relayed, u.Lossless) ∧
    h.received .far = [(2, [1, 2]), (5, [4])] ∧ h.sent .near = [[1, 2, 3], [4]] ∧
    ∃ taken, List.Forall₂ (fun r d => r.2 = d.take r.1) (h.received .far) taken ∧
      taken <+: h.sent .near := by
  intro h
  have hlossless : ∀ u ∈ relayed, u.Lossless := by simp [relayed, Use.Lossless]
  obtain ⟨-, -, hall, -⟩ := datagrams_cross_in_order (.latent 5) none none .near relayed
  obtain ⟨⟨taken, hcut, horder, -⟩, -⟩ :=
    datagrams_cross_in_order (.latent 5) none none .far relayed
  rw [Side.other, hall trivial hlossless] at horder
  exact ⟨hlossless, by decide +kernel, by decide +kernel, taken, hcut, horder⟩

end StopWait.Link
