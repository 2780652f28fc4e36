import StopWait.Proofs.Scripts
import StopWait.Proofs.Steady

/-!
# Transfers

Two steady sessions on a network that loses nothing. One application writes chunks and closes, the
other one asks for nothing. Every move that is made leaves less to do, and none of them breaks what
the sessions have agreed on.

* `Transfers`: **the invariant of a transfer**: the phase, two steady sessions and the scripts.
* `pending`: what is left to do, which sinks with every move that is made.
* `Transfers.stack`, `Transfers.app`: the moves of a session and of an application.
* `Transfers.after`: **any moves** keep the invariant.
-/

namespace StopWait.Link

open Session (Stage Response Party Phase response staged carry)

/-- A move that loses nothing. -/
def Move.Lossless : Move → Prop
  | .network n => n.Lossless
  | .turn _ | .clock _ => True

namespace World

/-- Whether a move is made. -/
def makes (w : World) : Move → Bool
  | .turn task => (w.act task).2
  | .clock _ | .network _ => false

/-- How many of the moves are made. -/
def strides (w : World) : List Move → Nat
  | [] => 0
  | m :: ms => (w.makes m).toNat + (w.move m).strides ms

end World

variable {w : World} {side : Side} {l : Link} {timer : Option Nat} {call : Call}

/-- A call leaves a lossless network as it is, and the time. -/
theorem attempt_leaves (h : l.network.Lossless) :
    (l.attempt side timer call).1.network = l.network ∧
      (l.attempt side timer call).1.now = l.now := by
  obtain ⟨delay, hdispatch⟩ := h.dispatch
  -- a delivery is not a matter of the network any more
  have hdelivery : ∀ (l : Link) d due, (l.attemptDelivery side d due).1.network = l.network ∧
      (l.attemptDelivery side d due).1.now = l.now := by
    intro l d due
    unfold attemptDelivery
    split
    · exact ⟨rfl, rfl⟩
    · split <;> exact ⟨rfl, rfl⟩
  cases call with
  | wait mask =>
    simp only [attempt, attemptWait]
    split
    · exact ⟨rfl, rfl⟩
    · split <;> exact ⟨rfl, rfl⟩
  | networkSend d =>
    cases timer with
    | some due => exact hdelivery l d due
    | none =>
      show (l.attemptSend side d none).1.network = _ ∧ (l.attemptSend side d none).1.now = _
      rw [attemptSend_of_lossless hdispatch]
      exact hdelivery { l with handed := d :: l.handed } d _
  | networkRecv n =>
    simp only [attempt, attemptRecv]
    split <;> exact ⟨rfl, rfl⟩
  | _ => exact ⟨rfl, rfl⟩

/-- **A session leaves the applications alone**, and a lossless network as it is, and the time. -/
theorem actStack_leaves {s : Session} {left : Nat} {results : List (Except Session.Error Unit)}
    (hd : (w.hosts.get side).driver = .session s left results) (h : w.link.network.Lossless) :
    (w.actStack side).1.apps = w.apps ∧
      (w.actStack side).1.link.network = w.link.network ∧
      (w.actStack side).1.link.now = w.link.now := by
  have hsession : ∀ timer, (w.actSession side timer s left results).1.apps = w.apps ∧
      (w.actSession side timer s left results).1.link.network = w.link.network ∧
      (w.actSession side timer s left results).1.link.now = w.link.now := by
    intro timer
    unfold World.actSession
    split
    · exact ⟨rfl, rfl, rfl⟩
    · rename_i p _
      have hleaves := @attempt_leaves side w.link timer (p.call s.connection) h
      split
      · rename_i hr
        rw [hr] at hleaves
        exact ⟨rfl, hleaves⟩
      · rename_i hr
        rw [hr] at hleaves
        exact ⟨rfl, hleaves⟩
  simp only [World.actStack, hd, World.conclude]
  split
  · exact ⟨rfl, rfl, rfl⟩
  · split
    · split <;> exact ⟨rfl, rfl, rfl⟩
    · exact hsession _

variable {i j : UInt32} {d n : Nat} {a a' b b' : Party} {f f' moved : Bool}
  {o : Option (Call × Response)} {sent : List Segment}

/-- **A move of the writer.** -/
theorem writer_advances (h : Phase i j d a b n) (ha : Advances a f moved o a' f' sent) :
    ∃ m, Phase i j d a' (b.receive sent) m ∧
      m + (!f').toNat + moved.toNat ≤ n + (!f).toNat + 9 * (readIn o).length := by
  cases ha with
  | stays =>
    rw [Party.receive_nil]
    exact ⟨n, h, by simp⟩
  | retires hf hx dropped =>
    rw [Party.receive_nil, hf]
    refine ⟨n, ?_, by simp⟩
    unfold retired
    split
    · exact h.writer_retires hx
    · exact h
  | begins hx hfree hc =>
    obtain ⟨m, hlt, h'⟩ := h.writer_begins hx hfree hc
    rw [Party.receive_nil]
    exact ⟨m, h', by simp only [Bool.toNat_true]; omega⟩
  | steps hs =>
    obtain ⟨m, hlt, h'⟩ := h.writer hs
    exact ⟨m, h', by simp only [readIn, Option.elim, Bool.toNat_true]; omega⟩

/-- **A move of the other party.** -/
theorem other_advances (h : Phase i j d a b n) (hb : Advances b f moved o b' f' sent)
    (hquiet : ∀ d, o = some d → d.2 ≠ .event .appData ∧ d.2 ≠ .event .appCloseRequested) :
    ∃ m, Phase i j (d + (deliveredIn o).length) (a.receive sent) b' m ∧
      m + (!f').toNat + moved.toNat ≤ n + (!f).toNat := by
  cases hb with
  | stays =>
    rw [Party.receive_nil]
    exact ⟨n, h, by simp⟩
  | retires hf hx dropped =>
    rw [Party.receive_nil, hf]
    refine ⟨n, ?_, by simp⟩
    unfold retired
    split
    · exact h.other_retires hx
    · exact h
  | begins hx hfree hc =>
    obtain ⟨m, hlt, h'⟩ := h.other_begins hx hfree hc
    rw [Party.receive_nil]
    exact ⟨m, h', by simp only [Bool.toNat_true]; omega⟩
  | steps hs =>
    obtain ⟨m, hlt, h'⟩ := h.other hs (hquiet _ rfl)
    exact ⟨m, h', by simp only [Bool.toNat_true]; omega⟩

theorem Advances.sent_eq_nil (h : Advances a f moved o a' f' sent) (hx : a.stage = .ended) :
    sent = [] := by
  cases h with
  | steps hs =>
    rw [hs.whole, Party.out, hx]
    rfl
  | _ => rfl

/-- Nobody moves who makes no move. -/
theorem Advances.of_unmade (h : Advances a f false o a' f' sent) :
    o = none ∧ a' = a ∧ f' = f ∧ sent = [] := by
  cases h
  exact ⟨rfl, rfl, rfl, rfl⟩

/-- An answered call does not make a party fail. -/
theorem Advances.sound (h : Advances a f moved o a' f' sent) (ho : o ≠ none) (e : Session.Error) :
    a'.stage ≠ .failed e := by
  cases h with
  | steps hs => exact hs.sound e
  | _ => exact absurd rfl ho

theorem Advances.ne_ended {d : Call × Response} (h : Advances a f moved (some d) a' f' sent) :
    a.stage ≠ .ended := by
  cases h with
  | steps hs => exact hs.ne_ended

/-- **The invariant of a transfer** of `total`, with the connections at first, the parties now and
the rank of their phase. -/
structure Transfers (c₀ : Side → Connection) (writer : Side) (total : List UInt8) (h : Chronicle)
    (p : Both Party) (n : Nat) : Prop where
  holds : Holds c₀ h p
  phase : Phase (c₀ writer).iss (c₀ writer.other).iss (h.delivered writer.other).length
    (p.get writer) (p.get writer.other) n
  steady : ∀ s, Steady (h.world.hosts.get s) (h.world.link.ends.get s) (p.get s)
  deaf : ∀ s, (h.world.link.ends.get s).networkClosed = true →
    (h.world.link.ends.get s.other).stackGone = true ∧ (h.world.link.ends.get s).queue = []
  lossless : h.world.link.network.Lossless
  pens : Pens total (h.world.apps.get writer).script (h.written writer) (h.closing writer)
  silent : (∀ step ∈ (h.world.apps.get writer.other).script, step.isQuiet = true) ∧
    h.written writer.other = [] ∧ h.closing writer.other = none

/-- **What is left to do**: bytes that have to be read, the turns of the phase, tasks that have to
finish, and steps of the scripts. -/
def pending (writer : Side) (total : List UInt8) (h : Chronicle) (n : Nat) : Nat :=
  9 * (total.length - (h.read writer).length) + n +
    ((!(h.world.hosts.get writer).finished).toNat +
      (!(h.world.hosts.get writer.other).finished).toNat) +
    ((h.world.apps.get writer).script.length + (h.world.apps.get writer.other).script.length)

variable {c₀ : Side → Connection} {writer : Side} {total : List UInt8} {h : Chronicle}
  {p q : Both Party}

theorem Transfers.ended_of_gone (hT : Transfers c₀ writer total h p n) {s : Side}
    (hg : (h.world.link.ends.get s).stackGone = true) : (p.get s).stage = .ended :=
  (hT.steady s).finished ((hT.holds.station s).stack hg)

/-- The session of whoever has not ended is there. -/
theorem Transfers.there (hT : Transfers c₀ writer total h p n) {s : Side}
    (hx : (p.get s).stage ≠ .ended) : (h.world.link.ends.get s).stackGone = false :=
  Bool.eq_false_iff.2 fun hg => hx (hT.ended_of_gone hg)

theorem Transfers.done_of_ended (hT : Transfers c₀ writer total h p n) {s : Side}
    (hx : (p.get s).stage = .ended) : (p.get s).connection.done = true := by
  obtain ⟨left, results, hd, hok⟩ := (hT.holds.station s).driver
  rw [(hT.steady s).driver, hx] at hd
  injection hd with _ _ hresults
  exact hok (hresults ▸ List.mem_cons_self)

/-- While the writer has not closed, nobody has ended. -/
theorem Transfers.ne_ended_of_closing (hT : Transfers c₀ writer total h p n)
    (hc : h.closing writer = none) (s : Side) : (p.get s).stage ≠ .ended := by
  intro hx
  obtain ⟨⟨closer, hv⟩, hall⟩ := hT.holds.delivered_of_done (hT.done_of_ended hx)
  -- whoever closed first is the writer
  have hclosing := hall closer hv
  rcases Side.eq_or_eq_other closer writer with rfl | rfl
  · rw [hc] at hclosing
    cases hclosing
  · rw [hT.silent.2.2] at hclosing
    cases hclosing

theorem Transfers.apt (hT : Transfers c₀ writer total h p n) (s : Side) : (p.get s).Apt := by
  rcases Side.eq_or_eq_other s writer with rfl | rfl
  · exact hT.phase.apt.1
  · exact hT.phase.apt.2

/-- Nobody waits for a stack that is gone. -/
theorem Transfers.company (hT : Transfers c₀ writer total h p n) (s : Side)
    (hg : (h.world.link.ends.get s.other).stackGone = true) (hne : (p.get s).stage ≠ .ended) :
    (p.get s).mail ≠ [] ∧ ∀ m bytes, (p.get s).stage ≠ .sending m bytes := by
  have hended := hT.ended_of_gone hg
  obtain ⟨hwriter, hother⟩ := hT.phase.company
  rcases Side.eq_or_eq_other s writer with rfl | rfl
  · exact absurd (hother hended) hne
  · rw [Side.other_other] at hended
    exact (hwriter hended).resolve_left hne

/-- What a move of a session makes of the parties. -/
def Both.parties (p : Both Party) (side : Side) (p' : Party) (sent : List Segment) : Both Party :=
  (p.set side p').set side.other ((p.get side.other).receive sent)

@[simp] theorem Both.parties_get (p : Both Party) (side : Side) (p' : Party) (sent : List Segment) :
    (p.parties side p' sent).get side = p' := by
  unfold Both.parties
  rw [Both.get_set_of_other, Both.get_set_self]

@[simp] theorem Both.parties_get_other (p : Both Party) (side : Side) (p' : Party)
    (sent : List Segment) :
    (p.parties side p' sent).get side.other = (p.get side.other).receive sent :=
  Both.get_set_self _ _ _

section stack

variable {p' : Party} {deed : Option Deed}
  (hT : Transfers c₀ writer total h p n)
  (hs : Serving (c₀ side) side (h.world.hosts.get side) (w.hosts.get side)
    (h.world.link.ends.get side) (w.link.ends.get side) (h.world.link.ends.get side.other)
    (w.link.ends.get side.other) deed (p.get side) p' o sent moved)

include hT hs

theorem steady_stack (hhost : w.hosts.get side.other = h.world.hosts.get side.other) (s : Side) :
    Steady (w.hosts.get s) (w.link.ends.get s) ((p.parties side p' sent).get s) := by
  rcases Side.eq_or_eq_other s side with rfl | rfl
  · rw [Both.parties_get]
    exact hs.steady
  · obtain ⟨inbox, hpeer⟩ := hs.alters.peer
    have hother := hT.steady side.other
    rw [Both.parties_get_other, hhost, hpeer]
    exact ⟨hother.driver, hother.finished, hother.calm, hother.patient, hother.app, hother.fetches⟩

/-- Nobody sees the end of a queue before the peer is gone and nothing is left. -/
theorem deaf_stack (s : Side) (hc : (w.link.ends.get s).networkClosed = true) :
    (w.link.ends.get s.other).stackGone = true ∧ (w.link.ends.get s).queue = [] := by
  obtain ⟨inbox, hpeer⟩ := hs.alters.peer
  rcases Side.eq_or_eq_other s side with rfl | rfl
  · obtain ⟨hg, hq⟩ := (hs.alters.shuts hc).elim (hT.deaf s) id
    exact ⟨hs.effect.peer.2.2.trans hg, hs.alters.queue hq⟩
  · rw [hpeer] at hc
    obtain ⟨hg, hq⟩ := hT.deaf side.other hc
    rw [Side.other_other] at hg ⊢
    refine ⟨hs.alters.gone hg, ?_⟩
    rw [hs.effect.queue, hq, hs.advances.sent_eq_nil (hT.ended_of_gone hg)]
    rfl

/-- The phase goes on, and less is left to do. -/
theorem phase_stack (hhost : w.hosts.get side.other = h.world.hosts.get side.other)
    (happs : w.apps = h.world.apps) (hholds : Holds c₀ (h.next w deed) (p.parties side p' sent)) :
    ∃ m, Phase (c₀ writer).iss (c₀ writer.other).iss
        ((h.next w deed).delivered writer.other).length ((p.parties side p' sent).get writer)
        ((p.parties side p' sent).get writer.other) m ∧
      pending writer total (h.next w deed) m + moved.toNat ≤ pending writer total h n := by
  have hread : ((h.next w deed).read writer).length ≤ total.length := by
    have hsub := (hholds.books writer).sub
    rw [written_stack hs.effect.deed] at hsub
    exact (hsub.trans hT.pens.prefix).length_le
  unfold pending
  simp only [Chronicle.next_world, happs]
  rcases Side.eq_or_eq_other writer side with rfl | rfl
  · obtain ⟨m, hphase, hle⟩ := writer_advances hT.phase hs.advances
    rw [read_self hs.effect.deed, List.length_append] at hread
    rw [delivered_other hs.effect.deed, read_self hs.effect.deed, List.length_append, hhost,
      Both.parties_get, Both.parties_get_other]
    exact ⟨m, hphase, by omega⟩
  · have hphase := hT.phase
    have hsilent := hT.silent.2
    rw [Side.other_other] at hphase hsilent ⊢
    -- the application of the other party has asked for nothing
    have hquiet : ∀ d, o = some d → d.2 ≠ .event .appData ∧ d.2 ≠ .event .appCloseRequested := by
      intro d ho
      have hthere := hT.there (ho ▸ hs.advances).ne_ended
      have hbooks := hT.holds.books side
      have htotal := hbooks.total hthere
      have hpledge := hbooks.pledge hthere
      rw [hsilent.1] at htotal
      rw [hsilent.2] at hpledge
      exact hs.silent (List.append_eq_nil_iff.1 htotal.symm).2 (Option.map_eq_none_iff.1 hpledge.symm)
        d ho
    obtain ⟨m, hphase', hle⟩ := other_advances hphase hs.advances hquiet
    rw [delivered_self hs.effect.deed, List.length_append, read_other hs.effect.deed, hhost,
      Both.parties_get, Both.parties_get_other]
    exact ⟨m, hphase', by omega⟩

end stack

/-- What a move of a session comes to. -/
theorem Transfers.serves (h₀ : ∀ s, (c₀ s).Free .listen) (hT : Transfers c₀ writer total h p n)
    (side : Side) :
    Serves (h.world.link.network.dispatch.1 = .lost) (c₀ side) (p.get side).connection
        (p.get side).stage side (h.world.hosts.get side) (tally (p.get side).stage).1
        (tally (p.get side).stage).2 (h.world.link.ends.get side)
        (h.world.link.ends.get side.other) (h.world.stackDeed? side)
        ((h.world.actStack side).1.hosts.get side) ((h.world.actStack side).1.link.ends.get side)
        ((h.world.actStack side).1.link.ends.get side.other) (h.world.actStack side).2 ∧
      (h.world.actStack side).1.hosts.get side.other = h.world.hosts.get side.other :=
  serves_actStack (h₀ side) h.world side (hT.steady side).driver (hT.holds.station side).fits
    (hT.holds.station side).rests

/-- **What the turn of a session comes to for its party**: the party after, the answered call and
the segments for the peer. -/
def Chronicle.Turned (h : Chronicle) (c₀ : Side → Connection) (side : Side) (p p' : Party)
    (o : Option (Call × Response)) (sent : List Segment) : Prop :=
  Serving (c₀ side) side (h.world.hosts.get side) ((h.world.actStack side).1.hosts.get side)
    (h.world.link.ends.get side) ((h.world.actStack side).1.link.ends.get side)
    (h.world.link.ends.get side.other) ((h.world.actStack side).1.link.ends.get side.other)
    (h.world.stackDeed? side) p p' o sent (h.world.actStack side).2

theorem Transfers.serving (h₀ : ∀ s, (c₀ s).Free .listen) (hT : Transfers c₀ writer total h p n)
    (side : Side) : ∃ p' o sent, h.Turned c₀ side (p.get side) p' o sent := by
  have hlossless : ¬ h.world.link.network.dispatch.1 = .lost := by
    obtain ⟨delay, hd⟩ := hT.lossless.dispatch
    rw [hd]
    nofun
  exact (hT.steady side).serves (h₀ side) (hT.holds.station side) (hT.apt side) hlossless
    (hT.deaf side) (hT.company side) (hT.serves h₀ side).1

/-- **A move of a session** keeps the invariant, and leaves less to do if it is made. -/
theorem Transfers.served (h₀ : ∀ s, (c₀ s).Free .listen) (hT : Transfers c₀ writer total h p n)
    {side : Side} {p' : Party} (hs : h.Turned c₀ side (p.get side) p' o sent) :
    ∃ m, Transfers c₀ writer total (h.move (.turn (.stack side))) (p.parties side p' sent) m ∧
      pending writer total (h.move (.turn (.stack side))) m + (h.world.actStack side).2.toNat ≤
        pending writer total h n := by
  obtain ⟨happs, hnetwork, -⟩ := actStack_leaves (hT.steady side).driver hT.lossless
  have hhost := (hT.serves h₀ side).2
  have hholds := hT.holds.stack h₀ hs.effect hhost
  obtain ⟨m, hphase, hle⟩ := phase_stack hT hs hhost happs hholds
  rw [Chronicle.move_stack]
  refine ⟨m, ?_, hle⟩
  exact {
    holds := hholds
    phase := hphase
    steady := steady_stack hT hs hhost
    deaf := deaf_stack hT hs
    lossless := hnetwork ▸ hT.lossless
    pens := by
      rw [written_stack hs.effect.deed, closing_stack hs.effect.deed, Chronicle.next_world, happs]
      exact hT.pens
    silent := by
      rw [written_stack hs.effect.deed, closing_stack hs.effect.deed, Chronicle.next_world, happs]
      exact hT.silent }

/-- **Every move of a session** keeps the invariant, and leaves less to do if it is made. -/
theorem Transfers.stack (h₀ : ∀ s, (c₀ s).Free .listen) (hT : Transfers c₀ writer total h p n)
    (side : Side) : ∃ q m, Transfers c₀ writer total (h.move (.turn (.stack side))) q m ∧
      pending writer total (h.move (.turn (.stack side))) m + (h.world.actStack side).2.toNat ≤
        pending writer total h n := by
  obtain ⟨p', o, sent, hs⟩ := hT.serving h₀ side
  exact ⟨_, hT.served h₀ hs⟩

/-- What an application leaves of its endpoint, as long as it keeps its handle. -/
theorem Heeds.leaves {e e' : Endpoint} {deed : Option Deed} (hd : Heeds side e deed e')
    (hdrop : deed ≠ some (.drop side)) :
    e'.idleTimeout = e.idleTimeout ∧ e'.appGone = e.appGone ∧ e'.buffer = e.buffer ∧
      e'.networkClosed = e.networkClosed := by
  cases hd with
  | drops => exact absurd rfl hdrop
  | _ => exact ⟨rfl, rfl, rfl, rfl⟩

/-- An application reads and delivers nothing. -/
theorem Heeds.carries {e e' : Endpoint} {deed : Option Deed} (hd : Heeds side e deed e')
    (s : Side) : (h.next w deed).read s = h.read s ∧ (h.next w deed).delivered s = h.delivered s := by
  rw [read_next, delivered_next, (hd.elsewhere s).1, (hd.elsewhere s).2.2.1, List.append_nil,
    List.append_nil]
  exact ⟨rfl, rfl⟩

/-- What a move of an application makes of the scripts. -/
theorem Transfers.scripts (hT : Transfers c₀ writer total h p n) (side : Side) :
    let g := h.next (h.world.actApp side).1 (h.world.appDeed? side)
    Shortens h.world side ∧ h.world.appDeed? side ≠ some (.drop side) ∧
      Pens total (g.world.apps.get writer).script (g.written writer) (g.closing writer) ∧
      (∀ step ∈ (g.world.apps.get writer.other).script, step.isQuiet = true) ∧
      g.written writer.other = [] ∧ g.closing writer.other = none := by
  intro g
  obtain ⟨hd, -, -⟩ := heeds_actApp h.world side
  obtain ⟨happs, -⟩ := actApp_other h.world side
  have happ := (hT.steady side).app
  obtain ⟨hquiet, hwritten, hclosing⟩ := hT.silent
  have helsewhere := fun s hs => (hd.elsewhere s).2.2.2 hs
  simp only [g, written_next, closing_next, Chronicle.next_world]
  rcases Side.eq_or_eq_other writer side with rfl | rfl
  · -- the stack of the writer is there until it has closed
    have hthere : h.closing writer = none → (h.world.link.ends.get writer).stackGone = false :=
      fun hc => hT.there (hT.ne_ended_of_closing hc writer)
    obtain ⟨hshort, hdrop, hpens⟩ := hT.pens.actApp happ hthere
    obtain ⟨hw, hc⟩ := helsewhere writer.other (Side.other_ne writer)
    rw [happs, hw, hc, hwritten, hclosing]
    exact ⟨hshort, hdrop, hpens, hquiet, rfl, rfl⟩
  · rw [Side.other_other] at hquiet hwritten hclosing ⊢
    obtain ⟨hdeed, hshort, hquiet'⟩ := quiet_actApp hquiet happ
    obtain ⟨hw, hc⟩ := helsewhere side.other (Side.other_ne side)
    rw [happs, hw, hc, hdeed.1, hdeed.2, hwritten, hclosing, List.append_nil, Option.map_none,
      Option.or_none]
    exact ⟨hshort, hdeed.ne_drop, hT.pens, hquiet', rfl, rfl⟩

/-- **Every move of an application** keeps the invariant, and leaves less to do if it is made. -/
theorem Transfers.app (hT : Transfers c₀ writer total h p n) (side : Side) :
    Transfers c₀ writer total (h.move (.turn (.app side))) p n ∧
      pending writer total (h.move (.turn (.app side))) n + (h.world.actApp side).2.toNat ≤
        pending writer total h n := by
  obtain ⟨hd, hend, hhosts⟩ := heeds_actApp h.world side
  obtain ⟨happs, hnetwork⟩ := actApp_other h.world side
  obtain ⟨hshort, hdrop, hpens, hsilent⟩ := hT.scripts side
  obtain ⟨hidle, happ, hbuffer, hclosed⟩ := hd.leaves hdrop
  obtain ⟨hqueue, hstack⟩ := hd.queue
  rw [Chronicle.move_app]
  constructor
  · exact {
      holds := hT.holds.app side hd hend hhosts
      phase := by
        rw [(hd.carries _).2]
        exact hT.phase
      steady := fun s => by
        have hs := hT.steady s
        rw [Chronicle.next_world, hhosts]
        rcases Side.eq_or_eq_other s side with rfl | rfl
        · exact ⟨hs.driver, hs.finished, hs.calm, hidle.trans hs.patient, happ.trans hs.app,
            fun hx => hbuffer ▸ hs.fetches hx⟩
        · rw [hend]
          exact hs
      deaf := fun s => by
        have hs := hT.deaf s
        rw [Chronicle.next_world]
        rcases Side.eq_or_eq_other s side with rfl | rfl
        · rw [hclosed, hend, hqueue]
          exact hs
        · rw [Side.other_other] at hs ⊢
          rw [hend, hstack]
          exact hs
      lossless := by
        rw [Chronicle.next_world, hnetwork]
        exact hT.lossless
      pens := hpens
      silent := hsilent }
  · unfold pending
    unfold Shortens at hshort
    rw [(hd.carries _).1, Chronicle.next_world, hhosts]
    rcases Side.eq_or_eq_other writer side with rfl | rfl
    · rw [happs]
      omega
    · rw [Side.other_other, happs]
      omega

/-- Time and another lossless network are nothing to a transfer. -/
theorem Transfers.still (hT : Transfers c₀ writer total h p n)
    (hends : w.link.ends = h.world.link.ends) (hhosts : w.hosts = h.world.hosts)
    (happs : w.apps = h.world.apps) (hnetwork : w.link.network.Lossless) :
    Transfers c₀ writer total (h.next w none) p n ∧
      pending writer total (h.next w none) n ≤ pending writer total h n := by
  have hdeeds : (h.next w none).deeds = h.deeds := List.append_nil _
  have hwritten : ∀ s, (h.next w none).written s = h.written s := fun s =>
    congrArg (List.flatMap (Deed.written s)) hdeeds
  have hclosing : ∀ s, (h.next w none).closing s = h.closing s := fun s =>
    congrArg (writtenUptoClose s) hdeeds
  have hcarries : ∀ s, (h.next w none).read s = h.read s ∧
      (h.next w none).delivered s = h.delivered s :=
    (@Heeds.hears .near h.world.link.ends.near none [] (.inl rfl)).carries
  constructor
  · exact {
      holds := hT.holds.still hends hhosts
      phase := by
        rw [(hcarries _).2]
        exact hT.phase
      steady := by
        rw [Chronicle.next_world, hends, hhosts]
        exact hT.steady
      deaf := by
        rw [Chronicle.next_world, hends]
        exact hT.deaf
      lossless := hnetwork
      pens := by
        rw [hwritten, hclosing, Chronicle.next_world, happs]
        exact hT.pens
      silent := by
        rw [hwritten, hclosing, Chronicle.next_world, happs]
        exact hT.silent }
  · have hsame : pending writer total (h.next w none) n = pending writer total h n := by
      simp only [pending, hcarries, Chronicle.next_world, hhosts, happs]
    exact Nat.le_of_eq hsame

/-- **Every move** keeps the invariant, and leaves less to do if it is made. -/
theorem Transfers.move (h₀ : ∀ s, (c₀ s).Free .listen) (hT : Transfers c₀ writer total h p n)
    {m : Move} (hm : m.Lossless) : ∃ q k, Transfers c₀ writer total (h.move m) q k ∧
      pending writer total (h.move m) k + (h.world.makes m).toNat ≤ pending writer total h n := by
  cases m with
  | clock now =>
    obtain ⟨hT', hle⟩ := hT.still (w := h.world.atTime now) rfl rfl rfl hT.lossless
    exact ⟨p, n, hT', hle⟩
  | network network =>
    obtain ⟨hT', hle⟩ :=
      hT.still (w := { h.world with link := { h.world.link with network } }) rfl rfl rfl hm
    exact ⟨p, n, hT', hle⟩
  | turn task =>
    cases task with
    | app side =>
      obtain ⟨hT', hle⟩ := hT.app side
      exact ⟨p, n, hT', hle⟩
    | stack side => exact hT.stack h₀ side

/-- **Any moves** keep the invariant, and no more of them are made than there was to do. -/
theorem Transfers.after (h₀ : ∀ s, (c₀ s).Free .listen) (hT : Transfers c₀ writer total h p n)
    {moves : List Move} (hm : ∀ m ∈ moves, m.Lossless) :
    ∃ q k, Transfers c₀ writer total (h.after moves) q k ∧
      pending writer total (h.after moves) k + h.world.strides moves ≤
        pending writer total h n := by
  induction moves generalizing h p n with
  | nil => exact ⟨p, n, hT, Nat.le_refl _⟩
  | cons m ms ih =>
    obtain ⟨q, k, hT', hle⟩ := hT.move h₀ (hm m List.mem_cons_self)
    obtain ⟨q', k', hT'', hle'⟩ := ih hT' fun m' hm' => hm m' (List.mem_cons_of_mem _ hm')
    refine ⟨q', k', hT'', ?_⟩
    have hworld : (h.move m).world = h.world.move m := rfl
    rw [hworld] at hle'
    simp only [World.strides]
    show pending writer total ((h.move m).after ms) k' + _ ≤ _
    omega

end StopWait.Link
