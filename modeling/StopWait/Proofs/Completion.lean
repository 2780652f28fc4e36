import Mathlib
import StopWait.Proofs.Transfer

/-!
# Transfers that complete

Two sessions on a network that loses nothing. One application writes chunks and closes, the other
one stays and asks for nothing. Whatever the order of the moves, no session fails, the number of
moves is bounded, something can be done until both runs have returned, and then everything has been
delivered.

* `Transfer`: two ends and a network that are set up for it.
* `Transfers.canMove`: until both runs have ended there is a move to make.
* `transfers_joined`: the invariant of a transfer holds at first.
* `Complete`, `transfer_completes`: **what a transfer comes to.**
-/

namespace StopWait.Link

open Session (Stage Party Phase staged)

/-- **Two ends and a network that are set up for a transfer**: sessions that are run once, wait for
as long as it takes and have a transfer log that takes every record, if any. One application writes
chunks and closes, the other one asks for nothing, and both keep their handles. -/
structure Transfer (network : Network) (ends : Both Setup) (writer : Side)
    (chunks : List (List UInt8)) (rest : List AppStep) : Prop where
  lossless : network.Lossless
  runs : ∀ s, (ends.get s).runs = 1
  patient : ∀ s, (ends.get s).idleTimeout = none
  log : ∀ s sink, (ends.get s).sink = some sink → sink.refused = []
  writes : (ends.get writer).script = writing chunks rest
  rest : ∀ step ∈ rest, step.isQuiet = true
  silent : ∀ step ∈ (ends.get writer.other).script, step.isQuiet = true

variable {c₀ : Side → Connection} {writer : Side} {total : List UInt8} {h : Chronicle}
  {p : Both Party} {n : Nat}

/-- There is room for what is sent. -/
theorem Transfers.hasRoom (hT : Transfers c₀ writer total h p n) (s : Side) :
    (h.world.link.ends.get s).inbox.length < inboxCapacity := by
  have hmail : (p.get s).mail.length ≤ 2 := by
    rcases Side.eq_or_eq_other s writer with rfl | rfl
    · exact hT.phase.length_mail.1
    · exact hT.phase.length_mail.2
  have hqueue := congrArg List.length (hT.holds.station s).queue
  simp only [Endpoint.queue, List.length_append, List.length_map] at hqueue
  simp only [inboxCapacity]
  omega

/-- Whoever has not ended has not finished. -/
theorem Transfers.unfinished (hT : Transfers c₀ writer total h p n) {s : Side}
    (hx : (p.get s).stage ≠ .ended) : (h.world.hosts.get s).finished = false :=
  Bool.eq_false_iff.2 fun hf => hx ((hT.steady s).finished hf)

theorem Transfers.there_of_sending (hT : Transfers c₀ writer total h p n) {s : Side}
    {m : Session.Message} {bytes : List UInt8} (hx : (p.get s).stage = .sending m bytes) :
    (h.world.link.ends.get s.other).stackGone = false :=
  Bool.eq_false_iff.2 fun hg => (hT.company s hg (by rw [hx]; nofun)).2 m bytes hx

/-- **A party that stirs moves at any time**, unless it has a segment to send. -/
theorem Transfers.moves_of_stirs (hT : Transfers c₀ writer total h p n) (s : Side)
    (hs : (p.get s).Stirs) (hsend : ∀ m bytes, (p.get s).stage ≠ .sending m bytes) (now : Nat) :
    ((h.world.atTime now).actStack s).2 = true := by
  have hsteady := hT.steady s
  refine Link.moves_of_stirs (w := h.world.atTime now) hsteady.driver
    (hT.unfinished hs.ne_ended) ?_ ?_ (fun hc => (hT.deaf s hc).2) hsteady.patient hs hsend
  · intro hx
    rw [hx]
    nofun
  · intro hm
    show (h.world.link.ends.get s).queue ≠ []
    rw [(hT.holds.station s).queue, Ne, List.map_eq_nil_iff]
    exact hm

theorem Transfers.canMove_of_stirs (hT : Transfers c₀ writer total h p n) (s : Side)
    (hs : (p.get s).Stirs) : h.world.CanMove (.stack s) ∨
      (h.world.move (.turn (.stack s))).CanMove (.stack s) := by
  by_cases hsend : ∃ m bytes, (p.get s).stage = .sending m bytes
  · obtain ⟨m, bytes, hx⟩ := hsend
    have hdriver := (hT.steady s).driver
    rw [hx] at hdriver
    exact canMove_of_sending hdriver (hT.unfinished hs.ne_ended) hT.lossless
      (hT.there_of_sending hx) (hT.hasRoom s.other)
  · exact .inl ⟨0, fun now _ => hT.moves_of_stirs s hs (fun m bytes hx => hsend ⟨m, bytes, hx⟩) now⟩

/-- **Until both have ended, something can be done**, perhaps after a session has tried its call. -/
theorem Transfers.canMove (h₀ : ∀ s, (c₀ s).Free .listen) (hT : Transfers c₀ writer total h p n)
    (hne : ∃ s, (p.get s).stage ≠ .ended) :
    ∃ side task, h.world.CanMove task ∨ (h.world.move (.turn (.stack side))).CanMove task := by
  obtain ⟨ha, hb⟩ | ha | hb | ⟨hx, hm⟩ := hT.phase.stirs
  · obtain ⟨s, hs⟩ := hne
    rcases Side.eq_or_eq_other s writer with rfl | rfl
    · exact absurd ha hs
    · exact absurd hb hs
  · exact ⟨writer, _, hT.canMove_of_stirs writer ha⟩
  · exact ⟨writer.other, _, hT.canMove_of_stirs writer.other hb⟩
  · -- the writer is idle: its application has more to ask for
    have hsteady := hT.steady writer
    have hdriver := hsteady.driver
    rw [hx] at hdriver
    have hended : (p.get writer).stage ≠ .ended := by rw [hx]; nofun
    have hfin := hT.unfinished hended
    obtain hmove | ⟨hreq, hpledged, hstack⟩ := moves_of_idle hdriver hfin hsteady.patient
    · exact ⟨writer, .stack writer, .inl ⟨0, fun now _ => hmove now⟩⟩
    · -- the try takes in every request, so there is room for one more
      obtain ⟨q, k, hT', -⟩ := hT.stack h₀ writer
      have hworld : (h.move (.turn (.stack writer))).world = (h.world.actStack writer).1 := rfl
      have hthere : ((h.world.actStack writer).1.link.ends.get writer).stackGone = false :=
        hstack.trans (hT.there hended)
      have hpledge := (hT'.holds.books writer).pledge hthere
      rw [hworld, hpledged, Option.map_none] at hpledge
      have hpens := hT'.pens
      have happ := (hT'.steady writer).app
      rw [hpledge, hworld] at hpens
      rw [hworld] at happ
      have hroom : ((h.world.actStack writer).1.link.ends.get writer).requests.length <
          requestCapacity := by
        rw [hreq]
        decide
      generalize hscript : ((h.world.actStack writer).1.apps.get writer).script = script at hpens
      -- nothing is pledged: the script is not at its end
      cases hpens with
      | @writes chunks rest =>
        refine ⟨writer, .app writer, .inr ?_⟩
        cases chunks with
        | nil => exact canMove_app (r := .close) hscript happ hthere hroom
        | cons bytes chunks =>
          exact canMove_app (r := .write bytes) hscript happ hthere hroom

variable {network : Network} {opener : Side} {ends : Both Setup} {chunks : List (List UInt8)}
  {rest : List AppStep}

/-- The parties at first. -/
def firstParties (opener : Side) (ends : Both Setup) : Both Party :=
  ⟨⟨firstConnection opener ends .near, .ready, []⟩, ⟨firstConnection opener ends .far, .ready, []⟩⟩

variable {s : Side}

theorem get_firstParties (s : Side) :
    (firstParties opener ends).get s = ⟨firstConnection opener ends s, .ready, []⟩ := by
  cases s <;> rfl

/-- The roles and numbers of the connections at first. -/
theorem firstConnection_facts (s : Side) :
    (firstConnection opener ends s).role = roleOf opener s ∧
      (firstConnection opener ends s).iss = (ends.get s).settings.iss := by
  unfold firstConnection Setup.connection Connection.opened
  cases (ends.get s).sink <;> exact ⟨rfl, rfl⟩

/-- Two parties that have not begun are in the first phase. -/
theorem phase_joined (opener : Side) (ends : Both Setup) (writer : Side) :
    Phase (firstConnection opener ends writer).iss (firstConnection opener ends writer.other).iss 0
      ⟨firstConnection opener ends writer, .ready, []⟩
      ⟨firstConnection opener ends writer.other, .ready, []⟩ 27 := by
  have hrole := (@firstConnection_facts opener ends writer).1
  have hrole' := (@firstConnection_facts opener ends writer.other).1
  -- either party may be the one that calls
  by_cases hw : writer = opener
  · have hactive : roleOf opener writer = .active := if_pos hw
    have hpassive : roleOf opener writer.other = .passive :=
      if_neg fun h => Side.other_ne writer (h.trans hw.symm)
    exact .calls (.meets (.ready (hrole.trans hactive) rfl) (.ready (hrole'.trans hpassive) rfl))
  · have hpassive : roleOf opener writer = .passive := if_neg hw
    have hactive : roleOf opener writer.other = .active := by
      refine if_pos ?_
      rcases Side.eq_or_eq_other opener writer with h | h
      · exact absurd h.symm hw
      · exact h.symm
    exact .called (.meets (.ready (hrole'.trans hactive) rfl) (.ready (hrole.trans hpassive) rfl))

/-- A transfer log that refuses nothing is calm at first. -/
theorem calm_firstConnection (ht : ∀ sink, (ends.get s).sink = some sink → sink.refused = []) :
    (firstConnection opener ends s).log.Calm :=
  Connection.calm_opened _ _ _ ht

/-- **The invariant holds at first.** -/
theorem transfers_joined (ht : Transfer network ends writer chunks rest) (opener : Side) :
    Transfers (firstConnection opener ends) writer chunks.flatten
      (World.joined network opener ends).chronicle (firstParties opener ends) 27 := by
  have hpens : Pens chunks.flatten (ends.get writer).script [] none := by
    rw [ht.writes]
    exact .writes ht.rest rfl
  exact {
    holds := holds_joined network opener ends
    phase := by
      rw [get_firstParties, get_firstParties]
      exact phase_joined opener ends writer
    steady := fun s => by
      have hdriver : ((World.joined network opener ends).hosts.get s).driver =
          .session (staged (firstConnection opener ends s, .ready)) (ends.get s).runs [] := by
        cases s <;> rfl
      have hpatient := ht.patient s
      rw [get_firstParties]
      rw [ht.runs s] at hdriver
      exact {
        driver := hdriver
        finished := by cases s <;> nofun
        calm := calm_firstConnection (ht.log s)
        patient := by cases s <;> exact hpatient
        app := by cases s <;> rfl
        fetches := nofun }
    deaf := fun s => by cases s <;> nofun
    lossless := ht.lossless
    pens := by cases writer <;> exact hpens
    silent := by
      have hsilent := ht.silent
      cases writer <;> exact ⟨hsilent, rfl, rfl⟩ }

theorem Transfers.results_eq (hT : Transfers c₀ writer total h p n) (s : Side) :
    h.world.results s = (tally (p.get s).stage).2 := by
  rw [World.results, (hT.steady s).driver]

/-- A run that has not failed has no result before it ends. -/
theorem tally_results (x : Stage) : (x = .ended ∧ (tally x).2 = [.ok ()]) ∨
    (x ≠ .ended ∧ (tally x).2 = []) := by
  cases x with
  | ended => exact .inl ⟨rfl, rfl⟩
  | _ => exact .inr ⟨nofun, rfl⟩

/-- **A transfer that is over**: both runs have ended well, both connections are closed, all that
was written has been delivered, and either end expects the number that the other one would send
next. -/
structure Complete (ends : Both Setup) (writer : Side) (total : List UInt8) (h : Chronicle) :
    Prop where
  results : ∀ s, h.world.results s = [.ok ()]
  delivered : h.delivered writer.other = total ∧ h.delivered writer = []
  connections : ∃ c d : Connection, h.world.connection? writer = some c ∧
    h.world.connection? writer.other = some d ∧
    (c.state = .closed ∧ c.done = true) ∧ (d.state = .closed ∧ d.done = true) ∧
    c.nextSeq = (ends.get writer).settings.iss + 2 + UInt32.ofNat total.length ∧
    d.nextSeq = (ends.get writer.other).settings.iss + 2 ∧
    c.expectedSeq = d.nextSeq ∧ d.expectedSeq = c.nextSeq

/-- All that was written has been delivered when a session has ended. -/
theorem Transfers.delivered_of_ended (hT : Transfers c₀ writer total h p n) {s : Side}
    (hx : (p.get s).stage = .ended) :
    h.delivered writer.other = total ∧ h.delivered writer = [] := by
  obtain ⟨⟨closer, hv⟩, hall⟩ := hT.holds.delivered_of_done (hT.done_of_ended hx)
  have hclosing := hall closer hv
  obtain ⟨-, hwritten, hopen⟩ := hT.silent
  constructor
  · -- it is the writer that has closed
    rcases Side.eq_or_eq_other closer writer with rfl | rfl
    · exact hT.pens.eq_of_closing hclosing
    · rw [hopen] at hclosing
      cases hclosing
  · have hsub := (hT.holds.flow writer.other).sub
    have hread := (hT.holds.books writer.other).sub
    rw [Side.other_other] at hsub
    rw [hwritten, List.prefix_nil] at hread
    have hhanded : h.handed writer = [] := List.prefix_nil.1 (hread ▸ hsub.2)
    exact List.prefix_nil.1 (hhanded ▸ hsub.1)

/-- **When both sessions have ended the transfer is complete.** -/
theorem Transfers.complete (hT : Transfers (firstConnection opener ends) writer total h p n)
    (hx : ∀ s, (p.get s).stage = .ended) : Complete ends writer total h where
  results := fun s => by
    rw [hT.results_eq, hx s]
    rfl
  delivered := hT.delivered_of_ended (hx writer)
  connections := by
    have hclosed : ∀ s, (p.get s).connection.state = .closed ∧ (p.get s).connection.done = true :=
      fun s => ⟨(hT.holds.station s).closed (hT.done_of_ended (hx s)), hT.done_of_ended (hx s)⟩
    have hnumbers := hT.phase.numbers (hx writer) (hx writer.other)
    rw [(firstConnection_facts writer).2, (firstConnection_facts writer.other).2,
      (hT.delivered_of_ended (hx writer)).1] at hnumbers
    exact ⟨_, _, (hT.holds.station writer).connection_eq,
      (hT.holds.station writer.other).connection_eq, hclosed writer, hclosed writer.other,
      hnumbers⟩

/-- Whether both runs have returned. -/
def World.hasReturned (w : World) : Bool :=
  [Side.near, .far].all fun s => !(w.results s).isEmpty

/-- Both runs have returned when both sessions have ended, and not before. -/
theorem Transfers.hasReturned_iff (hT : Transfers c₀ writer total h p n) :
    h.world.hasReturned = true ↔ ∀ s, (p.get s).stage = .ended := by
  have hs : ∀ s, (!(h.world.results s).isEmpty) = true ↔ (p.get s).stage = .ended := by
    intro s
    rw [hT.results_eq]
    obtain ⟨hx, hr⟩ | ⟨hx, hr⟩ := tally_results (p.get s).stage <;> rw [hr] <;> simp [hx]
  simp only [World.hasReturned, List.all_cons, List.all_nil, Bool.and_true, Bool.and_eq_true, hs]
  constructor
  · rintro ⟨hnear, hfar⟩ s
    cases s with
    | near => exact hnear
    | far => exact hfar
  · exact fun hall => ⟨hall .near, hall .far⟩

/-- **What there is to do at first.** -/
theorem pending_joined (network : Network) (opener : Side) (ends : Both Setup) (writer : Side)
    (total : List UInt8) :
    pending writer total (World.joined network opener ends).chronicle 27 =
      9 * total.length + 29 +
        ((ends.get writer).script.length + (ends.get writer.other).script.length) := by
  cases writer <;> rfl

/-- **A transfer completes.** Whatever moves are made, in whatever order, no run fails, and no more
of the moves are made than it takes; until both runs have returned some task can move, perhaps
after a session has tried its call; and once they have, the transfer is complete. -/
theorem transfer_completes (ht : Transfer network ends writer chunks rest) (opener : Side)
    {moves : List Move} (hm : ∀ m ∈ moves, m.Lossless) :
    let w := World.joined network opener ends
    let h := w.chronicle.after moves
    (∀ s e, .error e ∉ h.world.results s) ∧
    w.strides moves ≤ 9 * chunks.flatten.length + 29 +
      ((ends.get writer).script.length + (ends.get writer.other).script.length) ∧
    (h.world.hasReturned = false →
      ∃ side task, h.world.CanMove task ∨ (h.world.move (.turn (.stack side))).CanMove task) ∧
    (h.world.hasReturned = true → Complete ends writer chunks.flatten h) := by
  intro w h
  have h₀ : ∀ s, (firstConnection opener ends s).Free .listen := fun s =>
    Connection.opened_free _ _ _
  obtain ⟨p, n, hT, hle⟩ : ∃ p n, Transfers (firstConnection opener ends) writer chunks.flatten h p n ∧
      pending writer chunks.flatten h n + w.strides moves ≤
        pending writer chunks.flatten w.chronicle 27 := (transfers_joined ht opener).after h₀ hm
  refine ⟨fun s e he => ?_, ?_, fun hr => hT.canMove h₀ ?_, fun hr => ?_⟩
  · rw [hT.results_eq] at he
    obtain ⟨-, hr⟩ | ⟨-, hr⟩ := tally_results (p.get s).stage <;> simp [hr] at he
  · rw [pending_joined] at hle
    omega
  · rw [← Bool.not_eq_true, hT.hasReturned_iff] at hr
    exact Classical.not_forall.1 hr
  · exact hT.complete (hT.hasReturned_iff.1 hr)

/-- Two ends of which the near one is written a byte. -/
def byteEnds : Both Setup := ⟨{ script := writing [[7]] [] }, {}⟩

/-- Rounds in which every task tries its next step, while time goes on. -/
def rounds (n : Nat) : List Move := (List.range n).flatMap fun i =>
  [.clock (5 * i), .turn (.stack .near), .turn (.app .near), .turn (.stack .far)]

set_option maxRecDepth 2000 in
/-- The byte arrives over a network with a delay, from the passive end to the active one. -/
theorem transfer_completes_byte : Transfer (.latent 5) byteEnds .near [[7]] [] ∧
    (∀ m ∈ rounds 38, m.Lossless) ∧
    Complete byteEnds .near [7]
      ((World.joined (.latent 5) .far byteEnds).chronicle.after (rounds 38)) := by
  have ht : Transfer (.latent 5) byteEnds .near [[7]] [] := {
    lossless := trivial
    runs := fun s => by cases s <;> rfl
    patient := fun s => by cases s <;> rfl
    log := fun s => by cases s <;> nofun
    writes := rfl
    rest := nofun
    silent := nofun }
  have hm : ∀ m ∈ rounds 38, m.Lossless := by
    intro m hm
    simp only [rounds, List.mem_flatMap, List.mem_cons, List.not_mem_nil, or_false] at hm
    obtain ⟨i, -, rfl | rfl | rfl | rfl⟩ := hm <;> trivial
  have hr : ((World.joined (.latent 5) .far byteEnds).chronicle.after (rounds 38)).world.hasReturned =
      true := by cbv
  exact ⟨ht, hm, (transfer_completes ht .far hm).2.2.2 hr⟩

end StopWait.Link
