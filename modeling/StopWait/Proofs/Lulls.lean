import StopWait.Proofs.Completion
import StopWait.Proofs.Rounds
import StopWait.Proofs.Uploads

/-!
# Lulls of an upload

A round of a schedule in which nobody can move, in the middle of an upload. A session has a datagram
under way then: when the next one is due, its session moves. So the upload winds down, and its
schedule comes to an end.

* `Uploads.timer_of_lull`, `Uploads.ne_idle_of_lull`, `Uploads.finished_of_lull`: what holds up a
  session that cannot move.
* `Uploads.round`: what a round leaves in which nobody can move.
* `winds_uploading`: **an upload winds down.**
-/

namespace StopWait.Link

open Session (Stage Party staged)

variable {c₀ : Side → Connection} {writer : Side} {payload : List UInt8} {h : Chronicle}
  {p : Both Party} {n : Nat} {w v : World} {side : Side}

/-- A session that stirs and cannot move has a timer that has not ended. -/
theorem Uploads.timer_of_lull (hU : Uploads c₀ writer payload h p n)
    (hmade : (h.world.actStack side).2 = false) (hs : (p.get side).Stirs) :
    ∃ due, ((h.world.actStack side).1.hosts.get side).timer = some due ∧
      h.world.link.now < due := by
  have hT := hU.transfers
  by_cases hsend : ∃ m bytes, (p.get side).stage = .sending m bytes
  · obtain ⟨m, bytes, hx⟩ := hsend
    have hdriver := (hT.steady side).driver
    rw [hx] at hdriver
    exact timer_of_sending hdriver (hT.unfinished hs.ne_ended) hT.lossless (hT.there_of_sending hx)
      (hT.hasRoom side.other) hmade
  · have hmoves := hT.moves_of_stirs side hs (fun m bytes hx => hsend ⟨m, bytes, hx⟩)
      h.world.link.now
    cases hmade.symm.trans hmoves

/-- The writer is not idle when it cannot move and nothing is left to ask for. -/
theorem Uploads.ne_idle_of_lull (h₀ : ∀ s, (c₀ s).Free .listen)
    (hU : Uploads c₀ writer payload h p n) (hmade : (h.world.actStack writer).2 = false)
    (hscript : (h.world.apps.get writer).script = []) : (p.get writer).stage ≠ .idle := by
  intro hx
  have hT := hU.transfers
  have hdriver := (hT.steady writer).driver
  rw [hx] at hdriver
  have hended : (p.get writer).stage ≠ .ended := by rw [hx]; nofun
  obtain hmove | ⟨-, hpledged, hstack⟩ :=
    moves_of_idle hdriver (hT.unfinished hended) (hT.steady writer).patient
  · cases hmade.symm.trans (hmove h.world.link.now)
  · -- the close would have been taken in
    obtain ⟨m, hU'⟩ := hU.lull h₀ hmade
    have hnil : ((h.world.actStack writer).1.apps.get writer).script = [] := by
      rw [(actStack_leaves hdriver hT.lossless).1]
      exact hscript
    have hthere : ((h.world.actStack writer).1.link.ends.get writer).stackGone = false :=
      hstack.trans (hT.there hended)
    have hpledge := (hU'.transfers.holds.books writer).pledge hthere
    have hpens := hU'.transfers.pens.closing_of_nil hnil
    rw [hpens] at hpledge
    change _ = ((h.world.actStack writer).1.link.ends.get writer).pledged.map _ at hpledge
    rw [hpledged] at hpledge
    cases hpledge

/-- A session that has ended and cannot move has finished. -/
theorem Uploads.finished_of_lull (hU : Uploads c₀ writer payload h p n)
    (hmade : (h.world.actStack side).2 = false) (hx : (p.get side).stage = .ended) :
    ((h.world.actStack side).1.hosts.get side).finished = true := by
  have hdriver := (hU.transfers.steady side).driver
  by_cases hf : (h.world.hosts.get side).finished = true
  · rwa [World.actStack, if_pos hf]
  · rw [hx] at hdriver
    rw [Bool.not_eq_true] at hf
    have hdone : (h.world.hosts.get side).driver.isDone = true := by rw [hdriver]; rfl
    rw [World.actStack, hf] at hmade
    simp only [Bool.false_eq_true, if_false, hdone, if_true] at hmade
    cases hmade

/-- **A round in which nobody can move** leaves the time. Each session had its turn in a world in
which its task was as at first, and nothing is left of the writer's script. -/
theorem Uploads.round (h₀ : ∀ s, (c₀ s).Free .listen) (hU : Uploads c₀ writer payload h p n)
    (hround : Idles h.world Task.round v) :
    (∃ g m, g.world = v ∧ Uploads c₀ writer payload g p m) ∧
    v.link.now = h.world.link.now ∧
    ∀ s, ∃ g m, Uploads c₀ writer payload g p m ∧ (g.world.actStack s).2 = false ∧
      (g.world.apps.get writer).script = [] ∧ g.world.link.now = h.world.link.now ∧
      g.world.hosts.get s = h.world.hosts.get s ∧
      v.hosts.get s = (g.world.actStack s).1.hosts.get s := by
  obtain ⟨w₁, w₂, w₃, hnear, hfar, hstack, hlast⟩ := hround.round_cases
  -- an application that cannot move leaves the world
  have happ : ∀ side w, h.world.act (.app side) = (w, false) →
      w = h.world ∧ (h.world.apps.get side).script = [] := by
    intro side w hact
    obtain ⟨hs, hnil⟩ | ⟨r, rest, -, -, hmade⟩ := hU.app_cases side
    · exact ⟨congrArg Prod.fst (hact.symm.trans hnil), hs⟩
    · cases congrArg Prod.snd (hact.symm.trans hmade)
  obtain ⟨rfl, hscript⟩ := happ .near w₁ hnear
  obtain ⟨rfl, hscript'⟩ := happ .far w₂ hfar
  have hnil : (h.world.apps.get writer).script = [] := by
    cases writer
    · exact hscript
    · exact hscript'
  have hmade : (h.world.actStack .near).2 = false := congrArg Prod.snd hstack
  have hw₃ : (h.world.actStack .near).1 = w₃ := congrArg Prod.fst hstack
  obtain ⟨m, hU'⟩ := hU.lull h₀ hmade
  have hg : (h.move (.turn (.stack .near))).world = w₃ := hw₃
  generalize h.move (.turn (.stack .near)) = g at hU' hg
  subst hg
  have hmade' : (g.world.actStack .far).2 = false := congrArg Prod.snd hlast
  have hv : (g.world.actStack .far).1 = v := congrArg Prod.fst hlast
  obtain ⟨m', hU''⟩ := hU'.lull h₀ hmade'
  obtain ⟨happs, -, hnow⟩ :=
    actStack_leaves (hU.transfers.steady .near).driver hU.transfers.lossless
  obtain ⟨-, -, hnow'⟩ := actStack_leaves (hU'.transfers.steady .far).driver hU'.transfers.lossless
  have hhost := (hU.transfers.serves h₀ .near).2
  have hhost' := (hU'.transfers.serves h₀ .far).2
  rw [hw₃] at happs hnow hhost
  rw [hv] at hnow' hhost'
  refine ⟨⟨_, m', hv, hU''⟩, hnow'.trans hnow, fun s => ?_⟩
  cases s with
  | near =>
    refine ⟨h, n, hU, hmade, hnil, rfl, rfl, ?_⟩
    rw [hw₃]
    exact hhost'
  | far =>
    refine ⟨g, m, hU', hmade', ?_, hnow, hhost, ?_⟩
    · rw [happs]
      exact hnil
    · rw [hv]

theorem mem_timers {due : Nat} : due ∈ w.timers ↔
    (∃ s, (w.apps.get s).timer = some due) ∨ ∃ s, (w.hosts.get s).timer = some due := by
  have hboth : ∀ P : Side → Prop, (∃ s, P s) ↔ P .near ∨ P .far :=
    fun P => ⟨fun ⟨s, hs⟩ => by cases s <;> simp [hs], fun h => h.elim (⟨_, ·⟩) (⟨_, ·⟩)⟩
  rw [hboth, hboth]
  simp [World.timers, Both.get, or_assoc, eq_comm]

/-- After a round in which nobody could move, some session has a timer that has not ended, or both
have finished. -/
theorem Uploads.exists_timer (h₀ : ∀ s, (c₀ s).Free .listen) (hU : Uploads c₀ writer payload h p n)
    (hround : Idles h.world Task.round v) (hopen : v.isFinished = false) :
    ∃ due ∈ v.timers, v.link.now < due := by
  obtain ⟨-, hnow, hturns⟩ := hU.round h₀ hround
  have htimer : ∀ s, (p.get s).Stirs → ∃ due ∈ v.timers, v.link.now < due := by
    intro s hs
    obtain ⟨g, m, hG, hmade, -, hgnow, -, hhost⟩ := hturns s
    obtain ⟨due, ht, hdue⟩ := hG.timer_of_lull hmade hs
    exact ⟨due, mem_timers.2 (.inr ⟨s, hhost ▸ ht⟩), by rw [hnow, ← hgnow]; exact hdue⟩
  obtain ⟨ha, hb⟩ | ha | hb | ⟨hx, -⟩ := hU.transfers.phase.stirs
  · have hfinished : ∀ s, (v.hosts.get s).finished = true := by
      intro s
      obtain ⟨g, m, hG, hmade, -, -, -, hhost⟩ := hturns s
      rw [hhost]
      refine hG.finished_of_lull hmade ?_
      rcases Side.eq_or_eq_other s writer with rfl | rfl
      · exact ha
      · exact hb
    have hdone : v.isFinished = true := Bool.and_eq_true_iff.2 ⟨hfinished .near, hfinished .far⟩
    cases hopen.symm.trans hdone
  · exact htimer writer ha
  · exact htimer writer.other hb
  · obtain ⟨g, m, hG, hmade, hscript, -⟩ := hturns writer
    exact absurd hx (hG.ne_idle_of_lull h₀ hmade hscript)

/-- **The next timer wakes somebody up**, after a round in which nobody could move. -/
theorem Uploads.wakes (h₀ : ∀ s, (c₀ s).Free .listen) (hU : Uploads c₀ writer payload h p n)
    (hround : Idles h.world Task.round v) (hopen : v.isFinished = false) :
    ∃ now, v.nextTimer? = some now ∧ ∀ u, ¬ Idles (v.atTime now) Task.round u := by
  obtain ⟨due, hmem, hdue⟩ := hU.exists_timer h₀ hround hopen
  obtain ⟨⟨g, m, rfl, hG⟩, -, -⟩ := hU.round h₀ hround
  obtain ⟨now, hnext⟩ : ∃ now, g.world.nextTimer? = some now := Option.isSome_iff_exists.1
    (List.isSome_min?_of_mem (List.mem_filter.2 ⟨hmem, decide_eq_true hdue⟩))
  refine ⟨now, hnext, fun u hround' => ?_⟩
  -- the timer is that of a session that sends
  obtain ⟨s, ht⟩ : ∃ s, (g.world.hosts.get s).timer = some now := by
    refine (mem_timers.1 (List.mem_of_mem_filter (List.min?_mem hnext))).resolve_left ?_
    rintro ⟨s, ht⟩
    cases (hG.apps s).1.symm.trans ht
  obtain ⟨-, message, bytes, hx⟩ := hG.hosts s now ht
  have hG' := hG.still (w := g.world.atTime now) rfl rfl rfl hG.transfers.lossless
  obtain ⟨-, -, hturns⟩ := hG'.round h₀ hround'
  obtain ⟨f, k, hF, hmade, -, hnow, hhost, -⟩ := hturns s
  have hT := hF.transfers
  have hdriver := (hT.steady s).driver
  rw [hx] at hdriver
  -- its datagram is due in its turn
  have hmoves := moves_of_due hdriver (hT.unfinished (by rw [hx]; nofun)) (hhost ▸ ht)
    (hT.there_of_sending hx) (hT.hasRoom s.other) (Nat.le_of_eq hnow.symm)
  cases hmade.symm.trans hmoves

/-- What is left to do in a world in the middle of an upload, at most. -/
def Uploading (c₀ : Side → Connection) (writer : Side) (payload : List UInt8) (w : World) (n : Nat) :
    Prop :=
  ∃ h p k, h.world = w ∧ Uploads c₀ writer payload h p k ∧ pending writer payload h k ≤ n

/-- **An upload winds down.** -/
theorem winds_uploading (h₀ : ∀ s, (c₀ s).Free .listen) : Winds (Uploading c₀ writer payload) where
  act := by
    rintro _ n task ⟨h, p, k, rfl, hU, hle⟩
    obtain ⟨q, m, hU', hle'⟩ := hU.turn h₀ task
    exact ⟨pending writer payload (h.move (.turn task)) m, ⟨_, q, m, rfl, hU', Nat.le_refl _⟩,
      hle'.trans hle⟩
  clock := by
    rintro _ n now ⟨h, p, k, rfl, hU, hle⟩
    exact ⟨h.next (h.world.atTime now) none, p, k, rfl,
      hU.still rfl rfl rfl hU.transfers.lossless,
      (hU.transfers.still rfl rfl rfl hU.transfers.lossless).2.trans hle⟩
  wakes := by
    rintro _ v n ⟨h, p, k, rfl, hU, -⟩ hround hopen
    exact hU.wakes h₀ hround hopen

end StopWait.Link
