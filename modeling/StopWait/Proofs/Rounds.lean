import StopWait.Proofs.Moves

/-!
# Rounds of a schedule

A schedule comes to its end before its ticks run out, if its world winds down: every move leaves
less to do, and a round in which nobody can move is followed by one in which somebody can, when
the next timer ends. A round takes a tick for each task and one for each move that is made, so two
rounds at most lie between one move and the next.

* `Idles`: tasks that try one after the other and cannot move.
* `Winds`: **a world that winds down.**
* `Stands`: where a schedule stands, and the ticks that it needs at most.
* `Winds.tick`, `Winds.ticks`: what a tick and all of them come to.
* `Winds.play`: **the schedule ends when both stacks have finished.**
-/

namespace StopWait.Link

/-- **Tasks that try one after the other, and none of them can move.** -/
inductive Idles : World → List Task → World → Prop where
  | nil {w : World} : Idles w [] w
  | snoc {w v u : World} {tasks : List Task} {task : Task} (h : Idles w tasks v)
    (hact : v.act task = (u, false)) : Idles w (tasks ++ [task]) u

namespace Task

/-- The tasks whose turns come before in a round. -/
def before : Task → List Task
  | .app .near => []
  | .app .far => [.app .near]
  | .stack .near => [.app .near, .app .far]
  | .stack .far => [.app .near, .app .far, .stack .near]

/-- The number of turns left in a round, with its own. -/
def left : Task → Nat
  | .app .near => 4
  | .app .far => 3
  | .stack .near => 2
  | .stack .far => 1

/-- The tasks of a round. -/
def round : List Task := [.app .near, .app .far, .stack .near, .stack .far]

variable {task next : Task}

theorem before_next (h : task.next = some next) :
    next.before = task.before ++ [task] ∧ next.left + 1 = task.left := by
  rcases task with (_ | _) | (_ | _) <;> cases h <;> exact ⟨rfl, rfl⟩

theorem before_last (h : task.next = none) : task = .stack .far := by
  rcases task with (_ | _) | (_ | _) <;> first | rfl | cases h

end Task

section idles

variable {w v u : World} {tasks : List Task} {task : Task}

theorem Idles.nil_cases (h : Idles w [] u) : u = w := by
  generalize hl : ([] : List Task) = all at h
  cases h with
  | nil => rfl
  | snoc => exact absurd hl.symm (List.append_ne_nil_of_right_ne_nil _ (List.cons_ne_nil _ _))

theorem Idles.snoc_cases (h : Idles w (tasks ++ [task]) u) :
    ∃ v, Idles w tasks v ∧ v.act task = (u, false) := by
  generalize hl : tasks ++ [task] = all at h
  cases h with
  | nil => exact absurd hl (List.append_ne_nil_of_right_ne_nil _ (List.cons_ne_nil _ _))
  | snoc h hact =>
    obtain ⟨rfl, ht⟩ := List.append_inj' hl rfl
    cases ht
    exact ⟨_, h, hact⟩

/-- A round in which nobody can move, task by task. -/
theorem Idles.round_cases (h : Idles w Task.round v) : ∃ w₁ w₂ w₃,
    w.act (.app .near) = (w₁, false) ∧ w₁.act (.app .far) = (w₂, false) ∧
      w₂.act (.stack .near) = (w₃, false) ∧ w₃.act (.stack .far) = (v, false) := by
  obtain ⟨w₃, h, hfar⟩ := @Idles.snoc_cases w v [.app .near, .app .far, .stack .near] (.stack .far) h
  obtain ⟨w₂, h, hnear⟩ := @Idles.snoc_cases w w₃ [.app .near, .app .far] (.stack .near) h
  obtain ⟨w₁, h, hfar'⟩ := @Idles.snoc_cases w w₂ [.app .near] (.app .far) h
  obtain ⟨w₀, h, hnear'⟩ := @Idles.snoc_cases w w₁ [] (.app .near) h
  rw [h.nil_cases] at hnear'
  exact ⟨w₁, w₂, w₃, hnear', hfar', hnear, hfar⟩

end idles

/-- **A world that winds down**, with a bound on the moves that can be made in it. A round in which
nobody can move finds both stacks finished, or a timer that wakes somebody up. -/
structure Winds (Inv : World → Nat → Prop) : Prop where
  act : ∀ {w : World} {n : Nat} (task : Task), Inv w n →
    ∃ m, Inv (w.act task).1 m ∧ m + (w.act task).2.toNat ≤ n
  clock : ∀ {w : World} {n : Nat} (now : Nat), Inv w n → Inv (w.atTime now) n
  wakes : ∀ {w v : World} {n : Nat}, Inv w n → Idles w Task.round v → v.isFinished = false →
    ∃ now, v.nextTimer? = some now ∧ ∀ u, ¬ Idles (v.atTime now) Task.round u

/-- **Where a schedule stands**, and how many ticks it needs at most to come to its end. In a round
somebody has moved, or nobody has so far. If nobody has in a round that begins with the end of a
timer, somebody will. -/
inductive Stands (Inv : World → Nat → Prop) (s : Schedule) : Nat → Prop where
  | moving {n : Nat} (h : Inv s.world n) (hmoved : s.moved = true) (hlast : s.last = false) :
    Stands Inv s (9 * n + 10 + s.turn.left)
  | idling {w : World} {m n : Nat} (h : Inv s.world n) (hmoved : s.moved = false)
    (hlast : s.last = false) (hw : Inv w m) (hidle : Idles w s.turn.before s.world) :
    Stands Inv s (9 * n + 6 + s.turn.left)
  | waking {w : World} {n : Nat} (h : Inv s.world n) (hmoved : s.moved = false)
    (hlast : s.last = false) (hidle : Idles w s.turn.before s.world)
    (hwake : ∀ u, ¬ Idles w Task.round u) : Stands Inv s (9 * n + 2 + s.turn.left)
  | leaving {n k : Nat} (h : Inv s.world n) (hlast : s.last = true)
    (hdone : s.world.isFinished = true)
    (hturn : s.turn = .app .near ∧ k = 2 ∨ s.turn = .app .far ∧ k = 1) : Stands Inv s (n + k)

variable {Inv : World → Nat → Prop} {s : Schedule} {w : World} {k n : Nat}

/-- Applications leave it to the stacks to finish. -/
theorem isFinished_actApp (w : World) (side : Side) :
    (w.actApp side).1.isFinished = w.isFinished := by
  rw [World.isFinished, (heeds_actApp w side).2.2, World.isFinished]

/-- A round is over in which somebody moved, or the stacks have finished. -/
theorem afterRound_of_moved (h : Inv s.world n) (hmoved : s.moved = true) (hlast : s.last = false) :
    ∃ t, s.afterRound = .ok t ∧ t.limit = s.limit ∧ ∃ k ≤ 9 * n + 10, Stands Inv t k := by
  unfold Schedule.afterRound
  by_cases hdone : s.world.isFinished = true
  · rw [if_pos hdone]
    exact ⟨_, rfl, rfl, n + 2, by omega, .leaving h rfl hdone (.inl ⟨rfl, rfl⟩)⟩
  · rw [if_neg hdone, if_pos hmoved]
    exact ⟨_, rfl, rfl, 9 * n + 6 + 4, by omega, .idling h rfl hlast h .nil⟩

/-- A round is over in which nobody moved. -/
theorem afterRound_of_idles (hinv : Winds Inv) (h : Inv s.world n) (hmoved : s.moved = false)
    (hlast : s.last = false) (hlimit : s.limit = none)
    (hwakes : s.world.isFinished = false → ∃ now, s.world.nextTimer? = some now ∧
      ∀ u, ¬ Idles (s.world.atTime now) Task.round u) :
    ∃ t, s.afterRound = .ok t ∧ t.limit = s.limit ∧ ∃ k ≤ 9 * n + 6, Stands Inv t k := by
  unfold Schedule.afterRound
  by_cases hdone : s.world.isFinished = true
  · rw [if_pos hdone]
    exact ⟨_, rfl, rfl, n + 2, by omega, .leaving h rfl hdone (.inl ⟨rfl, rfl⟩)⟩
  · obtain ⟨now, hnext, hwake⟩ := hwakes (Bool.not_eq_true _ ▸ hdone)
    have htime : s.nextTime? = some now := by
      simp [Schedule.nextTime?, hnext, hlimit]
    simp only [if_neg hdone, hmoved, Bool.false_eq_true, if_false, htime]
    exact ⟨_, rfl, rfl, 9 * n + 2 + 4, by omega, .waking (hinv.clock now h) rfl hlast .nil hwake⟩

theorem tick_of_idle (hact : s.world.act s.turn = (w, false))
    (hstay : (s.last && s.turn = .app .far) = false) :
    s.tick = match s.turn.next with
      | some turn => .ok { s with world := w, turn }
      | none => ({ s with world := w } : Schedule).afterRound := by
  rw [Schedule.tick, hact]
  exact if_neg (by rw [hstay]; nofun)

/-- A turn without a move ends, and with the last one of a round the round. -/
theorem tick_of_passed (hact : s.world.act s.turn = (w, false))
    (hlast : s.last = false) {b : Nat}
    (hturn : ∀ task, s.turn.next = some task →
      Stands Inv { s with world := w, turn := task } (b + task.left))
    (hround : s.turn.next = none → ∃ t, ({ s with world := w } : Schedule).afterRound = .ok t ∧
      t.limit = s.limit ∧ ∃ k ≤ b, Stands Inv t k) :
    ∃ t, s.tick = .ok t ∧ t.limit = s.limit ∧ ∃ k < b + s.turn.left, Stands Inv t k := by
  rw [tick_of_idle hact (by rw [hlast, Bool.false_and])]
  cases hnext : s.turn.next with
  | some task =>
    have hleft := (Task.before_next hnext).2
    exact ⟨_, rfl, rfl, _, by omega, hturn task hnext⟩
  | none =>
    have hleft : s.turn.left = 1 := by rw [Task.before_last hnext]; rfl
    obtain ⟨t, ht, hlimit, k, hk, hstands⟩ := hround hnext
    exact ⟨t, ht, hlimit, k, by omega, hstands⟩

theorem Winds.step (hinv : Winds Inv) {made : Bool} (hact : s.world.act s.turn = (w, made))
    (h : Inv s.world n) : ∃ m, Inv w m ∧ m + made.toNat ≤ n := by
  have hs := hinv.act s.turn h
  rwa [hact] at hs

/-- A move that is made leaves less to do, and begins the count of the ticks anew. -/
theorem Winds.tick_made (hinv : Winds Inv) (hact : s.world.act s.turn = (w, true))
    (h : Inv s.world n) (hlast : s.last = false) :
    ∃ t, s.tick = .ok t ∧ t.limit = s.limit ∧ ∃ j < 9 * n + 2 + s.turn.left, Stands Inv t j := by
  obtain ⟨m, h', hle⟩ := hinv.step hact h
  rw [Bool.toNat_true] at hle
  exact ⟨{ s with world := w, moved := true }, by rw [Schedule.tick, hact], rfl,
    9 * m + 10 + s.turn.left, by omega, .moving h' rfl hlast⟩

/-- The last round is over when neither application moves any more. -/
theorem Winds.tick_leaving (hinv : Winds Inv) (h : Inv s.world n) (hlast : s.last = true)
    (hdone : s.world.isFinished = true)
    (hturn : s.turn = .app .near ∧ k = 2 ∨ s.turn = .app .far ∧ k = 1) :
    (∃ w n, s.tick = .error w ∧ Inv w n ∧ w.isFinished = true) ∨
      ∃ t, s.tick = .ok t ∧ t.limit = s.limit ∧ ∃ j < n + k, Stands Inv t j := by
  rcases hact : s.world.act s.turn with ⟨w, made⟩
  have hend : w.isFinished = true := by
    have hw : w = (s.world.act s.turn).1 := by rw [hact]
    obtain ⟨ht, -⟩ | ⟨ht, -⟩ := hturn <;> rw [hw, ht]
    · exact (isFinished_actApp s.world .near).trans hdone
    · exact (isFinished_actApp s.world .far).trans hdone
  obtain ⟨m, h', hle⟩ := hinv.step hact h
  cases made with
  | true =>
    rw [Bool.toNat_true] at hle
    exact .inr ⟨{ s with world := w, moved := true }, by rw [Schedule.tick, hact], rfl, m + k,
      by omega, .leaving h' hlast hend hturn⟩
  | false =>
    obtain ⟨ht, rfl⟩ | ⟨ht, rfl⟩ := hturn
    · have htick : s.tick = .ok { s with world := w, turn := .app .far } := by
        rw [tick_of_idle hact (by rw [ht]; exact Bool.and_false _), ht]
        rfl
      exact .inr ⟨_, htick, rfl, m + 1, by omega, .leaving h' hlast hend (.inr ⟨rfl, rfl⟩)⟩
    · have htick : s.tick = .error w := by
        rw [Schedule.tick, hact]
        exact if_pos (by rw [hlast, ht]; rfl)
      exact .inl ⟨w, m, htick, h', hend⟩

/-- **A tick** ends the schedule when both stacks have finished, or leaves fewer ticks to make. -/
theorem Winds.tick (hinv : Winds Inv) (h : Stands Inv s k) (hlimit : s.limit = none) :
    (∃ w n, s.tick = .error w ∧ Inv w n ∧ w.isFinished = true) ∨
      ∃ t, s.tick = .ok t ∧ t.limit = s.limit ∧ ∃ j < k, Stands Inv t j := by
  rcases hact : s.world.act s.turn with ⟨w, made⟩
  cases h with
  | moving h hmoved hlast =>
    right
    cases made with
    | true =>
      obtain ⟨t, ht, hl, j, hj, hstands⟩ := hinv.tick_made hact h hlast
      exact ⟨t, ht, hl, j, by omega, hstands⟩
    | false =>
      obtain ⟨m, h', hle⟩ := hinv.step hact h
      obtain ⟨t, ht, hl, j, hj, hstands⟩ := tick_of_passed hact hlast
        (fun task _ => .moving h' hmoved hlast) fun _ => afterRound_of_moved h' hmoved hlast
      exact ⟨t, ht, hl, j, by omega, hstands⟩
  | @idling v _ _ h hmoved hlast hv hidle =>
    right
    cases made with
    | true =>
      obtain ⟨t, ht, hl, j, hj, hstands⟩ := hinv.tick_made hact h hlast
      exact ⟨t, ht, hl, j, by omega, hstands⟩
    | false =>
      obtain ⟨m, h', hle⟩ := hinv.step hact h
      have hidle' := hidle.snoc hact
      obtain ⟨t, ht, hl, j, hj, hstands⟩ := tick_of_passed hact hlast
        (fun task hnext => .idling h' hmoved hlast hv ((Task.before_next hnext).1 ▸ hidle'))
        fun hnext => by
          rw [Task.before_last hnext] at hidle'
          exact afterRound_of_idles hinv h' hmoved hlast hlimit (hinv.wakes hv hidle')
      exact ⟨t, ht, hl, j, by omega, hstands⟩
  | @waking v _ h hmoved hlast hidle hwake =>
    right
    cases made with
    | true => exact hinv.tick_made hact h hlast
    | false =>
      obtain ⟨m, h', hle⟩ := hinv.step hact h
      have hidle' := hidle.snoc hact
      obtain ⟨t, ht, hl, j, hj, hstands⟩ := tick_of_passed hact hlast
        (fun task hnext => .waking h' hmoved hlast ((Task.before_next hnext).1 ▸ hidle') hwake)
        fun hnext => by
          -- the round is not over before somebody has moved
          rw [Task.before_last hnext] at hidle'
          exact absurd hidle' (hwake _)
      exact ⟨t, ht, hl, j, by omega, hstands⟩
  | leaving h hlast hdone hturn => exact hinv.tick_leaving h hlast hdone hturn

/-- **All ticks** together reach the end of the schedule. -/
theorem Winds.ticks (hinv : Winds Inv) {fuel : Nat} (h : Stands Inv s k) (hlimit : s.limit = none)
    (hfuel : k < fuel) : ∃ n, Inv (s.ticks fuel) n ∧ (s.ticks fuel).isFinished = true := by
  induction fuel generalizing s k with
  | zero => omega
  | succ fuel ih =>
    rw [Schedule.ticks]
    obtain ⟨w, n, ht, hw, hdone⟩ | ⟨t, ht, hl, j, hj, hstands⟩ := hinv.tick h hlimit
    · rw [ht]
      exact ⟨n, hw, hdone⟩
    · rw [ht]
      exact ih hstands (hl.trans hlimit) (by omega)

/-- **A schedule of a world that winds down ends** when both stacks have finished, if it has nine
ticks for every move that can be made. -/
theorem Winds.play (hinv : Winds Inv) (h : Inv w n) (heffort : 9 * n + 10 < w.effort) :
    ∃ m, Inv (w.play none) m ∧ (w.play none).isFinished = true :=
  hinv.ticks (s := { world := w, limit := none }) (.idling h rfl rfl h .nil) rfl heffort

end StopWait.Link
