import StopWait.Proofs.Turns

/-!
# Runs of a session

Everything that a session can go through, whatever its stack answers and however often it is run.

* `Step`: a run begins, or the call that the session waits on is answered. A run may begin at any
  time; one that is under way is given up.
* `History`: the steps that lead from one session to another, with what happened in each.
* `History.staged_of`: **what holds at first, and is kept by every turn and every new run, holds
  always**, and the session is at a stage that its connection fits.
-/

namespace StopWait.Session

/-- What happens to a session in a step. -/
inductive Happening where
  /-- A run begins. -/
  | run
  /-- A call is answered. -/
  | answered (call : Call) (r : Response)
deriving DecidableEq, Repr

/-- A step of a session. -/
inductive Step : Session → Happening → Session → Prop where
  | run (s : Session) : Step s .run s.start.1
  | answered (c : Connection) (p : Point) (a : (p.call c).Answer) :
    Step ⟨c, .suspended p⟩ (.answered (p.call c) (response _ a)) (resumeAt c p a).1

/-- Steps of a session, one after the other, and what happened in them. -/
inductive History (s : Session) : List Happening → Session → Prop where
  | nil : History s [] s
  | snoc {hs : List Happening} {t u : Session} {h : Happening} (before : History s hs t)
    (last : Step t h u) : History s (hs ++ [h]) u

variable {c₀ c : Connection} {x : Stage} {s t : Session} {h : Happening} {hs : List Happening}

/-- **A step is a turn, a first run, or a run that fails at once.** -/
theorem Step.cases_of (h₀ : c₀.Free .listen) (hx : x.Fits c₀ c)
    (hstep : Step (staged (c, x)) h t) :
    (∃ p r, x.status c = .suspended p ∧ h = .answered (p.call c) r ∧
      Leads c₀ (t, []) c (x.turn r)) ∨
    (h = .run ∧ c = c₀ ∧ Leads c₀ (t, []) c₀ (opening c₀.role)) ∨
    (h = .run ∧ c.state ≠ .listen ∧ ∃ e, t = staged (c, .failed e)) := by
  rw [staged] at hstep
  generalize hst : x.status c = status at hstep
  cases hstep with
  | run =>
    right
    rw [← hst]
    by_cases hl : c.state = .listen
    · obtain rfl := hx.eq_of_listen hl
      have := start_leads (x := x) h₀
      exact .inl ⟨rfl, rfl, this.stop, this.fits⟩
    · exact .inr ⟨rfl, hl, _, start_of_ne_listen hl⟩
  | answered _ p a =>
    have := resumeAt_leads hx hst a
    exact .inl ⟨p, response _ a, rfl, rfl, this.stop, this.fits⟩

/-- **What every turn and every new run keeps holds always.** -/
theorem History.staged_of {P : Connection × Stage → Prop} (h₀ : c₀.Free .listen)
    (ready : P (c₀, .ready)) (first : P (carry c₀ (opening c₀.role)))
    (turn : ∀ c x p r, x.status c = .suspended p → x.Fits c₀ c → P (c, x) →
      P (carry c (x.turn r)))
    (again : ∀ c x e, c.state ≠ .listen → P (c, x) → P (c, .failed e))
    (hh : History (staged (c₀, .ready)) hs t) :
    ∃ c x, t = staged (c, x) ∧ x.Fits c₀ c ∧ P (c, x) := by
  induction hh with
  | nil => exact ⟨c₀, .ready, rfl, rfl, ready⟩
  | snoc before last ih =>
    obtain ⟨c, x, rfl, hx, hP⟩ := ih
    obtain ⟨p, r, hp, -, hl⟩ | ⟨-, -, hl⟩ | ⟨-, hne, e, rfl⟩ := last.cases_of h₀ hx
    · exact ⟨_, _, hl.stop, hl.fits, turn c x p r hp hx hP⟩
    · exact ⟨_, _, hl.stop, hl.fits, first⟩
    · exact ⟨c, .failed e, rfl, .inr hne, again c x e hne hP⟩

end StopWait.Session
