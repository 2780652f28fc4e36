import StopWait.Proofs.Trail

/-!
# Scripts of answers

What a stack answers, written down in advance: a script. A session that is given the same script
does the same, and every trail of a session is the play of some script.

* `Cue`: a run is asked for, or a call is answered.
* `Session.heed`, `play`: what a session makes of a cue, and of a script.
* `results`: what the runs of a session came to.
* `heed_answer`: what a session at a stage makes of an answer.
* `trail_iff_play`: **the trails of a session are the plays of its scripts.**
-/

namespace StopWait.Session

/-- The answer to a call that a response is, if it can be one. -/
def Response.answer? : Response → (call : Call) → Option call.Answer
  | .failed e, _ => some (.error e)
  | .event e, .wait _ => some (.ok e)
  | .sent n, .networkSend _ => some (.ok n)
  | .bytes b, .networkRecv _ => some (.ok b)
  | .bytes b, .appRecv _ => some (.ok b)
  | .told, .appSend _ => some (.ok ())
  | .told, .finReceived => some (.ok ())
  | .told, .unblock => some (.ok ())
  | _, _ => none

/-- What a script asks of a session next. -/
inductive Cue where
  /-- Begin a run. -/
  | run
  /-- Go on with this answer to the call that it waits on. -/
  | answer (r : Response)
deriving DecidableEq, Repr

/-- **What a session makes of a cue**: what happens, and the session after it. What is no answer to
the call that it waits on does nothing. -/
def heed (t : Session) : Cue → Option (Happening × Session)
  | .run => some (.run, t.start.1)
  | .answer r =>
    match t.status with
    | .suspended p =>
      (r.answer? (p.call t.connection)).map fun a =>
        (.answered (p.call t.connection) r, (resumeAt t.connection p a).1)
    | _ => none

/-- **What a session goes through that plays a script**, after what it has gone through before. -/
def play (past : Past) (t : Session) : List Cue → Past × Session
  | [] => (past, t)
  | k :: ks =>
    match t.heed k with
    | some (h, u) => play ((t, h) :: past) u ks
    | none => play past t ks

/-- What the runs of a session came to, in order. -/
def results : Past → Session → List (Except Session.Error Unit)
  | [], t => t.result?.toList
  | (u, _) :: past, t => results past u ++ t.result?.toList

variable {call : Call} {r : Response} {h : Happening} {past past' : Past} {s t u : Session} {k : Cue}
  {c₀ c : Connection} {x : Stage}

theorem response_of_answer {a : call.Answer} (h : r.answer? call = some a) : response call a = r := by
  cases r with
  | failed e =>
    cases h
    cases call <;> rfl
  | _ => cases call <;> cases h <;> rfl

theorem answer_response (a : call.Answer) : (response call a).answer? call = some a := by
  cases a with
  | error e => cases call <;> rfl
  | ok reply => cases call <;> rfl

theorem suits_eq_isSome (r : Response) (call : Call) :
    r.suits call = (r.answer? call).isSome := by
  cases r <;> cases call <;> rfl

/-- **What a session makes of a cue is a step.** -/
theorem step_of_heed (hk : t.heed k = some (h, u)) : Step t h u := by
  obtain ⟨c, status⟩ := t
  cases k with
  | run =>
    cases hk
    exact .run _
  | answer r =>
    cases status with
    | suspended p =>
      obtain ⟨a, ha, hau⟩ := Option.map_eq_some_iff.1 hk
      cases hau
      have hr := response_of_answer ha
      subst hr
      exact .answered c p a
    | ready => cases hk
    | returned => cases hk

/-- **Every step is what a session makes of a cue.** -/
theorem heed_of_step (hstep : Step t h u) : ∃ k, t.heed k = some (h, u) := by
  cases hstep with
  | run => exact ⟨.run, rfl⟩
  | answered c p a =>
    refine ⟨.answer (response _ a), ?_⟩
    simp only [heed, answer_response, Option.map_some]

theorem status_of_call (hcall : (staged (c, x)).call? = some call) :
    ∃ p, x.status c = .suspended p ∧ p.call c = call := by
  simp only [call?, point?, staged] at hcall
  split at hcall
  · rename_i p hp
    exact ⟨p, hp, Option.some.inj hcall⟩
  · cases hcall

/-- **What a session at a stage makes of an answer** is the turn of its response. -/
theorem heed_answer (hx : x.Fits c₀ c) (hcall : (staged (c, x)).call? = some call) (r : Response) :
    (staged (c, x)).heed (.answer r) =
      if r.suits call then some (.answered call r, staged (carry c (x.turn r))) else none := by
  obtain ⟨p, hp, rfl⟩ := status_of_call hcall
  rw [suits_eq_isSome]
  simp only [heed, staged, hp]
  cases ha : r.answer? (p.call c) with
  | none => rfl
  | some a =>
    have hstop := (resumeAt_leads hx hp a).stop
    rw [response_of_answer ha] at hstop
    simp only [Option.map_some, hstop, Option.isSome_some, if_true]
    rfl

theorem fits_answer (hx : x.Fits c₀ c) (hcall : (staged (c, x)).call? = some call)
    (hr : r.suits call = true) : (carry c (x.turn r)).2.Fits c₀ (carry c (x.turn r)).1 := by
  obtain ⟨p, hp, rfl⟩ := status_of_call hcall
  obtain ⟨a, rfl⟩ := Response.exists_answer hr
  exact (resumeAt_leads hx hp a).fits

/-- **An answer leads a session on** to the end of the turn of its response. -/
theorem heeds_answer (hx : x.Fits c₀ c) (hcall : (staged (c, x)).call? = some call)
    (hr : r.suits call = true) :
    ((staged (c, x)).heed (.answer r)).elim (staged (c, x)) Prod.snd = staged (carry c (x.turn r)) ∧
      (carry c (x.turn r)).2.Fits c₀ (carry c (x.turn r)).1 := by
  rw [heed_answer hx hcall, if_pos hr]
  exact ⟨rfl, fits_answer hx hcall hr⟩

/-- **A first run leads a session on** to the end of the opening. -/
theorem heeds_run (h₀ : c₀.Free .listen) :
    ((staged (c₀, .ready)).heed .run).elim (staged (c₀, .ready)) Prod.snd =
        staged (carry c₀ (opening c₀.role)) ∧
      (carry c₀ (opening c₀.role)).2.Fits c₀ (carry c₀ (opening c₀.role)).1 := by
  have hleads := start_leads (x := .ready) h₀
  have hheed : (staged (c₀, .ready)).heed .run =
      some (.run, staged (carry c₀ (opening c₀.role))) := by rw [heed, hleads.stop]
  rw [hheed]
  exact ⟨rfl, hleads.fits⟩

theorem heed_answer_of_none (hcall : t.call? = none) (r : Response) : t.heed (.answer r) = none := by
  simp only [call?, point?] at hcall
  simp only [heed]
  split
  · rename_i p hp
    rw [hp] at hcall
    cases hcall
  · rfl

theorem play_append (past : Past) (t : Session) (ks ks' : List Cue) :
    play past t (ks ++ ks') = play (play past t ks).1 (play past t ks).2 ks' := by
  induction ks generalizing past t with
  | nil => rfl
  | cons k ks ih =>
    rw [List.cons_append, play, play]
    cases t.heed k with
    | none => exact ih past t
    | some step => exact ih _ _

theorem trail_play (ht : Trail s past t) (ks : List Cue) :
    Trail s (play past t ks).1 (play past t ks).2 := by
  induction ks generalizing past t with
  | nil => exact ht
  | cons k ks ih =>
    rw [play]
    cases hk : t.heed k with
    | none => exact ih ht
    | some step => exact ih (ht.step (step_of_heed hk))

/-- **The trails of a session are the plays of its scripts.** -/
theorem trail_iff_play : Trail s past t ↔ ∃ ks, play [] s ks = (past, t) := by
  constructor
  · intro ht
    induction ht with
    | nil => exact ⟨[], rfl⟩
    | step before last ih =>
      obtain ⟨ks, hks⟩ := ih
      obtain ⟨k, hk⟩ := heed_of_step last
      refine ⟨ks ++ [k], ?_⟩
      rw [play_append, hks, play, hk]
      rfl
  · rintro ⟨ks, hks⟩
    have ht := trail_play (.nil : Trail s [] s) ks
    rw [hks] at ht
    exact ht

end StopWait.Session
