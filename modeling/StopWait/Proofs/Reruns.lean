import StopWait.Proofs.Cues

/-!
# Running a session again

A run ends, and the session is run again, any number of times and with any stack. Where the
connection has left LISTEN, nothing comes of it: each run fails at once, before it calls the stack.
A connection that is still in LISTEN is the one of the beginning, so that its next run is a first
run.

* `play_of_left`: **what a session makes of a script** after its connection has left LISTEN.
* `Extends.play`: what two sessions that are the same make of a script, whatever came before.
* `passive_of_listen`: who can fail in LISTEN.
* `ended_stays_ended`: **an ended session stays ended, and one that never left LISTEN starts anew.**
-/

namespace StopWait

/-- **The caller is to blame** for opening a connection again. -/
theorem Connection.blames_reopening (c : Connection) : c.reopening.blamesCaller = true := by
  unfold reopening
  split <;> rfl

namespace Session

/-- **What two sessions have gone through that are the same now**: one of them has made these calls
before, and its runs came to these results, and apart from that they have done the same. -/
structure Extends (earlier : List Call) (outcomes : List (Except Session.Error Unit))
    (past past' : Past) (t : Session) : Prop where
  calls : calls past' t = earlier ++ calls past t
  results : results past' t = outcomes ++ results past t

variable {c₀ c d : Connection} {x x' : Stage} {past past' : Past} {s t u : Session} {h : Happening}
  {result : Except Session.Error Unit} {earlier : List Call}
  {outcomes : List (Except Session.Error Unit)}

/-- **A run that begins after the connection has left LISTEN fails at once.** -/
theorem start_of_left (hne : c.state ≠ .listen) :
    (start ⟨c, .returned result⟩).1 = ⟨c, .returned (.error (.connection c.reopening))⟩ :=
  start_of_ne_listen (x := .ready) hne

/-- **What a session makes of a script after its connection has left LISTEN**: the connection stays
as it is, no call is made, and each run fails for the same reason. -/
theorem play_of_left (hne : c.state ≠ .listen) (script : List Cue) :
    (play past ⟨c, .returned result⟩ script).2.connection = c ∧
    calls (play past ⟨c, .returned result⟩ script).1 (play past ⟨c, .returned result⟩ script).2 =
      calls past ⟨c, .returned result⟩ ∧
    results (play past ⟨c, .returned result⟩ script).1 (play past ⟨c, .returned result⟩ script).2 =
      results past ⟨c, .returned result⟩ ++
        List.replicate (script.count .run) (.error (.connection c.reopening)) := by
  induction script generalizing past result with
  | nil => exact ⟨rfl, rfl, (List.append_nil _).symm⟩
  | cons k ks ih =>
    cases k with
    | answer r =>
      -- no call waits for an answer
      have hheed : heed ⟨c, .returned result⟩ (.answer r) = none := rfl
      have hcount : (Cue.answer r :: ks).count .run = ks.count .run :=
        List.count_cons_of_ne (by simp)
      rw [play, hheed, hcount]
      exact ih
    | run =>
      have hheed : heed ⟨c, .returned result⟩ .run =
          some (.run, ⟨c, .returned (.error (.connection c.reopening))⟩) := by
        rw [heed, start_of_left hne]
      obtain ⟨hconn, hcalls, hresults⟩ := @ih ((⟨c, .returned result⟩, .run) :: past)
        (.error (.connection c.reopening))
      rw [play, hheed]
      refine ⟨hconn, ?_, ?_⟩
      · rw [hcalls]
        exact List.append_nil _
      · have hnew : results ((⟨c, .returned result⟩, .run) :: past)
            ⟨c, .returned (.error (.connection c.reopening))⟩ =
          results past ⟨c, .returned result⟩ ++ [.error (.connection c.reopening)] := rfl
        rw [hresults, hnew, List.count_cons_self, List.replicate_succ, List.append_assoc]
        rfl

/-- A step that both take. -/
theorem Extends.step (hx : Extends earlier outcomes past past' t) (h : Happening) (u : Session) :
    Extends earlier outcomes ((t, h) :: past) ((t, h) :: past') u := by
  constructor
  · rw [Session.calls, Session.calls, hx.calls, List.append_assoc]
  · rw [Session.results, Session.results, hx.results, List.append_assoc]

/-- **A script is played alike, whatever came before.** -/
theorem Extends.play (hx : Extends earlier outcomes past past' t) (script : List Cue) :
    (play past' t script).2 = (play past t script).2 ∧
      Extends earlier outcomes (play past t script).1 (play past' t script).1
        (play past t script).2 := by
  induction script generalizing past past' t with
  | nil => exact ⟨rfl, hx⟩
  | cons k ks ih =>
    rw [Session.play, Session.play]
    cases t.heed k with
    | none => exact ih hx
    | some step => exact ih (hx.step step.1 step.2)

/-- **A run begins alike on the same connection**, and what came before it is all that differs. -/
theorem extends_run (past : Past) (c : Connection) (result : Except Session.Error Unit) :
    Extends (calls past ⟨c, .returned result⟩) (results past ⟨c, .returned result⟩)
      [(staged (c, .ready), .run)] ((⟨c, .returned result⟩, .run) :: past)
      (staged (c, .ready)).start.1 := ⟨rfl, rfl⟩

/-- **Only a passive session can have been run and still be in LISTEN**: the first thing that an
active one does is to leave it. -/
theorem Passage.passive_of_listen (h₀ : c₀.Free .listen) (hx : x.Fits c₀ c) (hx' : x'.Fits c₀ d)
    (hp : Passage c₀ c x h d x')
    (before : c.state = .listen → x = .ready ∨ c₀.role = .passive) (hd : d.state = .listen) :
    x' = .ready ∨ c₀.role = .passive := by
  right
  have hfollows := hp.follows h₀ hx hx'
  cases hp with
  | again hne => exact absurd hd hne
  | opens first hcarry hopen =>
    obtain ⟨-, hsent⟩ | ⟨hrole, -⟩ := carry_opening h₀
    · -- the SYN is sent in SYN-SENT
      rw [hcarry] at hsent
      obtain rfl : x' = .sending .syn [] := hsent
      cases hx'.1.state.symm.trans hd
    · exact hrole
  | answered hcall =>
    rw [hd] at hfollows
    obtain rfl | hrole := before hfollows.to_listen
    · cases hcall
    · exact hrole

/-- **An ended session stays ended.** A session has been run any number of times, its stack answered
as it liked, and the last run is over.

If it ended well, or the connection has left LISTEN, every later run fails at once, and the caller
is to blame: the connection is closed, or must not be opened again. No run makes a call, and the
connection is left as it is, with its transfer log.

If the connection is still in LISTEN, the session is a passive one, and its connection is that of a
new session in every field. So from its next run on it does the same as a new session: it makes the
same calls, its runs come to the same results, and in the end it is the same session. -/
theorem ended_stays_ended (settings : Settings) (role : Role) (sink : Option Log.Sink)
    (ht : Trail (opened settings role sink) past t) (hr : t.status = .returned result) :
    (result = .ok () ∨ t.connection.state ≠ .listen →
      (Session.Error.connection t.connection.reopening).isFatal = true ∧
      ∀ script,
        let (past', t') := play past t script
        t'.connection = t.connection ∧ calls past' t' = calls past t ∧
        results past' t' = results past t ++
          List.replicate (script.count .run) (.error (.connection t.connection.reopening))) ∧
    (t.connection.state = .listen →
      role = .passive ∧ t.connection = Connection.opened settings role sink ∧
      ∀ script,
        let (past', t') := play past t (.run :: script)
        let (past₁, t₁) := play [] (opened settings role sink) (.run :: script)
        t' = t₁ ∧ calls past' t' = calls past t ++ calls past₁ t₁ ∧
        results past' t' = results past t ++ results past₁ t₁) := by
  have h₀ := Connection.opened_free settings role sink
  have hrole : (Connection.opened settings role sink).role = role := by cases sink <;> rfl
  rw [opened_eq] at ht ⊢
  obtain ⟨c, x, rfl, hfits, hwho⟩ := ht.induct
    (P := fun _ c x => c.state = .listen → x = .ready ∨
      (Connection.opened settings role sink).role = .passive)
    h₀ rfl (fun _ => .inl rfl)
    (fun before hx hx' hp hd => hp.passive_of_listen h₀ hx hx' before hd)
  have hstaged : staged (c, x) = ⟨c, .returned result⟩ := congrArg (Session.mk c) hr
  rw [hstaged] at ht ⊢
  constructor
  · intro hleft
    have hne : c.state ≠ .listen := by
      rcases hleft with rfl | hne
      · -- a run that ends well ends in CLOSED
        cases x with
        | ended =>
          intro hl
          cases hfits.2.symm.trans hl
        | _ => cases hr
      · exact hne
    refine ⟨c.blames_reopening, fun script => ?_⟩
    exact play_of_left hne script
  · intro hl
    have hl : c.state = .listen := hl
    obtain rfl : c = Connection.opened settings role sink := hfits.eq_of_listen hl
    have hpassive : role = .passive := by
      obtain rfl | hpassive := hwho hl
      · cases hr
      · exact hrole.symm.trans hpassive
    refine ⟨hpassive, rfl, fun script => ?_⟩
    obtain ⟨hsame, hextends⟩ := (extends_run past _ result).play script
    refine ⟨hsame, ?_, ?_⟩
    · rw [← hextends.calls, ← hsame]
      rfl
    · rw [← hextends.results, ← hsame]
      rfl

/-- An active session whose stack fails after the SYN has left LISTEN for good; a passive one whose
stack fails before the SYN arrives can be run again, and then goes on as a new one does. -/
theorem ended_stays_ended_failed :
    (∃ past t, Trail (opened {} .active none) past t ∧
      (play past t [.run, .answer (.sent 20), .run]).2.connection = t.connection ∧
      results (play past t [.run, .answer (.sent 20), .run]).1
          (play past t [.run, .answer (.sent 20), .run]).2 =
        [.error (.stack .disconnected),
          .error (.connection (.contractViolation ⟨.synSent, .start .active⟩)),
          .error (.connection (.contractViolation ⟨.synSent, .start .active⟩))]) ∧
    ∃ past t, Trail (opened {} .passive none) past t ∧
      t.connection = Connection.opened {} .passive none ∧
      (play past t [.run, .answer (.event .networkData)]).2 =
        (play [] (opened {} .passive none) [.run, .answer (.event .networkData)]).2 := by
  constructor
  · have hfails : rehearse {} .active none [.sent 20, .failed .disconnected] = some (_, _) := rfl
    have ht := (reaches_rehearse hfails).trail
    obtain ⟨-, hlater⟩ := (ended_stays_ended {} .active none ht rfl).1 (.inr nofun)
    obtain ⟨hsame, -, hresults⟩ := hlater [.run, .answer (.sent 20), .run]
    exact ⟨_, _, ht, hsame, hresults⟩
  · have hfails : rehearse {} .passive none [.failed .disconnected] = some (_, _) := rfl
    have ht := (reaches_rehearse hfails).trail
    obtain ⟨-, hfresh, hlater⟩ := (ended_stays_ended {} .passive none ht rfl).2 rfl
    exact ⟨_, _, ht, hfresh, (hlater [.answer (.event .networkData)]).1⟩

end Session

end StopWait
