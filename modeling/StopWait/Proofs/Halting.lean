import StopWait.Proofs.Cues
import StopWait.Proofs.Drives
import StopWait.Session.Script

/-!
# The ends of runs

A run has no limit of its own: it goes on for as long as its stack reports events. But it makes only
so many calls for each of them, so that a stack that has no more events to report ends it.

* `events`: the events that a session has been told of.
* `Spends.step`: **what every step of a run keeps**: the calls of a run are paid for by its events.
* `Supply`, `serve`: a stack with only so many events left, and a session that it answers.
* `serve_returns`: **a session returns that such a stack answers.**
* `run_returns`: **every drive comes to its end, and so does every run.**
* `Script.Scene.run_returned`: a scripted run returns within the bound on its calls.
-/

namespace StopWait.Session

/-- Whether a response reports an event. -/
def Response.isEvent : Response → Bool
  | .event _ => true
  | _ => false

/-- Whether a session is told of an event. -/
def Happening.isEvent : Happening → Bool
  | .answered (.wait _) (.event _) => true
  | _ => false

/-- The number of events that a session was told of in the steps of a past. -/
def events (past : Past) : Nat := past.countP (·.2.isEvent)

variable {c₀ c d : Connection} {x x' : Stage} {run past : Past} {t u : Session} {call : Call}
  {r : Response} {mask : Interest} {settings : Settings} {role : Role} {sink : Option Log.Sink}

/-! ### The events of a run -/

theorem begin_ne_ready (a : Arrival) (bytes : List UInt8) : (a.begin bytes).2 ≠ .ready := by
  obtain ⟨-, hb⟩ | ⟨-, hb⟩ := arrival_begin a bytes <;> rw [hb] <;> nofun

/-- A run does not lead back to where no run has begun. -/
theorem Passes.ne_ready (hpass : Passes c x call r d x') : x' ≠ .ready := by
  cases hpass with
  | takesFin => exact begin_ne_ready .peerFin _
  | @accepts w bytes s =>
    cases w with
    | peerFin => exact begin_ne_ready .lastFin s.payload
    | _ => nofun
  | @posts m => cases m <;> nofun
  | _ => nofun

/-- A wait is answered with an event, unless the run ends. -/
theorem Passes.waited (hpass : Passes c x (.wait mask) r d x') :
    x'.rests = true ∨ ∃ e, r = .event e := by
  cases hpass with
  | fails => exact .inl rfl
  | hears | fetches | closes | awaits => exact .inr ⟨_, rfl⟩

/-- **What every step of a run keeps**: its calls are paid for by its events, at seven calls each
and seven to begin with, and each wait for anything has been ended by an event, unless the run has
ended with it. -/
structure Spends (run : Past) (x : Stage) : Prop where
  begun : x ≠ .ready
  calls : run.length + x.callsAhead ≤ 7 * (events run + 1)
  waits : x.rests = true ∨ ∀ q ∈ run, q.1.call? = some (.wait .any) → q.2.isEvent = true

theorem spends_nil (hx : x ≠ .ready) : Spends [] x where
  begun := hx
  calls := by
    rw [List.length_nil, Nat.zero_add]
    exact x.callsAhead_le
  waits := .inr (List.forall_mem_nil _)

/-- **Every step of a run is paid for.** -/
theorem Spends.step (hS : Spends run x) (hcall : (staged (c, x)).call? = some call)
    (hpass : Passes c x call r d x') : Spends ((staged (c, x), .answered call r) :: run) x' where
  begun := hpass.ne_ready
  calls := by
    have hcalls := hS.calls
    rw [List.length_cons, events, List.countP_cons]
    change _ ≤ 7 * (events run + _ + 1)
    obtain hless | ⟨rfl, mask, e, rfl, rfl⟩ := hpass.callsAhead hcall
    · omega
    · -- the event pays for all that follows the wait
      have hidle : Stage.idle.callsAhead = 1 := rfl
      have hle := x'.callsAhead_le
      simp only [Happening.isEvent, if_true]
      omega
  waits := by
    have hwaits := hS.waits.resolve_left (by rw [Stage.rests_of_call hcall]; decide)
    by_cases hx' : x'.rests = true
    · exact .inl hx'
    · refine .inr (List.forall_mem_cons.2 ⟨fun hany => ?_, hwaits⟩)
      cases hcall.symm.trans hany
      obtain hrests | ⟨e, rfl⟩ := hpass.waited
      · exact absurd hrests hx'
      · rfl

theorem length_calls_le (past : Past) (t : Session) :
    (calls past t).length ≤ past.length + t.call?.toList.length := by
  induction past generalizing t with
  | nil => exact Nat.le_of_eq (Nat.zero_add _).symm
  | cons q past ih =>
    have hone : q.1.call?.toList.length ≤ 1 := by cases q.1.call? <;> simp
    rw [calls, List.length_append, List.length_cons]
    exact Nat.add_le_add_right (Nat.le_trans (ih q.1) (Nat.add_le_add_left hone _)) _

/-- The calls of a run, with the one that it waits on. -/
theorem Spends.length_calls (hS : Spends run x) :
    (Session.calls run (staged (c, x))).length ≤ 7 * (events run + 1) := by
  refine Nat.le_trans (length_calls_le run _) (Nat.le_trans (Nat.add_le_add_left ?_ _) hS.calls)
  cases hcall : (staged (c, x)).call? with
  | none => exact Nat.zero_le _
  | some call => exact Stage.callsAhead_pos (Stage.rests_of_call hcall)

/-- **A run is paid for by its events**, as long as no other one begins. -/
theorem spends_run (h₀ : c₀.Free .listen) (hx : x.Fits c₀ c) (hne : x ≠ .ready)
    (hrun : Trail (staged (c, x)) run u) (honce : ∀ q ∈ run, q.2 ≠ .run) :
    ∃ d x', u = staged (d, x') ∧ Spends run x' := by
  obtain ⟨d, x', hu, -, hS⟩ := hrun.induct
    (P := fun run _ x => (∀ q ∈ run, q.2 ≠ .run) → Spends run x) h₀ hx (fun _ => spends_nil hne)
    fun hS _ _ hp honce => by
      obtain ⟨hlast, hbefore⟩ := List.forall_mem_cons.1 honce
      cases hp with
      | opens | again => exact absurd rfl hlast
      | answered hcall _ hpass => exact (hS hbefore).step hcall hpass
  exact ⟨d, x', hu, hS honce⟩

/-- A run begins at a stage of a run, whatever the session has gone through before. -/
theorem exists_begun (ht : Trail (opened settings role sink) past t) :
    ∃ c x, t.start.1 = staged (c, x) ∧ x.Fits (Connection.opened settings role sink) c ∧
      x ≠ .ready := by
  have h₀ := Connection.opened_free settings role sink
  rw [opened_eq] at ht
  obtain ⟨c, x, rfl, hx, -⟩ :=
    ht.induct (P := fun _ _ _ => True) h₀ rfl trivial fun _ _ _ _ => trivial
  obtain ⟨y, hy, hstart⟩ := begins_start h₀ hx
  refine ⟨y.1, y.2, hstart, hy.fits h₀, ?_⟩
  cases hy with
  | again => nofun
  | opens => obtain ⟨-, hfirst⟩ | ⟨-, hfirst⟩ := carry_opening h₀ <;> rw [hfirst] <;> nofun

/-- A session whose run has ended has a result. -/
theorem returned_of_rests (hx : x.rests = true) (hne : x ≠ .ready) :
    (staged (c, x)).result?.isSome = true := by
  cases x with
  | ready => exact absurd rfl hne
  | failed | ended => rfl
  | _ => cases hx

/-! ### Stacks that run out of events -/

/-- **A stack with only so many events left**: whatever it answers, it has no more of them than
before, and fewer after each that it reports. One that has none left fails every wait. -/
structure Supply {σ : Type} (answer : σ → (call : Call) → σ × call.Answer) (left : σ → Nat) :
    Prop where
  keeps (stack : σ) (call : Call) : left (answer stack call).1 ≤ left stack
  spends {stack stack' : σ} {mask : Interest} {e : Event}
    (h : answer stack (.wait mask) = (stack', .ok e)) : left stack' < left stack

variable {σ : Type} {answer : σ → (call : Call) → σ × call.Answer} {left : σ → Nat}
  {stack stack' : σ} {n : Nat}

/-- Answers at most so many calls of a session. -/
def serve (answer : σ → (call : Call) → σ × call.Answer) : Nat → σ × Session → σ × Session
  | 0, y => y
  | n + 1, (stack, t) =>
    match t.status with
    | .suspended p =>
      let (stack, a) := answer stack (p.call t.connection)
      serve answer n (stack, (resumeAt t.connection p a).1)
    | _ => (stack, t)

theorem serve_of_rests (hx : x.rests = true) :
    serve answer n (stack, staged (c, x)) = (stack, staged (c, x)) := by
  cases n with
  | zero => rfl
  | succ n => cases x <;> first | rfl | cases hx

theorem serve_succ {p : Point} {a : (p.call c).Answer} (hx : x.Fits c₀ c)
    (hp : x.status c = .suspended p) (ha : answer stack (p.call c) = (stack', a)) :
    serve answer (n + 1) (stack, staged (c, x)) =
      serve answer n (stack', staged (carry c (x.turn (response _ a)))) := by
  have hstop := (resumeAt_leads hx hp a).stop
  simp only [serve, staged, hp, ha, hstop]

/-- **Every answer of a stack brings a session nearer to its next wait for anything**, or uses up an
event that is left. -/
theorem Supply.pays {a : call.Answer} (hA : Supply answer left)
    (hcall : (staged (c, x)).call? = some call) (hpass : Passes c x call (response call a) d x')
    (ha : answer stack call = (stack', a)) :
    x'.callsAhead + 7 * left stack' < x.callsAhead + 7 * left stack := by
  obtain hless | ⟨rfl, mask, e, rfl, hr⟩ := hpass.callsAhead hcall
  · have hkeeps := hA.keeps stack call
    rw [ha] at hkeeps
    change left stack' ≤ left stack at hkeeps
    omega
  · have hspends : left stack' < left stack := by
      cases a with
      | error f => cases hr
      | ok e' => exact hA.spends ha
    have hidle : Stage.idle.callsAhead = 1 := rfl
    have hle := x'.callsAhead_le
    omega

/-- **A session returns that a stack answers with only so many events left**, if enough of its calls
are answered. -/
theorem serve_returns (hA : Supply answer left) (hx : x.Fits c₀ c) (hne : x ≠ .ready)
    (hn : x.callsAhead + 7 * left stack ≤ n) :
    (serve answer n (stack, staged (c, x))).2.result?.isSome = true := by
  induction n generalizing stack c x with
  | zero =>
    cases hrests : x.rests with
    | true => exact returned_of_rests hrests hne
    | false =>
      -- there would be a call to come
      have hpos := Stage.callsAhead_pos hrests
      omega
  | succ n ih =>
    cases hrests : x.rests with
    | true =>
      rw [serve_of_rests hrests]
      exact returned_of_rests hrests hne
    | false =>
      obtain ⟨p, hp⟩ := Stage.status_of_rests hrests c
      have hcall : (staged (c, x)).call? = some (p.call c) := by
        rw [staged, hp]
        rfl
      obtain ⟨stack', a, ha⟩ : ∃ stack' a, answer stack (p.call c) = (stack', a) := ⟨_, _, rfl⟩
      have hpass := passes_of_answer hx hp a
      have hfits := (resumeAt_leads hx hp a).fits
      rw [serve_succ hx hp ha]
      generalize carry c (x.turn (response _ a)) = y at hpass hfits
      have hpays := hA.pays hcall hpass ha
      exact ih hfits hpass.ne_ready (by omega)

/-- **So does a run from its beginning on**, after seven calls for each event that is left, and
seven more at most. -/
theorem run_served (ht : Trail (opened settings role sink) past t) (hA : Supply answer left)
    (hn : 7 * (left stack + 1) ≤ n) :
    (serve answer n (stack, t.start.1)).2.result?.isSome = true := by
  obtain ⟨c, x, hstart, hx, hne⟩ := exists_begun ht
  have hle := x.callsAhead_le
  rw [hstart]
  exact serve_returns hA hx hne (by omega)

/-- A stack that answers with a list of responses, as far as they suit, and then fails. -/
def recite : List Response → (call : Call) → List Response × call.Answer
  | [], _ => ([], .error .disconnected)
  | r :: rs, call => (rs, (r.answer? call).getD (.error .disconnected))

/-- Such a stack has the events left that its responses report. -/
theorem supply_recite : Supply recite (List.countP Response.isEvent) where
  keeps stack call := by
    cases stack with
    | nil => exact Nat.le_refl _
    | cons r rs => exact (List.sublist_cons_self r rs).countP_le
  spends {stack stack' mask e} h := by
    cases stack with
    | nil => cases h
    | cons r rs =>
      cases r with
      | event e' =>
        cases h
        exact Nat.lt_of_lt_of_eq (Nat.lt_succ_self _) (List.countP_cons_of_pos rfl).symm
      | _ => cases h

/-- A scripted stack has at most as many events left as its script has steps. -/
theorem supply_script :
    Supply Script.Stack.answer fun stack : Script.Stack => stack.script.steps.length where
  keeps stack call := by
    cases call with
    | wait mask =>
      simp only [Script.Stack.answer, Script.Stack.wait, Script.Stack.note, Script.Stack.withSteps]
      split <;> rename_i hsteps <;> simp [hsteps]
    | networkSend d =>
      simp only [Script.Stack.answer, Script.Stack.send, Script.Stack.note]
      split
      · exact Nat.le_refl _
      · split <;> exact Nat.le_refl _
    | networkRecv n =>
      simp only [Script.Stack.answer, Script.Stack.recv]
      split
      · exact Nat.le_refl _
      · split <;> exact Nat.le_refl _
    | appRecv n =>
      simp only [Script.Stack.answer, Script.Stack.read]
      split <;> exact Nat.le_refl _
    | appSend | finReceived | unblock => exact Nat.le_refl _
  spends h := by
    simp only [Script.Stack.answer, Script.Stack.wait, Script.Stack.note, Script.Stack.withSteps]
      at h
    split at h <;> cases h <;> rename_i hsteps <;> rw [hsteps] <;> exact Nat.lt_succ_self _

/-- **Every drive comes to its end, and so does every run**, whatever a session has gone through
before.

* Its last drive has fed a trigger and those that follow from it, at most three in all, and has
  received at most two awaited segments and taken at most eight steps. Once it is over, and has not
  failed, it has fed them all.
* In a run, each wait for anything ends with an event, unless the run ends with it, and there are at
  most seven calls for each event and seven more.
* With a stack that has only so many events left, a run returns after as many calls as that. -/
theorem run_returns (ht : Trail (opened settings role sink) past t) :
    ((∃ ts, IsWhole ts ∧ triggers (lastDrive past) <+: ts ∧
        (t.call? = some (.wait .any) ∨ t.result? = some (.ok ()) →
          triggers (lastDrive past) = ts)) ∧
      (triggers (lastDrive past)).length ≤ 3 ∧ (lastDrive past).countP receivesAwaited ≤ 2 ∧
      (lastDrive past).length ≤ 8) ∧
    (∀ run u, Trail t.start.1 run u → (∀ q ∈ run, q.2 ≠ .run) →
      (∀ q ∈ run, q.1.call? = some (.wait .any) →
        q.2.isEvent = true ∨ u.result?.isSome = true) ∧
      (calls run u).length ≤ 7 * (events run + 1)) ∧
    ∀ (σ : Type) (answer : σ → (call : Call) → σ × call.Answer) (left : σ → Nat),
      Supply answer left → ∀ stack,
        (serve answer (7 * (left stack + 1)) (stack, t.start.1)).2.result?.isSome = true := by
  refine ⟨?_, fun run u hrun honce => ?_, fun σ answer left hA stack =>
    run_served ht hA (Nat.le_refl _)⟩
  · obtain ⟨⟨ts, hts, hfed, hover⟩, hreceives, hsteps⟩ := drive_bounded ht
    have hlength := hfed.length_le
    exact ⟨⟨ts, hts, hfed, hover⟩, Nat.le_trans hlength hts.length_le, hreceives, hsteps⟩
  · obtain ⟨c, x, hstart, hx, hne⟩ := exists_begun ht
    rw [hstart] at hrun
    obtain ⟨d, x', rfl, hS⟩ :=
      spends_run (Connection.opened_free settings role sink) hx hne hrun honce
    refine ⟨fun q hq hany => ?_, hS.length_calls⟩
    obtain hrests | hwaits := hS.waits
    · exact .inr (returned_of_rests hrests hS.begun)
    · exact .inl (hwaits q hq hany)

/-- A stack with which a passive session opens. -/
def synAndAck : List Response :=
  [.event .networkData, .bytes (blank .syn []), .sent 20, .event .networkData,
    .bytes (blank .ack []), .told]

/-- A passive session that opens feeds three triggers and receives two segments, and it returns from
its first run with any list of responses. -/
theorem run_returns_passive :
    (∃ past t, Trail (opened {} .passive none) past t ∧
      triggers (lastDrive past) = [.start .passive, .arrived .syn, .arrived .ack] ∧
      (triggers (lastDrive past)).length ≤ 3 ∧ (lastDrive past).countP receivesAwaited = 2) ∧
    ∀ responses, (serve recite (7 * (responses.countP Response.isEvent + 1))
      (responses, (opened {} .passive none).start.1)).2.result?.isSome = true := by
  constructor
  · obtain ⟨past, y, hhears, hfed, hreceived⟩ : ∃ past y,
        rehearse {} .passive none synAndAck = some (past, y) ∧
        triggers (lastDrive past) = [.start .passive, .arrived .syn, .arrived .ack] ∧
        (lastDrive past).countP receivesAwaited = 2 := by
      exact ⟨_, _, rfl, by decide +kernel, by decide +kernel⟩
    have hreaches := reaches_rehearse hhears
    obtain ⟨⟨-, hbound, -⟩, -⟩ := run_returns hreaches.trail
    exact ⟨past, _, hreaches.trail, hfed, hbound, hreceived⟩
  · obtain ⟨-, -, hserved⟩ := run_returns (.nil : Trail (opened {} .passive none) [] _)
    exact hserved _ recite _ supply_recite

end StopWait.Session

namespace StopWait.Script.Scene

open Session

/-- A scene goes on as its stack serves its session. -/
theorem session_steps (n : Nat) (s : Scene) :
    (s.steps n).session = (serve Stack.answer n (s.stack, s.session)).2 := by
  induction n generalizing s with
  | zero => rfl
  | succ n ih =>
    obtain ⟨⟨c, status⟩, stack, trace⟩ := s
    cases status with
    | suspended p => exact ih _
    | ready | returned => rfl

/-- **A scripted run returns within the bound on its calls.** -/
theorem run_returned {settings : Settings} {role : Role} {sink : Option Log.Sink} {past : Past}
    {s : Scene} (ht : Trail (opened settings role sink) past s.session) :
    s.run.session.result?.isSome = true := by
  have hbound : 7 * (s.stack.script.steps.length + 1) ≤ s.bound := by
    rw [bound]
    omega
  rw [run, session_steps]
  exact run_served ht supply_script hbound

end StopWait.Script.Scene
