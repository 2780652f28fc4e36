import StopWait.Proofs.Trail

/-!
# The contract of a session

No peer and no stack can make a session break the rules of its own connection. A first run ends
well, or with an error that the last answer accounts for; and the error is fatal exactly if that
answer breaks the contract of a stack.

* `Error.isForeseen`: the errors that are left.
* `Happening.Breaches`: what a stack must not answer.
* `first_run_result`: **what a first run can end with.**
-/

namespace StopWait.Session

/-- The errors that a first run may end with. The connection refuses no trigger, and is never asked
for a segment that it cannot build. -/
def Error.isForeseen : Session.Error → Bool
  | .connection (.unexpectedSegment _ _) | .connection (.log _) => true
  | .parse _ | .stack _ | .nonPositiveSend | .emptyWrite | .unexpectedEvent _ => true
  | .connection _ | .log _ => false

/-- **A stack breaks its contract**: it lets a wait time out, reports an event of the application to
a session that waits for the network only, or has no bytes where some were asked for. -/
inductive Happening.Breaches : Happening → Prop where
  | timeout {mask : Interest} : Breaches (.answered (.wait mask) (.event .timeout))
  | appData : Breaches (.answered (.wait .networkOnly) (.event .appData))
  | appClose : Breaches (.answered (.wait .networkOnly) (.event .appCloseRequested))
  | empty {n : Nat} : Breaches (.answered (.appRecv n) (.bytes []))

variable {c₀ c d : Connection} {x : Stage} {past : Past} {call : Call} {r : Response}
  {e : Session.Error} {t : Session}

theorem Accounts.isForeseen (h : Accounts call r e) : e.isForeseen = true := by
  cases h <;> rfl

/-- **An error is fatal exactly if the answer that accounts for it breaks the contract.** -/
theorem Accounts.isFatal_iff (h : Accounts call r e) :
    e.isFatal = true ↔ (Happening.answered call r).Breaches := by
  cases h with
  | timeout => exact ⟨fun _ => .timeout, fun _ => rfl⟩
  | empty => exact ⟨fun _ => .empty, fun _ => rfl⟩
  | @intrusion e he =>
    refine ⟨fun _ => ?_, fun _ => rfl⟩
    cases e with
    | networkData => exact absurd rfl he
    | appData => exact .appData
    | appCloseRequested => exact .appClose
    | timeout => exact .timeout
  | unlogged_data hne =>
    refine ⟨nofun, fun hb => ?_⟩
    cases hb
    exact absurd rfl hne
  | _ => exact ⟨nofun, nofun⟩

/-- **A failure that the last answer accounts for**, and that leaves the connection open. -/
structure Blamed (past : Past) (c : Connection) (e : Session.Error) : Prop where
  undone : c.done = false
  last : ∃ u call r before, past = (u, .answered call r) :: before ∧ Accounts call r e

/-- Until the session is run again, the last answer accounts for its failure. -/
theorem Passage.blamed {h : Happening} (hx : x.Fits c₀ c) (hp : Passage c₀ c x h d (.failed e))
    (hrun : h ≠ .run) : Blamed ((staged (c, x), h) :: past) d e := by
  generalize hx' : Stage.failed e = x' at hp
  cases hp with
  | opens | again => exact absurd rfl hrun
  | answered hcall _ hpass =>
    cases hpass with
    | fails why hstate hdone =>
      cases hx'
      exact ⟨hdone.trans (hx.live_of_call hcall).undone, _, _, _, _, rfl, why⟩
    | takesFin => exact absurd hx'.symm (arrival_ne_failed .peerFin e)
    | accepts => exact absurd hx'.symm (after_ne_failed _ e)
    | @posts m => cases m <;> cases hx'
    | _ => cases hx'

/-- **What a first run can end with.** A session is run for the first time, and its stack answers as
it likes. If the run fails, then with one of the foreseen errors, and the error is fatal exactly if
the last answer breaks the contract of a stack. And the run ends well exactly if the connection is
CLOSED and done when it ends. -/
theorem first_run_result (settings : Settings) (role : Role) (sink : Option Log.Sink)
    {result : Except Session.Error Unit}
    (h : Trail (opened settings role sink).start.1 past t) (hfirst : ∀ q ∈ past, q.2 ≠ .run)
    (hr : t.status = .returned result) :
    (∀ e, result = .error e → e.isForeseen = true ∧
      (e.isFatal = true ↔ ∃ last before, past = last :: before ∧ last.2.Breaches)) ∧
    (result = .ok () ↔ t.connection.state = .closed ∧ t.connection.done = true) := by
  have h₀ := Connection.opened_free settings role sink
  have hstart := start_leads (x := .ready) h₀
  have hbegun := hstart.fits
  have hopen := carry_opening h₀
  rw [opened_eq, hstart.stop] at h
  generalize carry _ (opening _) = z at h hbegun hopen
  obtain ⟨d, x⟩ := z
  obtain ⟨c, x, rfl, hfits, hblamed⟩ := h.induct
    (P := fun past c x => (∀ q ∈ past, q.2 ≠ .run) → ∀ e, x = .failed e → Blamed past c e)
    h₀ hbegun
    (by
      -- a run that begins does not fail
      intro _ e he
      obtain ⟨-, hx⟩ | ⟨-, hx⟩ := hopen <;> cases hx.symm.trans he)
    (by
      intro past c x h d x' _ hx _ hp hrun e he
      subst he
      exact hp.blamed hx (hrun _ List.mem_cons_self))
  cases x with
  | failed e =>
    cases hr
    obtain ⟨hundone, u, call, r, before, rfl, why⟩ := hblamed hfirst e rfl
    refine ⟨?_, nofun, fun hd => absurd (hundone.symm.trans hd.2) nofun⟩
    rintro e' he
    cases he
    refine ⟨why.isForeseen, why.isFatal_iff.trans ⟨fun hb => ⟨_, _, rfl, hb⟩, ?_⟩⟩
    rintro ⟨last, rest, heq, hb⟩
    cases heq
    exact hb
  | ended =>
    cases hr
    exact ⟨nofun, fun _ => ⟨hfits.2, hfits.1⟩, fun _ => rfl⟩
  | _ => cases hr

/-- A stack that offers bytes of the application to a session that waits for the SYN,ACK. -/
def hasty : List Response := [.sent 20, .event .appData]

/-- The run of a session with a hasty stack fails, and the stack is to blame. -/
theorem first_run_result_hasty : ∃ past t, Trail (opened {} .active none).start.1 past t ∧
    (∀ q ∈ past, q.2 ≠ .run) ∧ t.status = .returned (.error (.unexpectedEvent .appData)) ∧
    (Error.unexpectedEvent .appData).isForeseen = true ∧
    ∃ last before, past = last :: before ∧ last.2.Breaches := by
  have hbegun := reaches_start (Connection.opened_free {} .active none)
  rw [← opened_eq] at hbegun
  have hasked : hear [] (carry (Connection.opened {} .active none) (opening .active)) hasty =
      some (_, _) := rfl
  have hheard := hbegun.hear hasked
  have hrun := hear_ne_run hasked (List.forall_mem_nil _)
  obtain ⟨hforeseen, hfatal⟩ := (first_run_result {} .active none hheard.trail hrun rfl).1 _ rfl
  exact ⟨_, _, hheard.trail, hrun, rfl, hforeseen, hfatal.1 rfl⟩

end StopWait.Session
