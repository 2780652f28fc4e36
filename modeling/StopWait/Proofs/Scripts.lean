import StopWait.Proofs.Moves

/-!
# Scripts of a transfer

One application writes chunks and closes, and the other one asks for nothing. Either one may listen
and sleep, and keeps its handle.

* `AppStep.isQuiet`: a step that asks for nothing.
* `Pens`: **where the writing application is in its script**, with what it has written.
* `quiet_actApp`, `Pens.actApp`: what a move makes of the two scripts.
-/

namespace StopWait.Link

/-- Whether a step of an application asks for nothing to be sent, and keeps the handle. -/
def AppStep.isQuiet : AppStep → Bool
  | .call c => c.listens
  | .sleep _ => true
  | .drop => false

/-- A script that writes chunks and closes, before some more steps. -/
def writing (chunks : List (List UInt8)) (rest : List AppStep) : List AppStep :=
  chunks.map (fun bytes => .call (.write bytes)) ++ .call .close :: rest

/-- **Where the writing application is in its script**: what is left of it, what it has written of
`total`, and what it had written when it closed. -/
inductive Pens (total : List UInt8) : List AppStep → List UInt8 → Option (List UInt8) → Prop where
  | writes {chunks : List (List UInt8)} {rest : List AppStep} {written : List UInt8}
    (hrest : ∀ step ∈ rest, step.isQuiet = true) (hw : written ++ chunks.flatten = total) :
    Pens total (writing chunks rest) written none
  | closed {rest : List AppStep} (hrest : ∀ step ∈ rest, step.isQuiet = true) :
    Pens total rest total (some total)

variable {w : World} {side : Side} {total written : List UInt8} {closing : Option (List UInt8)}
  {script rest : List AppStep}

theorem Pens.prefix (h : Pens total script written closing) : written <+: total := by
  cases h with
  | writes _ hw => exact ⟨_, hw⟩
  | closed => exact List.prefix_refl _

/-- What was written before the close is all there is to write. -/
theorem Pens.eq_of_closing (h : Pens total script written closing) {bytes : List UInt8}
    (hc : closing = some bytes) : bytes = total := by
  cases h with
  | writes => cases hc
  | closed => exact (Option.some.inj hc).symm

/-- A call that goes on goes on with what it was about. -/
theorem listens_of_error {c c' : AppCall} {e : Endpoint} (h : (c.attempt e).2 = .error c') :
    c'.listens = c.listens := by
  cases c with
  | write bytes =>
    simp only [AppCall.attempt] at h
    split at h <;> cases h
    rfl
  | close =>
    simp only [AppCall.attempt] at h
    split at h <;> cases h
    rfl
  | connected =>
    simp only [AppCall.attempt] at h
    split at h <;> cases h
    rfl
  | nextEvent =>
    simp only [AppCall.attempt] at h
    split at h <;> cases h
    rfl
  | readToEnd gathered =>
    simp only [AppCall.attempt] at h
    split at h <;> cases h
    rfl

/-- An application moves alone. -/
theorem actApp_other (w : World) (side : Side) :
    (w.actApp side).1.apps.get side.other = w.apps.get side.other ∧
      (w.actApp side).1.link.network = w.link.network := by
  cases hs : (w.apps.get side).script with
  | nil => simp only [World.actApp, hs, and_self]
  | cons step rest =>
    cases step with
    | sleep ms =>
      simp only [World.actApp, hs]
      split <;> simp [World.replyApp, World.setApp]
    | drop => simp [World.actApp, hs, World.replyApp, World.setApp, Link.dropApp, setEnd]
    | call c =>
      simp only [World.actApp, hs, attemptApp]
      split
      · simp [World.replyApp, World.setApp]
      · cases (c.attempt (w.link.ends.get side)).2 <;>
          simp [World.replyApp, World.setApp, setEnd]

/-- A deed with which nothing is asked for. -/
def IsQuiet (side : Side) (d : Option Deed) : Prop :=
  d.toList.flatMap (Deed.written side) = [] ∧ writtenUptoClose side d.toList = none

theorem isQuiet_none : IsQuiet side none := ⟨rfl, rfl⟩

theorem IsQuiet.ne_drop {d : Option Deed} (h : IsQuiet side d) : d ≠ some (.drop side) := by
  rintro rfl
  have hclose := h.2
  simp [writtenUptoClose, Deed.closes] at hclose

/-- **A quiet step** is done, or stays at the head of the script. -/
theorem actApp_quiet {step : AppStep} (hs : (w.apps.get side).script = step :: rest)
    (hq : step.isQuiet = true) (happ : (w.link.ends.get side).appGone = false) :
    IsQuiet side (w.appDeed? side) ∧
      ((((w.actApp side).1.apps.get side).script = rest ∧ (w.actApp side).2 = true) ∨
        ∃ step', step'.isQuiet = true ∧
          ((w.actApp side).1.apps.get side).script = step' :: rest ∧ (w.actApp side).2 = false) := by
  cases step with
  | drop => cases hq
  | sleep ms =>
    simp only [World.actApp, World.appDeed?, hs]
    refine ⟨isQuiet_none, ?_⟩
    split
    · exact .inl ⟨by simp [World.replyApp, World.setApp], rfl⟩
    · exact .inr ⟨.sleep ms, rfl, by simp [World.setApp], rfl⟩
  | call c =>
    simp only [World.actApp, World.appDeed?, hs, happ, Bool.false_eq_true, if_false, attemptApp]
    cases hr : (c.attempt (w.link.ends.get side)).2 with
    | ok reply =>
      refine ⟨?_, .inl ⟨by simp [World.replyApp, World.setApp], rfl⟩⟩
      cases c with
      | write | close => cases hq
      | _ => exact ⟨rfl, rfl⟩
    | error c' =>
      refine ⟨isQuiet_none, .inr ⟨.call c', (listens_of_error hr).trans hq, ?_, rfl⟩⟩
      simp [World.setApp]

/-- **A request** is queued, or stays at the head of the script. -/
theorem actApp_request {r : Request} (hs : (w.apps.get side).script = .call r.call :: rest)
    (happ : (w.link.ends.get side).appGone = false)
    (hthere : (w.link.ends.get side).stackGone = false) :
    (w.appDeed? side = some (.app side r.call .done) ∧
      ((w.actApp side).1.apps.get side).script = rest ∧ (w.actApp side).2 = true) ∨
    (w.appDeed? side = none ∧
      ((w.actApp side).1.apps.get side).script = .call r.call :: rest ∧
      (w.actApp side).2 = false) := by
  have hattempt : (r.call.attempt (w.link.ends.get side)).2 = .ok .done ∨
      (r.call.attempt (w.link.ends.get side)).2 = .error r.call := by
    obtain ⟨hgone, -⟩ | ⟨-, -, hr⟩ | ⟨-, -, hr⟩ := request_cases (w.link.ends.get side) r
    · cases hthere.symm.trans hgone
    · exact .inl (by cases r <;> simp only [Request.call, AppCall.attempt, hr])
    · exact .inr (by cases r <;> simp only [Request.call, AppCall.attempt, hr])
  simp only [World.actApp, World.appDeed?, hs, happ, Bool.false_eq_true, if_false, attemptApp]
  rcases hattempt with ha | ha <;> rw [ha]
  · exact .inl ⟨rfl, by simp [World.replyApp, World.setApp], rfl⟩
  · exact .inr ⟨rfl, by simp [World.setApp], rfl⟩

/-- What a move makes of a script: it is a step shorter if the move is made. -/
def Shortens (w : World) (side : Side) : Prop :=
  ((w.actApp side).1.apps.get side).script.length + (w.actApp side).2.toNat ≤
    (w.apps.get side).script.length

/-- **A move of an application that asks for nothing.** -/
theorem quiet_actApp (hq : ∀ step ∈ (w.apps.get side).script, step.isQuiet = true)
    (happ : (w.link.ends.get side).appGone = false) :
    IsQuiet side (w.appDeed? side) ∧ Shortens w side ∧
      ∀ step ∈ ((w.actApp side).1.apps.get side).script, step.isQuiet = true := by
  unfold Shortens
  cases hs : (w.apps.get side).script with
  | nil =>
    simp only [World.actApp, World.appDeed?, hs]
    exact ⟨isQuiet_none, Nat.le_refl _, by simp⟩
  | cons step rest =>
    rw [hs] at hq
    have hrest : ∀ step ∈ rest, step.isQuiet = true := fun t ht => hq t (List.mem_cons_of_mem _ ht)
    obtain ⟨hd, ⟨hscript, hmoved⟩ | ⟨step', hq', hscript, hmoved⟩⟩ :=
      actApp_quiet hs (hq step List.mem_cons_self) happ
    · rw [hscript, hmoved]
      exact ⟨hd, Nat.le_refl _, hrest⟩
    · rw [hscript, hmoved]
      refine ⟨hd, Nat.le_refl _, fun t ht => ?_⟩
      rcases List.mem_cons.1 ht with rfl | ht
      · exact hq'
      · exact hrest t ht

/-- **A move of the application that writes.** -/
theorem Pens.actApp (hp : Pens total (w.apps.get side).script written closing)
    (happ : (w.link.ends.get side).appGone = false)
    (hthere : closing = none → (w.link.ends.get side).stackGone = false) :
    Shortens w side ∧ w.appDeed? side ≠ some (.drop side) ∧
      Pens total ((w.actApp side).1.apps.get side).script
        (written ++ (w.appDeed? side).toList.flatMap (Deed.written side))
        (closing.or ((writtenUptoClose side (w.appDeed? side).toList).map (written ++ ·))) := by
  generalize hs : (w.apps.get side).script = script at hp
  cases hp with
  | closed hrest =>
    subst hs
    obtain ⟨hd, hshort, hrest'⟩ := quiet_actApp hrest happ
    refine ⟨hshort, hd.ne_drop, ?_⟩
    rw [hd.1, hd.2, List.append_nil]
    exact .closed hrest'
  | @writes chunks rest _ hrest hw =>
    unfold Shortens
    -- a request that has no room stays where it is
    have hstay : w.appDeed? side = none →
        ((w.actApp side).1.apps.get side).script = writing chunks rest →
        (w.actApp side).2 = false →
        ((w.actApp side).1.apps.get side).script.length + (w.actApp side).2.toNat ≤
          (w.apps.get side).script.length ∧
        w.appDeed? side ≠ some (.drop side) ∧
        Pens total ((w.actApp side).1.apps.get side).script
          (written ++ (w.appDeed? side).toList.flatMap (Deed.written side))
          ((none : Option (List UInt8)).or
            ((writtenUptoClose side (w.appDeed? side).toList).map (written ++ ·))) := by
      intro hd hscript hmoved
      rw [hd, hscript, hmoved, hs]
      refine ⟨Nat.le_refl _, by simp, ?_⟩
      simpa [writtenUptoClose] using Pens.writes hrest hw
    cases chunks with
    | nil =>
      -- the close is next
      obtain ⟨hd, hscript, hmoved⟩ | ⟨hd, hscript, hmoved⟩ :=
        actApp_request (r := .close) hs happ (hthere rfl)
      · rw [hs, hd, hscript, hmoved]
        refine ⟨Nat.le_refl _, by simp, ?_⟩
        have hall : written = total := by simpa using hw
        subst hall
        simpa [Request.call, writtenUptoClose, Deed.closes, Deed.written] using Pens.closed hrest
      · exact hstay hd hscript hmoved
    | cons bytes chunks =>
      obtain ⟨hd, hscript, hmoved⟩ | ⟨hd, hscript, hmoved⟩ :=
        actApp_request (r := .write bytes) hs happ (hthere rfl)
      · rw [hs, hd, hscript, hmoved]
        refine ⟨Nat.le_refl _, by simp, ?_⟩
        have hw' : (written ++ bytes) ++ chunks.flatten = total := by
          rw [← hw, List.flatten_cons, List.append_assoc]
        have hpens := Pens.writes hrest hw'
        simpa [writing, Request.call, writtenUptoClose, Deed.closes, Deed.written] using hpens
      · exact hstay hd hscript hmoved

end StopWait.Link
