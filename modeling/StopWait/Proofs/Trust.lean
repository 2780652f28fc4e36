import StopWait.Proofs.Passage
import StopWait.Proofs.Readiness

/-!
# Sessions that are told the truth

A session trusts what its stack reports: it reads bytes that have been announced, and receives
datagrams that have been. On a link it never does so in vain.

* `Session.Error.Plausible`, `plausible_of_exchange`: a stack that reports what is so **causes no
  failure for want of it.**
* `Trusts`, `Trusts.act`: bytes that a session is about to read can be read.
* `actStack_elsewhere`, `Trusts.after`: **any moves** leave that, whatever the peer is.
* `readiness_truthful`: what waits report, and what comes of it.
-/

namespace StopWait

/-- An error that a session may run into on a stack that reports what is so. -/
def Session.Error.Plausible : Session.Error → Prop
  | .emptyWrite => False
  | .unexpectedEvent event => event = .timeout
  | _ => True

namespace Link

open Session (Stage Response response Passes Begins staged carry)

variable {side s : Side} {e e' f f' : Endpoint} {call : Call} {r : Response} {losable : Prop}
  {mask : Interest} {n : Nat} {c₀ c c' : Connection} {x y : Stage} {p : Point}
  {err : Session.Error} {t : StackTask}

/-- Bytes are read only after they have been announced. -/
theorem announced_of_fetching (h : Passes c x call r c' y) (hy : y = .fetching) :
    call = .wait .any ∧ r = .event .appData := by
  have harrival : ∀ (a : Session.Arrival) bytes, (a.begin bytes).2 ≠ .fetching := by
    intro a bytes
    unfold Session.Arrival.begin
    split <;> nofun
  cases h with
  | fetches => exact ⟨rfl, rfl⟩
  | takesFin => exact absurd hy (harrival _ _)
  | @accepts w => cases w <;> first | cases hy | exact absurd hy (harrival _ _)
  | @posts m => cases m <;> cases hy
  | _ => cases hy

/-- **A stack that reports what is so causes no failure for want of it.** -/
theorem plausible_of_exchange (h : Passes c x call r c' y) (hy : y = .failed err)
    (hr : Exchange losable e f call r e' f')
    (hb : ∀ n, call = .appRecv n → n ≠ 0 ∧ e.buffer ≠ []) : err.Plausible := by
  cases h with
  | fails why =>
    cases hy
    cases why with
    | timeout => rfl
    | intrusion hne =>
      cases hr with
      | event heard ready => exact absurd (available_networkOnly ready) hne
      | timeout => rfl
    | @empty n =>
      obtain ⟨hn, hbuffer⟩ := hb n rfl
      have hbytes := hr.of_read
      rw [Response.bytes.injEq, eq_comm, List.take_eq_nil_iff] at hbytes
      exact (hbytes.elim hn hbuffer).elim
    | _ => trivial
  | takesFin => exact absurd hy (Session.arrival_ne_failed _ _)
  | accepts => exact absurd hy (Session.after_ne_failed _ _)
  | @posts m => cases m <;> cases hy
  | _ => cases hy

/-- A session reads while it fetches, and asks for a full segment. -/
theorem fetching_of_read (hfits : x.Fits c₀ c) (hp : x.status c = .suspended p)
    (hc : p.call c = .appRecv n) : x = .fetching ∧ n = mss.toNat := by
  cases x with
  | fetching =>
    cases hp
    cases hc
    have hfree : c.Free .established := hfits.1.free rfl
    exact ⟨rfl, hfree.balanced.budget_eq hfree.flight⟩
  | ready | failed | ended => cases hp
  | _ =>
    cases hp
    cases hc

/-- A run begins with nothing to read, and fails only if the connection refuses. -/
theorem begins_plausible (h₀ : c₀.Free .listen) (hfits : x.Fits c₀ c) :
    ∃ y, Begins c₀ c y ∧ (staged (c, x)).start.1 = staged y ∧ y.2 ≠ .fetching ∧
      ∀ err, y.2 = .failed err → err.Plausible := by
  by_cases hl : c.state = .listen
  · obtain rfl := hfits.eq_of_listen hl
    refine ⟨_, .opens rfl, (Session.start_leads h₀).stop, ?_⟩
    obtain ⟨-, hx⟩ | ⟨-, hx⟩ := Session.carry_opening h₀ <;> rw [hx] <;> exact ⟨nofun, nofun⟩
  · refine ⟨_, .again hl, Session.start_of_ne_listen hl, nofun, ?_⟩
    rintro err ⟨⟩
    trivial

/-- The errors of a driver whose session has reached a stop. -/
theorem errors_reach (c : Connection) (x : Stage) (left : Nat)
    (results : List (Except Session.Error Unit)) :
    ∃ results', Driver.reach (staged (c, x)) left results = .session (staged (c, x)) left results' ∧
      ∀ err, .error err ∈ results' → .error err ∈ results ∨ x = .failed err := by
  cases x with
  | ended =>
    refine ⟨.ok () :: results, rfl, fun err h => .inl ?_⟩
    simpa using h
  | failed e =>
    refine ⟨.error e :: results, rfl, fun err h => ?_⟩
    obtain h | h := List.mem_cons.1 h
    · cases h
      exact .inr rfl
    · exact .inl h
  | _ => exact ⟨results, rfl, fun err => .inl⟩

/-- **A session that is told the truth**: bytes that it is about to read can be read, and its runs
have failed for other reasons. -/
structure Trusts (c₀ : Connection) (t : StackTask) (e : Endpoint) : Prop where
  party : ∃ c x left results, t.driver = .session (staged (c, x)) left results ∧
    (t.finished = false → x.Fits c₀ c) ∧ (t.finished = true → x.rests = true) ∧
    (x = .fetching → e.buffer ≠ []) ∧ ∀ err, .error err ∈ results → err.Plausible

/-- Bytes that are added do no harm. -/
theorem Trusts.mono (h : Trusts c₀ t e) (hb : e.buffer <+: e'.buffer) : Trusts c₀ t e' := by
  obtain ⟨c, x, left, results, hd, hfits, hrests, hbuffer, hres⟩ := h.party
  exact ⟨c, x, left, results, hd, hfits, hrests, fun hx => hb.ne_nil (hbuffer hx), hres⟩

/-- A session that reaches a stage of its run. -/
theorem Trusts.of_reach {left : Nat} {results : List (Except Session.Error Unit)}
    (hf : t.finished = false) (hfits : x.Fits c₀ c) (hbuffer : x = .fetching → e.buffer ≠ [])
    (hres : ∀ err, .error err ∈ results → err.Plausible)
    (hx : ∀ err, x = .failed err → err.Plausible) :
    Trusts c₀ { t with driver := .reach (staged (c, x)) left results, timer := none } e := by
  obtain ⟨results', hreach, herrors⟩ := errors_reach c x left results
  exact ⟨c, x, left, results', hreach, fun _ => hfits, fun h => absurd (hf.symm.trans h) nofun,
    hbuffer, fun err h => (herrors err h).elim (hres err) (hx err)⟩

/-- Bytes that have been announced can be read. -/
theorem buffer_of_announced (h : Exchange losable e f call r e' f') (hc : call = .wait mask)
    (hr : r = .event .appData) : e'.buffer ≠ [] := by
  cases h with
  | event heard ready =>
    cases hr
    obtain ⟨he, -⟩ | ⟨-, -, hb⟩ | ⟨he, -⟩ := Endpoint.available_cases ready
    · cases he
    · exact hb
    · cases he
  | timeout | deaf | told | untold => cases hr
  | _ => cases hc

/-- **A session that is told the truth goes on with every answer that its stack gives.** -/
theorem Trusts.answers {left : Nat} {results : List (Except Session.Error Unit)}
    (hf : t.finished = false) (hfits : x.Fits c₀ c)
    (hbuffer : x = .fetching → e.buffer ≠ [])
    (hres : ∀ err, .error err ∈ results → err.Plausible) (hp : x.status c = .suspended p)
    (hr : Exchange losable e f (p.call c) r e' f') :
    Trusts c₀
      { t with driver := .reach (staged (carry c (x.turn r))) left results, timer := none } e' := by
  obtain ⟨a, rfl⟩ := hr.answer
  have hpass := Session.passes_of_answer hfits hp a
  refine Trusts.of_reach hf (Session.resumeAt_leads hfits hp a).fits (fun hy => ?_) hres
    fun err hy => plausible_of_exchange hpass hy hr fun n hn => ?_
  · obtain ⟨hcall, hresponse⟩ := announced_of_fetching hpass hy
    exact buffer_of_announced hr hcall hresponse
  · obtain ⟨hx, hfull⟩ := fetching_of_read hfits hp hn
    exact ⟨by rw [hfull]; decide, hbuffer hx⟩

/-- **A move of a session that is told the truth.** -/
theorem Trusts.act (h₀ : c₀.Free .listen) {w : World}
    (h : Trusts c₀ (w.hosts.get side) (w.link.ends.get side)) :
    Trusts c₀ ((w.actStack side).1.hosts.get side) ((w.actStack side).1.link.ends.get side) := by
  obtain ⟨c, x, left, results, hd, hfits, hrests, hbuffer, hres⟩ := h.party
  by_cases hbegin : (w.hosts.get side).finished = false ∧ x.rests = true ∧ left ≠ 0
  · -- a run begins
    obtain ⟨hf, hx, hleft⟩ := hbegin
    obtain ⟨y, hy, hstart, hfetch, herr⟩ := begins_plausible h₀ (hfits hf)
    rw [actStack_session w side hd hf (.inr hleft)]
    simp only [World.actSession, point?_of_rests hx, World.advance, World.setStack, Link.report,
      Both.get_set_self, hstart]
    exact Trusts.of_reach hf (hy.fits h₀) (fun h => absurd h hfetch) hres herr
  · obtain ⟨hserves, -⟩ := serves_actStack h₀ w side hd hfits hrests
    generalize (w.actStack side).1.hosts.get side = t' at hserves ⊢
    generalize (w.actStack side).1.link.ends.get side = e' at hserves ⊢
    generalize (w.actStack side).1.link.ends.get side.other = f' at hserves
    generalize w.stackDeed? side = o at hserves
    generalize (w.actStack side).2 = moved at hserves
    cases hserves with
    | sits => exact h
    | waits hp same =>
      exact ⟨c, x, left, results, hd, hfits, hrests, fun hx => same.buffer.ne_nil (hbuffer hx),
        hres⟩
    | begins hf hx hleft => exact absurd ⟨hf, hx, hleft⟩ hbegin
    | ends hf hx =>
      have hnot : x = .fetching → False := by
        rintro rfl
        cases hx
      by_cases hdrop : (w.hosts.get side).dropWhenDone = true
      · rw [if_pos hdrop, hd]
        refine ⟨c.drop, x, left, results, ?_, fun h => ?_, fun _ => hx,
          fun h => (hnot h).elim, hres⟩
        · cases x <;> rfl
        · cases h
      · rw [if_neg hdrop]
        refine ⟨c, x, left, results, hd, fun h => ?_, fun _ => hx, fun h => (hnot h).elim, hres⟩
        cases h
    | answers hp hr =>
      have hf : (w.hosts.get side).finished = false := by
        rw [← Bool.not_eq_true]
        intro hfin
        cases (Stage.rests_of_suspended hp).symm.trans (hrests hfin)
      exact Trusts.answers hf (hfits hf) hbuffer hres hp hr

/-- **What a stack's task does to the other end** is at most to put a datagram on its queue. -/
theorem actStack_elsewhere (w : World) (side : Side) :
    (∃ inbox, (w.actStack side.other).1.link.ends.get side =
      { w.link.ends.get side with inbox }) ∧
    (w.actStack side.other).1.hosts.get side = w.hosts.get side := by
  have hself : ∃ inbox, w.link.ends.get side = { w.link.ends.get side with inbox } := ⟨_, rfl⟩
  -- a task that is replaced is nothing to the other one
  have hset : ∀ (l : Link) (t : StackTask),
      (∃ inbox, l.ends.get side = { w.link.ends.get side with inbox }) →
      (∃ inbox, ({ w with link := l }.setStack side.other t).link.ends.get side =
        { w.link.ends.get side with inbox }) ∧
      ({ w with link := l }.setStack side.other t).hosts.get side = w.hosts.get side :=
    fun l t h => ⟨h, Both.get_set_of_other _ _ _⟩
  unfold World.actStack
  simp only
  split
  · exact ⟨hself, rfl⟩
  split
  · unfold World.conclude
    simp only
    split
    · refine hset (w.link.dropStack side.other) _ ?_
      rw [Link.dropStack, setEnd, Both.get_set_of_other]
      exact hself
    · exact hset w.link _ hself
  split
  · rename_i s left results _
    unfold World.actSession
    split
    · exact hset _ _ hself
    · rename_i q _
      have hpeer := attempt_peer w.link side (w.hosts.get side.other).timer (q.call s.connection)
      split <;> rename_i heq <;> rw [heq] at hpeer <;> exact hset _ _ hpeer
  · rename_i step rest answered _
    unfold World.actRaw
    cases step with
    | sleep ms =>
      simp only
      split <;> exact hset w.link _ hself
    | send datagram =>
      have hpeer := attempt_peer w.link side (w.hosts.get side.other).timer (.networkSend datagram)
      rw [attempt] at hpeer
      simp only
      split <;> rename_i heq <;> rw [heq] at hpeer <;> exact hset _ _ hpeer
    | recv =>
      have hpeer := attempt_peer w.link side none (.networkRecv World.rawBuffer)
      rw [attempt] at hpeer
      simp only
      split <;> rename_i heq <;> rw [heq] at hpeer <;> exact hset _ _ hpeer
  · exact ⟨hself, rfl⟩

/-- **Every move keeps the trust of a session.** -/
theorem Trusts.move (h₀ : c₀.Free .listen) {w : World} (m : Move)
    (h : Trusts c₀ (w.hosts.get side) (w.link.ends.get side)) :
    Trusts c₀ ((w.move m).hosts.get side) ((w.move m).link.ends.get side) := by
  cases m with
  | clock | network => exact h
  | turn task =>
    cases task with
    | app s =>
      obtain ⟨hheeds, hother, hhosts⟩ := heeds_actApp w s
      have hbuffer : ((w.actApp s).1.link.ends.get side).buffer =
          (w.link.ends.get side).buffer := by
        obtain rfl | rfl := Side.eq_or_eq_other s side
        · exact hheeds.buffer
        · rw [Side.other_other] at hother
          rw [hother]
      show Trusts c₀ ((w.actApp s).1.hosts.get side) ((w.actApp s).1.link.ends.get side)
      rw [hhosts]
      exact h.mono (hbuffer ▸ List.prefix_refl _)
    | stack s =>
      obtain rfl | rfl := Side.eq_or_eq_other s side
      · exact h.act h₀
      · obtain ⟨⟨inbox, hend⟩, hhost⟩ := actStack_elsewhere w side
        show Trusts c₀ ((w.actStack side.other).1.hosts.get side)
          ((w.actStack side.other).1.link.ends.get side)
        rw [hend, hhost]
        exact h.mono (List.prefix_refl _)

/-- **Any moves keep it.** -/
theorem Trusts.after (h₀ : c₀.Free .listen) {w : World} (moves : List Move)
    (h : Trusts c₀ (w.hosts.get side) (w.link.ends.get side)) :
    Trusts c₀ ((moves.foldl World.move w).hosts.get side)
      ((moves.foldl World.move w).link.ends.get side) := by
  induction moves generalizing w with
  | nil => exact h
  | cons m moves ih => exact ih (h.move h₀ m)

/-- **Readiness reports are truthful.** A link has been used in any way, on any network, and a wait
for any mask is answered.

If it reports a datagram, the mask asks for one, and the next receive is given it at once. If it
reports bytes, the mask asks for them, and the next read into a buffer brings at least one. If it
reports the close, the mask asks for it, and all that was written before the close has been read. A
timeout is reported only if there is one. The wait fails only if no event of the mask is ready and
none can come: the mask asks for no datagrams, or the peer's stack is gone and no datagram is left;
and it asks for nothing of the application, or the close has been seen, so that what is in the
buffer is all that is left.

So a session on such a link, with any peer, never runs into bytes that are not there, nor into an
event that it has not asked for, but for a timeout. -/
theorem readiness_truthful (network : Network) (idle : Both (Option Nat)) (side : Side) :
    (∀ (uses : List Use) (timer : Option Nat) (mask : Interest),
      let h := Usage.after ⟨.new network idle.near idle.far, []⟩ uses
      let answer := (h.link.use (.stack side timer (.wait mask))).2
      let h' := h.next (.stack side timer (.wait mask))
      (answer = some (reports side mask .networkData) →
        mask.network = true ∧ ∃ d : List UInt8, ∀ us,
          (∀ u ∈ us, u.Spares side takesDatagram) → ∀ timer n,
          ((h'.after us).link.use (.stack side timer (.networkRecv n))).2 =
            some (.stack side (.networkRecv n) (.bytes (d.take n)))) ∧
      (answer = some (reports side mask .appData) →
        mask.appData = true ∧ ∀ us, (∀ u ∈ us, u.Spares side takesBytes) → ∀ timer n, 0 < n →
          ∃ bytes, bytes ≠ [] ∧ ((h'.after us).link.use (.stack side timer (.appRecv n))).2 =
            some (.stack side (.appRecv n) (.bytes bytes))) ∧
      (answer = some (reports side mask .appCloseRequested) →
        mask.appClose = true ∧ h'.closing side = some (h'.read side)) ∧
      (answer = some (reports side mask .timeout) → idle.get side ≠ none) ∧
      ∀ failure, answer = some (.stack side (.wait mask) (.failed failure)) →
        failure = .disconnected ∧ (h'.link.ends.get side).available mask = none ∧
        (mask.network = true →
          (h'.link.ends.get side.other).stackGone = true ∧
            (h'.link.ends.get side).queue = []) ∧
        (mask.anyApp = true →
          (h'.link.ends.get side).closeRequested = true ∧
            h'.closing side = some (h'.read side ++ (h'.link.ends.get side).buffer))) ∧
    ∀ (setup : Setup) (role : Role) (apps : Both AppTask) (peer : StackTask) (moves : List Move),
      let w : World :=
        { link := .new network idle.near idle.far
          apps
          hosts := (⟨peer, peer⟩ : Both StackTask).set side (setup.host role) }
      ∀ err, .error err ∈ (moves.foldl World.move w).results side →
        err ≠ .emptyWrite ∧ ∀ event, err = .unexpectedEvent event → event = .timeout := by
  refine ⟨fun uses timer mask => ?_, fun setup role apps peer moves => ?_⟩
  · intro h answer h'
    have hkept : Kept side h := (kept_new network idle.near idle.far side).after uses
    have hkept' : Kept side h' := hkept.next _
    have hidle : (h.link.ends.get side).idleTimeout = idle.get side :=
      idle_reached network idle side uses
    have hshuts : h'.link.ShutsLast side := (shutsLast_reached network idle side uses).use _
    -- an answered wait leaves its stack where it is
    have hthere : ∀ {r}, answer = some (.stack side (.wait mask) r) →
        (h'.link.ends.get side).stackGone = false := by
      intro r hr
      refine (@stack_use side h.link _ takesBytes ?_).trans (waited hr).1
      rintro - ⟨n, hn⟩
      cases hn
    refine ⟨fun hr => ?_, fun hr => ?_, fun hr => ?_, fun hr => ?_, fun failure hr => ?_⟩
    · obtain ready | ⟨he, -⟩ := event_waited hr
      · obtain ⟨-, hm, d, hs⟩ | ⟨he, -⟩ | ⟨he, -⟩ := Endpoint.available_cases ready
        · exact ⟨hm, d, fun us hus timer n => datagram_next (hthere hr) hs hus timer n⟩
        · cases he
        · cases he
      · cases he
    · obtain ready | ⟨he, -⟩ := event_waited hr
      · obtain ⟨he, -⟩ | ⟨-, hm, hb⟩ | ⟨he, -⟩ := Endpoint.available_cases ready
        · cases he
        · exact ⟨hm, fun us hus timer n hn => bytes_next (hthere hr) hb hus timer hn⟩
        · cases he
      · cases he
    · obtain ready | ⟨he, -⟩ := event_waited hr
      · obtain ⟨he, -⟩ | ⟨he, -⟩ | ⟨-, hm, -⟩ := Endpoint.available_cases ready
        · cases he
        · cases he
        · have hdeeds : h'.deeds = h.deeds ++ reports side mask .appCloseRequested :: [] := by
            show h.deeds ++ answer.toList = _
            rw [hr]
            rfl
          exact ⟨hm, (hkept'.closed hdeeds).2.1⟩
      · cases he
    · obtain ready | ⟨-, hne⟩ := event_waited hr
      · obtain ⟨he, -⟩ | ⟨he, -⟩ | ⟨he, -⟩ := Endpoint.available_cases ready <;> cases he
      · rwa [hidle] at hne
    · obtain ⟨hf, hnone, hnetwork, happ⟩ := failure_waited hr
      refine ⟨hf, hnone, fun hm => hshuts (hnetwork hm), fun hm => ⟨happ hm, ?_⟩⟩
      have hpledged : (h'.link.ends.get side).pledged =
          some (h'.link.ends.get side).buffer := if_pos (happ hm)
      rw [hkept'.books.pledge (hthere hr), hpledged]
      rfl
  · intro w err herr
    have h₀ : (setup.connection role).Free .listen := Connection.opened_free _ _ _
    have hhost : w.hosts.get side = setup.host role := Both.get_set_self _ _ _
    have htrusts : Trusts (setup.connection role) (w.hosts.get side) (w.link.ends.get side) := by
      rw [hhost]
      exact ⟨setup.connection role, .ready, setup.runs, [], rfl, fun _ => rfl, nofun, nofun, nofun⟩
    obtain ⟨c, x, left, results, hd, -, -, -, hres⟩ := (htrusts.after h₀ moves).party
    rw [World.results, hd] at herr
    have hplausible := hres err herr
    refine ⟨?_, ?_⟩
    · rintro rfl
      exact hplausible
    · rintro event rfl
      exact hplausible

/-- A datagram is reported, and is received next although bytes are read and waited for before. -/
theorem readiness_truthful_datagram :
    let h := Usage.after ⟨.new .reliable none none, []⟩
      [.stack .near none (.networkSend [1, 2, 3]), .app .far (.write [4])]
    let h' := h.next (.stack .far none (.wait .any))
    (h.link.use (.stack .far none (.wait .any))).2 = some (reports .far .any .networkData) ∧
    ∃ d : List UInt8, ∀ n,
      ((h'.after [.glance .far ⟨false, true, true⟩, .stack .far none (.appRecv 9)]).link.use
          (.stack .far none (.networkRecv n))).2 =
        some (.stack .far (.networkRecv n) (.bytes (d.take n))) := by
  intro h h'
  have hreport : (h.link.use (.stack .far none (.wait .any))).2 =
      some (reports .far .any .networkData) := by
    decide +kernel
  obtain ⟨hdatagram, -⟩ := (readiness_truthful .reliable ⟨none, none⟩ .far).1
    [.stack .near none (.networkSend [1, 2, 3]), .app .far (.write [4])] none .any
  obtain ⟨-, d, hnext⟩ := hdatagram hreport
  exact ⟨hreport, d, fun n => hnext _ (by simp [Use.Spares, takesDatagram]) none n⟩

end Link

end StopWait
