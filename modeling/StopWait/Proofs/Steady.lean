import StopWait.Proofs.Answers
import StopWait.Proofs.Delivery
import StopWait.Proofs.Phases

/-!
# Sessions that go steady

A session that is run once, whose transfer log takes every record, which waits for as long as it
takes and whose application stays: what a move makes of it on a network that loses nothing, as long
as what waits for it suits it. It never fails.

* `Steady`: **such a session**, with its task, its endpoint and its party.
* `Advances`: what a move makes of the party.
* `Alters`: what a move makes of the two endpoints.
* `Steady.serves`: **a move keeps a session steady.**
-/

namespace StopWait.Link

open Session (Stage Response Begins Party Goes response staged carry received)

/-- The runs that a session has left at a stage, and the results so far, if it is run once and does
not fail. -/
def tally : Stage → Nat × List (Except Session.Error Unit)
  | .ready => (1, [])
  | .ended => (0, [.ok ()])
  | _ => (0, [])

/-- **A session that goes steady.** -/
structure Steady (t : StackTask) (e : Endpoint) (p : Party) : Prop where
  driver : t.driver =
    .session (staged (p.connection, p.stage)) (tally p.stage).1 (tally p.stage).2
  finished : t.finished = true → p.stage = .ended
  calm : p.connection.log.Calm
  patient : e.idleTimeout = none
  app : e.appGone = false
  fetches : p.stage = .fetching → e.buffer ≠ []

/-- **What a move of a session makes of its party**, if it does not fail: whether its task was
finished before, whether the move was made, the answered call, the party after, whether its task is
finished, and the segments for the peer. -/
inductive Advances (p : Party) (f : Bool) :
    Bool → Option (Call × Response) → Party → Bool → List Segment → Prop where
  | stays : Advances p f false none p f []
  | retires (hf : f = false) (hx : p.stage = .ended) (dropped : Bool) :
    Advances p f true none (retired p dropped) true []
  | begins {c' : Connection} {x' : Stage} (hx : p.stage = .ready)
    (hfree : p.connection.Free .listen)
    (hc : carry p.connection (Session.opening p.connection.role) = (c', x')) :
    Advances p f true none ⟨c', x', p.mail⟩ f []
  | steps {call : Call} {r : Response} {p' : Party} {sent : List Segment}
    (hs : p.Steps call r p' sent) : Advances p f true (some (call, r)) p' f sent

/-- **What a move of a session makes of its endpoint** and the peer's. -/
structure Alters (e e' f f' : Endpoint) : Prop where
  patient : e'.idleTimeout = e.idleTimeout
  app : e'.appGone = e.appGone
  queue : e.queue = [] → e'.queue = []
  gone : e.stackGone = true → e'.stackGone = true
  shuts : e'.networkClosed = true → e.networkClosed = true ∨ f.stackGone = true ∧ e.queue = []
  peer : ∃ inbox, f' = { f with inbox }

variable {losable : Prop} {c₀ c : Connection} {x : Stage} {p p' : Party} {q : Point}
  {side : Side} {t t' : StackTask} {e e' f f' : Endpoint} {d : Option Deed} {call : Call}
  {r : Response} {sent : List Segment}

theorem Endpoint.Same.alters (h : e.Same f.stackGone e') : Alters e e' f f where
  patient := h.idle
  app := h.app
  queue := fun hq => h.queue.trans hq
  gone := fun hg => h.stack.trans hg
  shuts := h.shuts
  peer := ⟨f.inbox, rfl⟩

theorem alters_dropStack : Alters e e.dropStack f f where
  patient := rfl
  app := rfl
  queue := fun _ => rfl
  gone := fun _ => rfl
  shuts := .inl
  peer := ⟨f.inbox, rfl⟩

/-- **An answered call alters the endpoints.** -/
theorem Exchange.alters (h : Exchange losable e f call r e' f') : Alters e e' f f' := by
  have hrefl : Alters e e f f := (Endpoint.Same.refl e).alters
  cases h with
  | event heard | timeout heard | deaf heard => exact heard.alters
  | lost | unsendable | empty | untold => exact hrefl
  | sent => exact { hrefl with peer := ⟨_, rfl⟩ }
  | received taken kept =>
    refine ⟨?_, ?_, ?_, ?_, ?_, f.inbox, rfl⟩
    · exact (congrArg Endpoint.idleTimeout kept).symm
    · exact (congrArg Endpoint.appGone kept).symm
    · intro hq
      rw [hq] at taken
      cases taken
    · exact fun hg => (congrArg Endpoint.stackGone kept).symm.trans hg
    · exact fun hc => .inl ((congrArg Endpoint.networkClosed kept).trans hc)
  | read | told => exact { hrefl with }

/-- A wait for nothing but datagrams reports nothing else. -/
theorem available_networkOnly {event : Event} (h : e.available .networkOnly = some event) :
    event = .networkData := by
  simp only [Endpoint.available, Interest.networkOnly, Bool.true_and, Bool.false_and,
    Bool.false_eq_true, if_false] at h
  split at h
  · exact (Option.some.inj h).symm
  · cases h

/-- A datagram that waits is received as the segment that was sent. -/
theorem Station.receives (hst : Station c₀ t e p) (hm : p.mail ≠ [])
    (hr : Exchange losable e f (.networkRecv receiveCapacity) r e' f') :
    ∃ s rest, p.mail = s :: rest ∧ r = received s ∧ s.Regular := by
  have hqueue := hst.queue
  obtain ⟨s, rest, hmail⟩ := List.exists_cons_of_ne_nil hm
  rw [hmail, List.map_cons] at hqueue
  obtain ⟨d, hq, rfl⟩ | hq := hr.of_recv
  · obtain ⟨rfl, -⟩ := List.cons.inj (hqueue.symm.trans hq)
    exact ⟨s, rest, hmail, rfl, hst.regular s (hmail ▸ List.mem_cons_self)⟩
  · cases hqueue.symm.trans hq

/-- A wait for datagrams reports what is ready: it does not time out, and the end of the queue is
never seen. -/
theorem Steady.hears (hs : Steady t e p) (hst : Station c₀ t e p)
    (hdeaf : e.networkClosed = true → f.stackGone = true ∧ e.queue = [])
    (hcompany : f.stackGone = true → p.mail ≠ []) {mask : Interest} (hm : mask.network = true)
    (hr : Exchange losable e f (.wait mask) r e' f') :
    ∃ event, r = .event event ∧ e'.available mask = some event := by
  obtain ⟨hsame, hready | ⟨-, hidle⟩ | ⟨-, hclosed⟩⟩ := hr.of_wait
  · exact hready
  · exact absurd hs.patient hidle
  · obtain ⟨hg, hq⟩ := (hsame.shuts (hclosed hm)).elim hdeaf id
    rw [hst.queue, List.map_eq_nil_iff] at hq
    exact absurd hq (hcompany hg)

/-- **A steady session is welcome to all that it is answered**, if what waits for it suits it and
nobody that it needs has gone. -/
theorem Steady.welcomes (hs : Steady t e p) (hst : Station c₀ t e p) (hapt : p.Apt)
    (hp : p.stage.status p.connection = .suspended q)
    (hdeaf : e.networkClosed = true → f.stackGone = true ∧ e.queue = [])
    (hcompany : f.stackGone = true → p.mail ≠ [] ∧ ∀ m bytes, p.stage ≠ .sending m bytes)
    (hr : Exchange losable e f (q.call p.connection) r e' f') : p.stage.Welcomes r := by
  have hfits := hst.fits (hst.running (Stage.rests_of_suspended hp)).1
  have hhears := @Steady.hears losable c₀ p t e e' f f' r hs hst hdeaf fun hg => (hcompany hg).1
  have hreceives := @Station.receives losable c₀ p t e e' f f' r hst
  obtain ⟨c, x, mail⟩ := p
  cases x with
  | ready | failed | ended => cases hp
  | idle =>
    cases hp
    obtain ⟨event, rfl, ready⟩ := hhears rfl hr
    obtain ⟨rfl, -⟩ | ⟨rfl, -⟩ | ⟨rfl, -⟩ := Endpoint.of_available ready <;> nofun
  | awaiting w =>
    cases hp
    obtain ⟨event, rfl, ready⟩ := hhears rfl hr
    exact available_networkOnly ready
  | reading =>
    cases hp
    obtain ⟨s, rest, -, rfl, hreg⟩ := hreceives (hapt.announced rfl) hr
    exact ⟨s, hreg.parse_received⟩
  | receiving w =>
    obtain ⟨s, rest, hmail, hk⟩ := hapt.awaited w rfl
    cases hp
    obtain ⟨s', rest', hmail', rfl, hreg⟩ := hreceives (hmail ▸ List.cons_ne_nil _ _) hr
    obtain rfl : s = s' := (List.cons.inj (hmail.symm.trans hmail')).1
    exact ⟨s, hreg.parse_received, hk⟩
  | fetching =>
    -- there is something to fetch, and the budget is a full segment
    have hfree : c.Free .established := hfits.1.free rfl
    have hbudget : c.budget = mss.toNat := hfree.balanced.budget_eq hfree.flight
    have hmss : mss.toNat ≠ 0 := by decide
    cases hp
    obtain rfl := hr.of_read
    show (e.buffer.take c.budget).take mss.toNat ≠ []
    rw [hbudget, List.take_take, Nat.min_self, Ne, List.take_eq_nil_iff, not_or]
    exact ⟨hmss, hs.fetches rfl⟩
  | sending m bytes =>
    cases hp
    obtain rfl | hg := hr.of_send
    · show (c.reissue m.kind (m.payload bytes)).serialize.length ≠ 0
      -- a datagram has a header at least
      rw [Segment.length_serialize, Header.size]
      omega
    · exact absurd rfl ((hcompany hg).2 m bytes)
  | delivering | signalling | unblocking =>
    cases hp
    obtain rfl := hr.of_notice (by rintro ⟨⟩) hs.app
    trivial

/-- An application that has nothing to say is not reported. -/
theorem Exchange.silent (h : Exchange losable e f call r e' f') (hu : e.unread = [])
    (hp : e.pledged = none) : r ≠ .event .appData ∧ r ≠ .event .appCloseRequested := by
  cases h with
  | event heard ready =>
    obtain ⟨rfl, -⟩ | ⟨rfl, hb⟩ | ⟨rfl, hc⟩ := Endpoint.of_available ready
    · exact ⟨nofun, nofun⟩
    · have hunread : e'.buffer ++ e'.requests.flatMap Request.bytes = [] := heard.unread.trans hu
      exact absurd (List.append_eq_nil_iff.1 hunread).1 hb
    · cases hc.symm.trans (heard.pledged.trans hp)
  | _ => exact ⟨nofun, nofun⟩

variable {x' : Stage} {mail mail' : List Segment}

/-- Where an answered call can lead: to no stage before a run, and to fetching only when there is
something to fetch. -/
theorem next_of_goes (hg : Goes c x mail call r x' mail' sent)
    (hr : Exchange losable e f call r e' f') :
    x' ≠ .ready ∧ (x' = .fetching → e'.buffer ≠ []) := by
  cases hg with
  | fetches =>
    refine ⟨by simp, fun _ => ?_⟩
    cases hr with
    | event heard ready =>
      obtain ⟨h, -⟩ | ⟨-, hb⟩ | ⟨h, -⟩ := Endpoint.of_available ready
      · cases h
      · exact hb
      · cases h
  | posts =>
    rename_i m _ _ _ _
    cases m <;> constructor <;> rintro ⟨⟩
  | accepts =>
    rename_i w s _
    cases w with
    | peerFin =>
      simp only [Session.Wait.after, Session.Arrival.begin]
      split <;> constructor <;> rintro ⟨⟩
    | _ => constructor <;> rintro ⟨⟩
  | _ => constructor <;> rintro ⟨⟩

/-- A lossless network takes all that a session sends. -/
theorem sent_of_goes (hg : Goes c x mail call r x' mail' sent) (hne : ∀ e, x' ≠ .failed e)
    (hr : Exchange losable e f call r e' f') (hlossless : ¬ losable)
    (hq : f'.queue = f.queue ++ sent.map Segment.serialize) : sent = x.outgoing c := by
  cases hg with
  | fails => exact absurd rfl (hne _)
  | posts hs =>
    rcases hs with rfl | rfl
    · rfl
    · cases hr with
      -- a datagram that is taken and not queued was lost
      | lost h => exact absurd h hlossless
      | sent => simp [Endpoint.queue] at hq
  | _ => rfl

theorem tally_of_running (hx : x.rests = false) : tally x = (0, []) := by
  cases x <;> first | rfl | cases hx

theorem reach_tally (hx : x ≠ .ready) (hne : ∀ e, x ≠ .failed e) :
    Driver.reach (staged (c, x)) 0 [] = .session (staged (c, x)) (tally x).1 (tally x).2 := by
  cases x with
  | ready => exact absurd rfl hx
  | failed e => exact absurd rfl (hne e)
  | _ => rfl

/-- **What a move of a steady session comes to.** -/
structure Serving (c₀ : Connection) (side : Side) (t t' : StackTask) (e e' f f' : Endpoint)
    (d : Option Deed) (p p' : Party) (o : Option (Call × Response)) (sent : List Segment)
    (moved : Bool) : Prop where
  effect : Effect c₀ side t' e e' f f' d p p' o sent
  steady : Steady t' e' p'
  alters : Alters e e' f f'
  advances : Advances p t.finished moved o p' t'.finished sent
  silent : e.unread = [] → e.pledged = none → ∀ d, o = some d →
    d.2 ≠ .event .appData ∧ d.2 ≠ .event .appCloseRequested

/-- **A steady session whose call is answered.** -/
theorem Steady.answers (side : Side) (h₀ : c₀.Free .listen) (hs : Steady t e p)
    (hst : Station c₀ t e p)
    (hok : .ok () ∈ (tally p.stage).2 → p.connection.done = true)
    (hp : p.stage.status p.connection = .suspended q) (hlossless : ¬ losable)
    (hr : Exchange losable e f (q.call p.connection) r e' f') (hwelcome : p.stage.Welcomes r) :
    ∃ p' sent, Serving c₀ side t
      { t with
        driver := .reach (staged (carry p.connection (p.stage.turn r))) (tally p.stage).1
          (tally p.stage).2
        timer := none }
      e e' f f' (some (.stack side (q.call p.connection) r)) p p' (some (q.call p.connection, r))
      sent true := by
  obtain ⟨p', sent, he⟩ := hst.answers side (tally p.stage).1 h₀ hok hp hr
  have hrests : p.stage.rests = false := Stage.rests_of_suspended hp
  have hacts := he.acts
  cases hacts with
  | @answers _ _ c' x' mail' _ hg hfits hfits' hclean hreg hcarry hkept =>
    -- the response is welcome, so the turn does not fail
    have hsound : ∀ e, x' ≠ .failed e := by
      intro err
      have hne := Session.ne_failed_of_welcomes hfits hp hs.calm hwelcome err
      rwa [hcarry] at hne
    obtain ⟨hready, hfetch⟩ := next_of_goes hg hr
    have halters := hr.alters
    refine ⟨⟨c', x', mail'⟩, sent, he, ?_, halters, .steps ⟨hg, hreg, ?_, ?_, hsound⟩, ?_⟩
    · refine ⟨?_, ?_, ?_, halters.patient.trans hs.patient, halters.app.trans hs.app, hfetch⟩
      · rw [tally_of_running hrests, hcarry]
        exact reach_tally hready hsound
      · intro hf
        have hended := hs.finished hf
        rw [hended] at hrests
        cases hrests
      · have hcalm := Session.calm_carry hs.calm (p.stage.turn r)
        rwa [hcarry] at hcalm
    · exact Session.figures_carry hcarry hsound
    · exact sent_of_goes hg hsound hr hlossless he.queue
    · intro hu hpl d hd
      cases hd
      exact hr.silent hu hpl

theorem Steady.waits (hs : Steady t e p) (hst : Station c₀ t e p) (same : e.Same f.stackGone e')
    (timer : Option Nat) :
    Serving c₀ side t { t with timer } e e' f f none p p none [] false where
  effect := hst.waits same timer
  steady := {
    hs with
    patient := same.idle.trans hs.patient
    app := same.app.trans hs.app
    fetches := fun hx hb => hs.fetches hx (List.prefix_nil.1 (hb ▸ same.buffer)) }
  alters := same.alters
  advances := .stays
  silent := nofun

/-- **The task of a steady session ends.** -/
theorem Steady.ends (hs : Steady t e p) (hst : Station c₀ t e p) (hf : t.finished = false)
    (hx : p.stage = .ended) :
    Serving c₀ side t
      { t with
        driver := if t.dropWhenDone then t.driver.drop else t.driver
        timer := none, finished := true }
      e (if t.dropWhenDone then e.dropStack else e) f f none p (retired p t.dropWhenDone) none []
      true := by
  have hrests : p.stage.rests = true := by rw [hx]; rfl
  refine ⟨hst.ends hrests, ?_, ?_, .retires hf hx t.dropWhenDone, nofun⟩
  · -- the session has ended, and is let go or kept
    have hdriver := hs.driver
    rw [hx] at hdriver
    unfold retired
    by_cases hdrop : t.dropWhenDone = true
    · simp only [hdrop, if_true]
      refine ⟨?_, fun _ => hx, ?_, hs.patient, hs.app, ?_⟩
      · rw [hdriver, hx]
        rfl
      · show p.connection.log.close.Calm
        cases p.connection.log <;> trivial
      · rw [hx]
        nofun
    · rw [Bool.not_eq_true] at hdrop
      simp only [hdrop, Bool.false_eq_true, if_false]
      exact ⟨hs.driver, fun _ => hx, hs.calm, hs.patient, hs.app, hs.fetches⟩
  · by_cases hdrop : t.dropWhenDone = true
    · rw [if_pos hdrop]
      exact alters_dropStack
    · rw [if_neg hdrop]
      exact (Endpoint.Same.refl e).alters

/-- **A steady session begins its run.** -/
theorem Steady.begins (h₀ : c₀.Free .listen) (hs : Steady t e p) (hst : Station c₀ t e p)
    (hok : .ok () ∈ (tally p.stage).2 → p.connection.done = true) (hf : t.finished = false)
    (hx : p.stage = .ready) {y : Connection × Stage} (hy : Begins c₀ p.connection y) :
    Serving c₀ side t
      { t with
        driver := .reach (staged y) ((tally p.stage).1 - 1) (tally p.stage).2
        timer := none }
      e e f f none p ⟨y.1, y.2, p.mail⟩ none [] true := by
  have hrests : p.stage.rests = true := by rw [hx]; rfl
  -- the only run begins with the connection of the beginning
  have hfirst : p.connection = c₀ := by
    have hfits := hst.fits hf
    rw [hx] at hfits
    exact hfits
  have heffect := hst.begins_effect side f ((tally p.stage).1 - 1) h₀ hok hf hrests hy
  cases hy with
  | again hne => exact absurd (hfirst ▸ h₀.state) hne
  | opens =>
    have hcalm := Session.calm_carry (hfirst ▸ hs.calm) (Session.opening c₀.role)
    have hstage := Session.carry_opening h₀
    rcases hc : carry c₀ (Session.opening c₀.role) with ⟨c', x'⟩
    rw [hc] at hcalm hstage heffect
    have hkeep : x' ≠ .ready ∧ x' ≠ .fetching ∧ ∀ err, x' ≠ .failed err := by
      obtain ⟨-, rfl⟩ | ⟨-, rfl⟩ := hstage <;> exact ⟨nofun, nofun, nofun⟩
    obtain ⟨hready, hfetch, hne⟩ := hkeep
    refine ⟨heffect, ?_, (Endpoint.Same.refl e).alters, ?_, nofun⟩
    · refine ⟨?_, fun h => absurd (hf.symm.trans h) nofun, hcalm, hs.patient, hs.app,
        fun h => absurd h hfetch⟩
      rw [hx]
      exact reach_tally hready hne
    · exact .begins hx (hfirst ▸ h₀) (hfirst ▸ hc)

/-- **A move keeps a session steady**, as long as what waits for it suits it and nobody that it needs
has gone. -/
theorem Steady.serves {moved : Bool} (h₀ : c₀.Free .listen) (hs : Steady t e p)
    (hst : Station c₀ t e p) (hapt : p.Apt) (hlossless : ¬ losable)
    (hdeaf : e.networkClosed = true → f.stackGone = true ∧ e.queue = [])
    (hcompany : f.stackGone = true → p.stage ≠ .ended →
      p.mail ≠ [] ∧ ∀ m bytes, p.stage ≠ .sending m bytes)
    (h : Serves losable c₀ p.connection p.stage side t (tally p.stage).1 (tally p.stage).2 e f d
      t' e' f' moved) :
    ∃ p' o sent, Serving c₀ side t t' e e' f f' d p p' o sent moved := by
  have hok : .ok () ∈ (tally p.stage).2 → p.connection.done = true := by
    obtain ⟨left, results, hd, hok⟩ := hst.driver
    rw [hs.driver] at hd
    injection hd with _ _ hresults
    exact hresults ▸ hok
  cases h with
  | sits => exact ⟨p, none, [], hs.waits hst (.refl e) t.timer⟩
  | waits hp same => exact ⟨p, none, [], hs.waits hst same _⟩
  | ends hf hx hleft =>
    refine ⟨_, none, [], hs.ends hst hf ?_⟩
    cases hp : p.stage with
    | ended => rfl
    | failed err => exact absurd hp (hapt.running err)
    | ready =>
      rw [hp] at hleft
      cases hleft
    | _ =>
      rw [hp] at hx
      cases hx
  | begins hf hx hleft hy =>
    refine ⟨_, none, [], hs.begins h₀ hst hok hf ?_ hy⟩
    cases hp : p.stage with
    | ready => rfl
    | failed err => exact absurd hp (hapt.running err)
    | ended =>
      rw [hp] at hleft
      exact absurd rfl hleft
    | _ =>
      rw [hp] at hx
      cases hx
  | answers hp hr =>
    have hne : p.stage ≠ .ended := by
      intro hx
      rw [hx] at hp
      cases hp
    have hwelcome := hs.welcomes hst hapt hp hdeaf (fun hg => hcompany hg hne) hr
    obtain ⟨p', sent, hserving⟩ := hs.answers side h₀ hst hok hp hlossless hr hwelcome
    exact ⟨p', _, sent, hserving⟩

end StopWait.Link
