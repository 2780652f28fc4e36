import StopWait.Link.Schedule
import StopWait.Proofs.Exchange
import StopWait.Proofs.Turns

/-!
# Moves of a world

Two sessions and their applications on a link, with nothing said about whose turn it is: any task
may try its next move at any time, time may be set to anything, and the network may be exchanged
for another one. What comes of it is kept in a chronicle.

* `World.move`, `Chronicle.after`: a move, and what any moves lead to.
* `written`, `closing`, `handed`, `delivered`: what a chronicle says about an end.
* `heeds_actApp`, `serves_actStack`: **what a move of an application or of a session comes to.**
-/

namespace StopWait.Link

open Session (Stage Response Begins response staged carry)

/-- One end of a link at first: a session without a transfer log or with one, the number of runs
that it is given, and its application. -/
structure Setup where
  settings : Settings := {}
  sink : Option Log.Sink := none
  runs : Nat := 1
  dropWhenDone : Bool := false
  idleTimeout : Option Nat := none
  script : List AppStep := []

namespace Setup

/-- The connection of an end at first. -/
def connection (u : Setup) (role : Role) : Connection := .opened u.settings role u.sink

/-- The stack's task at first. -/
def host (u : Setup) (role : Role) : StackTask where
  driver := .session { connection := u.connection role } u.runs []
  dropWhenDone := u.dropWhenDone

end Setup

/-- The role of an end, where `opener` is the active one. -/
def roleOf (opener side : Side) : Role := if side = opener then .active else .passive

/-- Two ends on a network, one of them active and the other one passive. -/
def World.joined (network : Network) (opener : Side) (ends : Both Setup) : World where
  link := .new network ends.near.idleTimeout ends.far.idleTimeout
  apps := ⟨{ script := ends.near.script }, { script := ends.far.script }⟩
  hosts := ⟨ends.near.host (roleOf opener .near), ends.far.host (roleOf opener .far)⟩

/-- A move. -/
inductive Move where
  /-- A task tries its next step. -/
  | turn (task : Task)
  /-- The time is set. -/
  | clock (now : Nat)
  /-- The network is exchanged: what becomes of the datagrams from now on is up to another one. -/
  | network (network : Network)
deriving DecidableEq, Repr

/-- What is done in a move. -/
inductive Deed where
  /-- A call of an application is answered. -/
  | app (side : Side) (call : AppCall) (reply : AppReply)
  /-- The handle is dropped. -/
  | drop (side : Side)
  /-- A call of a session is answered. -/
  | stack (side : Side) (call : Call) (r : Response)
deriving DecidableEq, Repr

/-- The deed of an application's call that came to a result. -/
def callDeed (side : Side) (c : AppCall) : Except AppCall AppReply → Option Deed
  | .ok reply => some (.app side c reply)
  | .error _ => none

/-- The deed of a session's call that was tried. -/
def triedDeed (side : Side) (c : Call) : Progress c.Answer → Option Deed
  | .ready a => some (.stack side c (response c a))
  | .blocked _ => none

namespace World

/-- Makes a move. -/
def move (w : World) : Move → World
  | .turn task => (w.act task).1
  | .clock now => w.atTime now
  | .network network => { w with link := { w.link with network } }

/-- What an application does if it moves. -/
def appDeed? (w : World) (side : Side) : Option Deed :=
  match (w.apps.get side).script with
  | .call c :: _ =>
    if (w.link.ends.get side).appGone then none
    else callDeed side c (w.link.attemptApp side c).2
  | .drop :: _ => some (.drop side)
  | _ => none

/-- What a session does if it moves. -/
def stackDeed? (w : World) (side : Side) : Option Deed :=
  match (w.hosts.get side).driver with
  | .session s _ _ =>
    match s.point? with
    | some p =>
      triedDeed side (p.call s.connection)
        (w.link.attempt side (w.hosts.get side).timer (p.call s.connection)).2
    | none => none
  | .raw .. => none

/-- What is done in a move. -/
def deed? (w : World) : Move → Option Deed
  | .turn (.app side) => w.appDeed? side
  | .turn (.stack side) => w.stackDeed? side
  | _ => none

/-- The connection at an end. -/
def connection? (w : World) (side : Side) : Option Connection :=
  (w.hosts.get side).driver.session?.map Session.connection

/-- The states of the connections. -/
def states (w : World) : List (Side × State) :=
  [Side.near, Side.far].filterMap fun side => (w.connection? side).map fun c => (side, c.state)

/-- The results of the runs at an end, the latest first. -/
def results (w : World) (side : Side) : List (Except Session.Error Unit) :=
  match (w.hosts.get side).driver with
  | .session _ _ results => results
  | .raw .. => []

end World

/-- A world with what was done and which states its connections went through. -/
structure Chronicle where
  world : World
  deeds : List Deed := []
  states : List (Side × State) := []

/-- The chronicle that begins with a world. -/
def World.chronicle (w : World) : Chronicle := { world := w, states := w.states }

namespace Chronicle

/-- Makes a move. -/
def move (h : Chronicle) (m : Move) : Chronicle where
  world := h.world.move m
  deeds := h.deeds ++ (h.world.deed? m).toList
  states := h.states ++ (h.world.move m).states

/-- Makes one move after the other. -/
def after (h : Chronicle) (moves : List Move) : Chronicle := moves.foldl move h

end Chronicle

namespace Deed

/-- The bytes that the application at an end has written. -/
def written (side : Side) : Deed → List UInt8
  | .app s (.write bytes) .done => if s = side then bytes else []
  | _ => []

/-- Whether the application at an end has closed, or let go of its handle. -/
def closes (side : Side) : Deed → Bool
  | .app s .close .done => s = side
  | .drop s => s = side
  | _ => false

/-- The bytes that the session at an end has read from its application. -/
def read (side : Side) : Deed → List UInt8
  | .stack s call r => if s = side then readBytes call r else []
  | _ => []

/-- The bytes that the session at an end has handed to its application. -/
def handed (side : Side) : Deed → List UInt8
  | .stack s call _ => if s = side then handedBytes call else []
  | _ => []

/-- The bytes that the application at an end has taken. -/
def delivered (side : Side) : Deed → List UInt8
  | .stack s call r => if s = side then deliveredBytes call r else []
  | _ => []

end Deed

/-- The bytes that the application at an end wrote before it first closed, if it has. -/
def writtenUptoClose (side : Side) : List Deed → Option (List UInt8)
  | [] => none
  | d :: ds =>
    if d.closes side then some [] else (writtenUptoClose side ds).map (d.written side ++ ·)

namespace Chronicle

variable (h : Chronicle) (side : Side)

/-- All that the application at an end has written. -/
def written : List UInt8 := h.deeds.flatMap (Deed.written side)

/-- All that the session at an end has read from its application. -/
def read : List UInt8 := h.deeds.flatMap (Deed.read side)

/-- All that the session at an end has handed to its application, with the payload of a call that
failed. -/
def handed : List UInt8 := h.deeds.flatMap (Deed.handed side)

/-- All that the application at an end has taken. -/
def delivered : List UInt8 := h.deeds.flatMap (Deed.delivered side)

/-- All that the application at an end wrote before it closed, if it has. -/
def closing : Option (List UInt8) := writtenUptoClose side h.deeds

/-- Whether the connection at an end has been in a state. -/
def visits (st : State) : Prop := (side, st) ∈ h.states

end Chronicle

/-- What an application calls for a request. -/
def Request.call : Request → AppCall
  | .write bytes => .write bytes
  | .close => .close

/-- Whether a call of an application asks for nothing to be sent. -/
def AppCall.listens : AppCall → Bool
  | .write _ | .close => false
  | .connected | .nextEvent | .readToEnd _ => true

/-- **What a move of an application comes to**, at its endpoint. -/
inductive Heeds (side : Side) (e : Endpoint) : Option Deed → Endpoint → Prop where
  | asks {r : Request} (there : e.stackGone = false) (app : e.appGone = false) :
    Heeds side e (some (.app side r.call .done)) { e with requests := e.requests ++ [r] }
  | refused {r : Request} (gone : e.stackGone = true) :
    Heeds side e (some (.app side r.call (.failed .disconnected))) e
  | hears {d : Option Deed} {events : List Notice}
    (h : d = none ∨ ∃ c reply, d = some (.app side c reply) ∧ c.listens = true) :
    Heeds side e d { e with events }
  | drops : Heeds side e (some (.drop side)) e.dropApp

variable {w : World} {side : Side} {e : Endpoint}

/-- A request is queued, refused, or waits for room. -/
theorem request_cases (e : Endpoint) (r : Request) :
    (e.stackGone = true ∧ AppCall.request e r = (e, some (.failed .disconnected))) ∨
    (e.stackGone = false ∧ e.requests.length < requestCapacity ∧
      AppCall.request e r = ({ e with requests := e.requests ++ [r] }, some .done)) ∨
    (e.stackGone = false ∧ requestCapacity ≤ e.requests.length ∧
      AppCall.request e r = (e, none)) := by
  unfold AppCall.request
  by_cases hgone : e.stackGone = true
  · exact .inl ⟨hgone, if_pos hgone⟩
  · rw [if_neg hgone]
    by_cases hroom : e.requests.length < requestCapacity
    · exact .inr (.inl ⟨by simpa using hgone, hroom, if_pos hroom⟩)
    · exact .inr (.inr ⟨by simpa using hgone, Nat.le_of_not_lt hroom, if_neg hroom⟩)

theorem heeds_request (r : Request) (happ : e.appGone = false) :
    Heeds side e (callDeed side r.call (r.call.attempt e).2) (r.call.attempt e).1 := by
  have hdone : ∀ {e' : Endpoint} {reply : AppReply}, AppCall.request e r = (e', some reply) →
      r.call.attempt e = (e', .ok reply) := by
    intro e' reply hr
    cases r <;> simp only [Request.call, AppCall.attempt, hr]
  have hleft : ∀ {e' : Endpoint}, AppCall.request e r = (e', none) →
      r.call.attempt e = (e', .error r.call) := by
    intro e' hr
    cases r <;> simp only [Request.call, AppCall.attempt, hr]
  obtain ⟨hgone, hr⟩ | ⟨hthere, -, hr⟩ | ⟨-, -, hr⟩ := request_cases e r
  · rw [hdone hr]
    exact .refused hgone
  · rw [hdone hr]
    exact .asks hthere happ
  · rw [hleft hr]
    exact .hears (.inl rfl)

/-- A call that asks for nothing takes events at most. -/
theorem heeds_listening {c : AppCall} (hc : c.listens = true) :
    Heeds side e (callDeed side c (c.attempt e).2) (c.attempt e).1 := by
  -- the deed is about a call that listens, answered or not
  have hdeed : callDeed side c (c.attempt e).2 = none ∨
      ∃ c' reply, callDeed side c (c.attempt e).2 = some (.app side c' reply) ∧
        c'.listens = true := by
    cases (c.attempt e).2 with
    | ok reply => exact .inr ⟨c, reply, rfl, hc⟩
    | error c' => exact .inl rfl
  have hevents : ∃ events, (c.attempt e).1 = { e with events } := by
    cases c with
    | write | close => cases hc
    | connected | nextEvent =>
      obtain ⟨_, _, _, _, _, _, events, _, gone, _⟩ := e
      cases events with
      | nil => cases gone <;> exact ⟨_, rfl⟩
      | cons event rest => cases event <;> exact ⟨_, rfl⟩
    | readToEnd gathered =>
      refine ⟨(e.events.dropWhile (· ≠ .peerFin)).drop 1, ?_⟩
      simp only [AppCall.attempt]
      split <;> rfl
  obtain ⟨events, he⟩ := hevents
  rw [he]
  exact .hears hdeed

theorem heeds_attempt (c : AppCall) (happ : e.appGone = false) :
    Heeds side e (callDeed side c (c.attempt e).2) (c.attempt e).1 := by
  cases c with
  | write bytes => exact heeds_request (.write bytes) happ
  | close => exact heeds_request .close happ
  | _ => exact heeds_listening rfl

/-- **A move of an application** is heeded at its end, and nowhere else. -/
theorem heeds_actApp (w : World) (side : Side) :
    Heeds side (w.link.ends.get side) (w.appDeed? side) ((w.actApp side).1.link.ends.get side) ∧
      (w.actApp side).1.link.ends.get side.other = w.link.ends.get side.other ∧
      (w.actApp side).1.hosts = w.hosts := by
  have hnone : Heeds side (w.link.ends.get side) none (w.link.ends.get side) := .hears (.inl rfl)
  cases hs : (w.apps.get side).script with
  | nil =>
    simp only [World.actApp, World.appDeed?, hs]
    exact ⟨hnone, trivial, trivial⟩
  | cons step rest =>
    cases step with
    | sleep ms =>
      simp only [World.actApp, World.appDeed?, hs]
      split <;> exact ⟨hnone, rfl, rfl⟩
    | drop =>
      simp only [World.actApp, World.appDeed?, hs, Link.dropApp, World.replyApp, World.setApp,
        setEnd, Both.get_set_self, Both.get_set_other]
      exact ⟨.drops, trivial, trivial⟩
    | call c =>
      by_cases happ : (w.link.ends.get side).appGone = true
      · -- without a handle every call is refused at once
        simp only [World.actApp, World.appDeed?, hs, happ, if_true]
        exact ⟨hnone, rfl, rfl⟩
      · rw [Bool.not_eq_true] at happ
        have hheeds := @heeds_attempt side _ c happ
        simp only [World.actApp, World.appDeed?, hs, happ, Bool.false_eq_true, if_false,
          attemptApp]
        cases hr : (c.attempt (w.link.ends.get side)).2 <;> rw [hr] at hheeds <;>
          simp only [World.replyApp, World.setApp, setEnd, Both.get_set_self,
            Both.get_set_other] <;>
          exact ⟨hheeds, trivial, trivial⟩

/-- **What a move of a session comes to**, for its task, its endpoint and the peer's, and whether
the move was made. -/
inductive Serves (losable : Prop) (c₀ c : Connection) (x : Stage) (side : Side) (t : StackTask)
    (left : Nat) (results : List (Except Session.Error Unit)) (e f : Endpoint) :
    Option Deed → StackTask → Endpoint → Endpoint → Bool → Prop where
  | sits (finished : t.finished = true) :
    Serves losable c₀ c x side t left results e f none t e f false
  | waits {p : Point} {timer : Option Nat} {e' : Endpoint} (hp : x.status c = .suspended p)
    (same : e.Same f.stackGone e') :
    Serves losable c₀ c x side t left results e f none { t with timer } e' f false
  | ends (hf : t.finished = false) (hx : x.rests = true) (hleft : left = 0) :
    Serves losable c₀ c x side t left results e f none
      { t with
        driver := if t.dropWhenDone then t.driver.drop else t.driver
        timer := none, finished := true }
      (if t.dropWhenDone then e.dropStack else e) f true
  | begins {y : Connection × Stage} (hf : t.finished = false) (hx : x.rests = true)
    (hleft : left ≠ 0) (hy : Begins c₀ c y) :
    Serves losable c₀ c x side t left results e f none
      { t with driver := .reach (staged y) (left - 1) results, timer := none } e f true
  | answers {p : Point} {r : Response} {e' f' : Endpoint} (hp : x.status c = .suspended p)
    (hr : Exchange losable e f (p.call c) r e' f') :
    Serves losable c₀ c x side t left results e f (some (.stack side (p.call c) r))
      { t with driver := .reach (staged (carry c (x.turn r))) left results, timer := none } e' f'
      true

variable {c₀ c : Connection} {x : Stage} {left : Nat} {results : List (Except Session.Error Unit)}

/-- A session that waits on its stack is answered, or waits. -/
theorem serves_actSession {p : Point} (hp : x.status c = .suspended p)
    (hfits : x.Fits c₀ c) (w : World) (side : Side) :
    Serves (w.link.network.dispatch.1 = .lost) c₀ c x side (w.hosts.get side) left results
        (w.link.ends.get side) (w.link.ends.get side.other)
        (triedDeed side (p.call c)
          (w.link.attempt side (w.hosts.get side).timer (p.call c)).2)
        ((w.actSession side (w.hosts.get side).timer (staged (c, x)) left results).1.hosts.get side)
        ((w.actSession side (w.hosts.get side).timer (staged (c, x)) left
          results).1.link.ends.get side)
        ((w.actSession side (w.hosts.get side).timer (staged (c, x)) left
          results).1.link.ends.get side.other)
        (w.actSession side (w.hosts.get side).timer (staged (c, x)) left results).2 ∧
      (w.actSession side (w.hosts.get side).timer (staged (c, x)) left results).1.hosts.get
        side.other = w.hosts.get side.other := by
  have hst : staged (c, x) = ⟨c, .suspended p⟩ := by rw [staged, hp]
  have htried := @tried_attempt w.link side (w.hosts.get side).timer (p.call c)
  rw [hst]
  simp only [World.actSession, Session.point?]
  rcases hr : w.link.attempt side (w.hosts.get side).timer (p.call c) with ⟨m, progress⟩
  rw [hr] at htried
  cases progress with
  | ready a =>
    -- the session goes on with its answer
    have hstop := (Session.resumeAt_leads hfits hp a).stop
    simp only [World.advance, World.setStack, Link.report, Both.get_set_self, Both.get_set_other,
      hstop]
    exact ⟨.answers hp htried, trivial⟩
  | blocked timer =>
    simp only [World.hold, World.setStack, Both.get_set_self, Both.get_set_other]
    -- the session holds its call
    obtain ⟨hsame, hother⟩ := htried
    rw [hother]
    exact ⟨.waits hp hsame, trivial⟩

theorem point?_of_rests (h : x.rests = true) : (staged (c, x)).point? = none := by
  cases x <;> first | rfl | cases h

/-- A session that is not done acts. -/
theorem actStack_session (w : World) (side : Side)
    (hd : (w.hosts.get side).driver = .session (staged (c, x)) left results)
    (hf : (w.hosts.get side).finished = false) (hx : x.rests = false ∨ left ≠ 0) :
    w.actStack side =
      w.actSession side (w.hosts.get side).timer (staged (c, x)) left results := by
  have hdone : (Driver.session (staged (c, x)) left results).isDone = false := by
    rcases hx with hx | hleft
    · obtain ⟨p, hp⟩ := Stage.status_of_rests hx c
      simp [Driver.isDone, Session.point?, staged, hp]
    · simp [Driver.isDone, hleft]
  simp only [World.actStack, hf, hd, hdone, Bool.false_eq_true, if_false]

/-- **A move of a session** is served at its end and the peer's endpoint. -/
theorem serves_actStack (h₀ : c₀.Free .listen) (w : World) (side : Side)
    (hd : (w.hosts.get side).driver = .session (staged (c, x)) left results)
    (hfits : (w.hosts.get side).finished = false → x.Fits c₀ c)
    (hrests : (w.hosts.get side).finished = true → x.rests = true) :
    Serves (w.link.network.dispatch.1 = .lost) c₀ c x side (w.hosts.get side) left results
        (w.link.ends.get side) (w.link.ends.get side.other) (w.stackDeed? side)
        ((w.actStack side).1.hosts.get side) ((w.actStack side).1.link.ends.get side)
        ((w.actStack side).1.link.ends.get side.other) (w.actStack side).2 ∧
      (w.actStack side).1.hosts.get side.other = w.hosts.get side.other := by
  have hdeed : x.rests = true → w.stackDeed? side = none := by
    intro hx
    simp only [World.stackDeed?, hd, point?_of_rests hx]
  by_cases hfin : (w.hosts.get side).finished = true
  · rw [hdeed (hrests hfin), World.actStack, if_pos hfin]
    exact ⟨.sits hfin, rfl⟩
  rw [Bool.not_eq_true] at hfin
  by_cases hx : x.rests = true
  · rw [hdeed hx]
    have hpoint := point?_of_rests (c := c) hx
    by_cases hleft : left = 0
    · -- no run is left
      have hdone : (w.hosts.get side).driver.isDone = true := by
        simp [hd, Driver.isDone, hleft, hpoint]
      have hact : w.actStack side = (w.conclude side, true) := by
        rw [World.actStack, hfin]
        simp only [Bool.false_eq_true, if_false, hdone, if_true]
      rw [hact]
      have hends := @Serves.ends (w.link.network.dispatch.1 = .lost) c₀ c x side
        (w.hosts.get side) left results (w.link.ends.get side) (w.link.ends.get side.other) hfin hx
        hleft
      unfold World.conclude
      by_cases hdrop : (w.hosts.get side).dropWhenDone = true
      · simp only [hdrop, if_true, World.setStack, Link.dropStack, setEnd, Both.get_set_self,
          Both.get_set_other] at hends ⊢
        exact ⟨hends, trivial⟩
      · rw [Bool.not_eq_true] at hdrop
        simp only [hdrop, Bool.false_eq_true, if_false, World.setStack, Both.get_set_self,
          Both.get_set_other] at hends ⊢
        exact ⟨hends, trivial⟩
    · -- a run begins
      obtain ⟨y, hy, hstart⟩ := Session.begins_start h₀ (hfits hfin)
      rw [actStack_session w side hd hfin (.inr hleft)]
      simp only [World.actSession, hpoint, World.advance, World.setStack, Link.report,
        Both.get_set_self, Both.get_set_other, hstart]
      exact ⟨.begins hfin hx hleft hy, trivial⟩
  · rw [Bool.not_eq_true] at hx
    obtain ⟨p, hp⟩ := Stage.status_of_rests hx c
    have hdeed : w.stackDeed? side = triedDeed side (p.call c)
        (w.link.attempt side (w.hosts.get side).timer (p.call c)).2 := by
      rw [World.stackDeed?, hd, show staged (c, x) = ⟨c, .suspended p⟩ by rw [staged, hp]]
      rfl
    rw [actStack_session w side hd hfin (.inl hx), hdeed]
    exact serves_actSession hp (hfits hfin) w side

end StopWait.Link
