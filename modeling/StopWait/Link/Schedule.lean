import StopWait.Link.Basic
import StopWait.Session

/-!
# Schedules

Two stacks and their applications at work on a link. The stack at an end is driven by a session or
by a raw peer that follows a script; its application follows a script too.

Four tasks take turns: the near application, the far application, the near stack, the far stack. In
its turn a task goes on until it has to wait. When a whole round passes in which no task could go
on, time jumps to the next timer. The schedule ends when both stacks have finished and the
applications have had a last turn, or when its time is up.

* `World.act` lets a task make one move.
* `Schedule.tick` makes one move of the schedule.
* `World.play` runs a world to its end.
-/

namespace StopWait.Link

/-- A step of an application's script. -/
inductive AppStep where
  /-- Make a call. -/
  | call (c : AppCall)
  /-- Let some milliseconds pass. -/
  | sleep (ms : Nat)
  /-- Drop the handle. -/
  | drop
deriving DecidableEq, Repr

/-- An application at work. -/
structure AppTask where
  /-- The steps that are left. -/
  script : List AppStep := []
  /-- When the current sleep ends. -/
  timer : Option Nat := none
  /-- The answers so far, the latest first. -/
  answered : List AppReply := []
deriving DecidableEq, Repr

/-- The answers of an application so far, in order. -/
def AppTask.answers (a : AppTask) : List AppReply := a.answered.reverse

/-- A step of a raw peer's script. -/
inductive RawStep where
  /-- Hand a datagram to the network. -/
  | send (datagram : List UInt8)
  /-- Receive a datagram. -/
  | recv
  /-- Let some milliseconds pass. -/
  | sleep (ms : Nat)
deriving DecidableEq, Repr

/-- The answer to a step of a raw peer. -/
inductive RawReply where
  /-- The datagram was sent, and had this many bytes. -/
  | count (n : Nat)
  /-- A segment was received. -/
  | segment (s : Segment)
  /-- What was received is no segment. -/
  | malformed (e : Header.ParseError)
  /-- The stack failed. -/
  | failed (e : Call.Failure)
  /-- The time has passed. -/
  | done
deriving DecidableEq, Repr

/-- What drives a stack. -/
inductive Driver where
  /-- A session, the runs it has left, and the results so far, the latest first. -/
  | session (s : Session) (left : Nat) (results : List (Except Session.Error Unit))
  /-- A raw peer: the steps it has left, and the answers so far, the latest first. -/
  | raw (script : List RawStep) (answered : List RawReply)
deriving Repr

/-- A stack at work. -/
structure StackTask where
  /-- What drives it. -/
  driver : Driver
  /-- When the current call or sleep ends by time alone. -/
  timer : Option Nat := none
  /-- Whether the stack is dropped when the driver has finished. -/
  dropWhenDone : Bool := false
  /-- Whether the task has finished. -/
  finished : Bool := false
deriving Repr

namespace Driver

/-- The session, if there is one. -/
def session? : Driver → Option Session
  | .session s _ _ => some s
  | .raw _ _ => none

/-- Whether there is nothing left to do. -/
def isDone : Driver → Bool
  | .session s left _ => left == 0 && s.point?.isNone
  | .raw script _ => script.isEmpty

/-- Lets the session go. -/
def drop : Driver → Driver
  | .session s left results => .session s.drop left results
  | d => d

/-- A driver in which the session has reached a stop. -/
def reach (s : Session) (left : Nat) (results : List (Except Session.Error Unit)) : Driver :=
  match s.result? with
  | some r => .session s left (r :: results)
  | none => .session s left results

end Driver

/-- Two stacks and their applications on a link. -/
structure World where
  /-- The link. -/
  link : Link
  /-- The applications. -/
  apps : Both AppTask
  /-- The stacks. -/
  hosts : Both StackTask
deriving Repr

/-- The tasks, in the order of their turns. -/
inductive Task where
  | app (side : Side)
  | stack (side : Side)
deriving DecidableEq, Repr

/-- The task whose turn is next in the round. -/
def Task.next : Task → Option Task
  | .app .near => some (.app .far)
  | .app .far => some (.stack .near)
  | .stack .near => some (.stack .far)
  | .stack .far => none

namespace World

/-- Replaces an application. -/
def setApp (w : World) (side : Side) (a : AppTask) : World :=
  { w with apps := w.apps.set side a }

/-- Replaces a stack. -/
def setStack (w : World) (side : Side) (a : StackTask) : World :=
  { w with hosts := w.hosts.set side a }

/-- Ends the first step of an application's script. -/
def replyApp (w : World) (side : Side) (rest : List AppStep) (reply : AppReply) : World :=
  w.setApp side ⟨rest, none, reply :: (w.apps.get side).answered⟩

/-- One move of an application, if it can make one. A world in which it has to wait differs from
the one before only in what the application waits for. -/
def actApp (w : World) (side : Side) : World × Bool :=
  let a := w.apps.get side
  match a.script with
  | [] => (w, false)
  | .sleep ms :: rest =>
    let wake := a.timer.getD (w.link.now + ms)
    if wake ≤ w.link.now then (w.replyApp side rest .done, true)
    else (w.setApp side { a with timer := some wake }, false)
  | .drop :: rest =>
    ({ w with link := w.link.dropApp side }.replyApp side rest .done, true)
  | .call c :: rest =>
    if (w.link.ends.get side).appGone then (w.replyApp side rest .gone, true)
    else
      match w.link.attemptApp side c with
      | (link, .ok reply) => ({ w with link }.replyApp side rest reply, true)
      | (link, .error c) =>
        ({ w with link }.setApp side { a with script := .call c :: rest }, false)

/-- Lets a driver that has made a move go on later. -/
def advance (w : World) (side : Side) (link : Link) (driver : Driver) : World :=
  { w with link }.setStack side { w.hosts.get side with driver, timer := none }

/-- Lets a stack's driver wait. -/
def hold (w : World) (side : Side) (link : Link) (timer : Option Nat) : World :=
  { w with link }.setStack side { w.hosts.get side with timer }

/-- Finishes a stack's task. -/
def conclude (w : World) (side : Side) : World :=
  let t := w.hosts.get side
  if t.dropWhenDone then
    { w with link := w.link.dropStack side }.setStack side
      { t with driver := t.driver.drop, timer := none, finished := true }
  else w.setStack side { t with timer := none, finished := true }

/-- One move of a session: it begins a run, or its call is answered. -/
def actSession (w : World) (side : Side) (timer : Option Nat) (s : Session) (left : Nat)
    (results : List (Except Session.Error Unit)) : World × Bool :=
  match s.point? with
  | none =>
    let (s, events) := s.start
    (w.advance side (w.link.report events) (.reach s (left - 1) results), true)
  | some p =>
    match w.link.attempt side timer (p.call s.connection) with
    | (link, .ready answer) =>
      let (s, events) := Session.resumeAt s.connection p answer
      (w.advance side (link.report events) (.reach s left results), true)
    | (link, .blocked timer) => (w.hold side link timer, false)

/-- The size of a raw peer's receive buffer. -/
def rawBuffer : Nat := 2048

/-- One move of a raw peer: a step of its script. -/
def actRaw (w : World) (side : Side) (timer : Option Nat) (step : RawStep) (rest : List RawStep)
    (answered : List RawReply) : World × Bool :=
  match step with
  | .sleep ms =>
    let wake := timer.getD (w.link.now + ms)
    if wake ≤ w.link.now then (w.advance side w.link (.raw rest (.done :: answered)), true)
    else (w.hold side w.link (some wake), false)
  | .send datagram =>
    match w.link.attemptSend side datagram timer with
    | (link, .ready (.ok n)) => (w.advance side link (.raw rest (.count n :: answered)), true)
    | (link, .ready (.error e)) => (w.advance side link (.raw rest (.failed e :: answered)), true)
    | (link, .blocked timer) => (w.hold side link timer, false)
  | .recv =>
    match w.link.attemptRecv side rawBuffer with
    | (link, .ready (.ok bytes)) =>
      let reply : RawReply :=
        match Segment.parse bytes with
        | .ok s => .segment s
        | .error e => .malformed e
      (w.advance side link (.raw rest (reply :: answered)), true)
    | (link, .ready (.error e)) => (w.advance side link (.raw rest (.failed e :: answered)), true)
    | (link, .blocked timer) => (w.hold side link timer, false)

/-- One move of a stack, if it can make one. -/
def actStack (w : World) (side : Side) : World × Bool :=
  let t := w.hosts.get side
  if t.finished then (w, false)
  else if t.driver.isDone then (w.conclude side, true)
  else
    match t.driver with
    | .session s left results => w.actSession side t.timer s left results
    | .raw (step :: rest) answered => w.actRaw side t.timer step rest answered
    | .raw [] _ => (w, false)

/-- One move of a task, if it can make one. -/
def act (w : World) : Task → World × Bool
  | .app side => w.actApp side
  | .stack side => w.actStack side

/-- Whether both stacks have finished. -/
def isFinished (w : World) : Bool := w.hosts.near.finished && w.hosts.far.finished

/-- The timers of all tasks. -/
def timers (w : World) : List Nat :=
  [w.apps.near.timer, w.apps.far.timer, w.hosts.near.timer, w.hosts.far.timer].filterMap id

/-- The next time at which a timer ends. -/
def nextTimer? (w : World) : Option Nat :=
  (w.timers.filter fun t => w.link.now < t).min?

/-- Sets the time. -/
def atTime (w : World) (t : Nat) : World := { w with link := { w.link with now := t } }

/-- The number of steps and bytes that a script of an application asks for. -/
def appEffort : List AppStep → Nat
  | [] => 0
  | .call (.write bytes) :: rest => bytes.length + 1 + appEffort rest
  | _ :: rest => 1 + appEffort rest

/-- The number of steps that a driver has left. -/
def driverEffort : Driver → Nat
  | .session _ left _ => left
  | .raw script _ => script.length

/-- A bound on the moves of a schedule. A byte, a step or a run costs both ends together fewer than
sixteen moves, and a move at most sixteen ticks. -/
def effort (w : World) : Nat :=
  256 * (appEffort w.apps.near.script + appEffort w.apps.far.script +
    driverEffort w.hosts.near.driver + driverEffort w.hosts.far.driver + 16)

end World

/-- A world whose tasks take turns. -/
structure Schedule where
  /-- The world. -/
  world : World
  /-- The time at which it is broken off, if there is one. -/
  limit : Option Nat
  /-- Whose turn it is. -/
  turn : Task := .app .near
  /-- Whether a task has made a move in this round. -/
  moved : Bool := false
  /-- Whether this is the last turn of the applications. -/
  last : Bool := false
deriving Repr

namespace Schedule

/-- The next time at which a timer ends, unless the schedule is broken off before. -/
def nextTime? (s : Schedule) : Option Nat :=
  s.world.nextTimer?.filter fun t => s.limit.all (t ≤ ·)

/-- The world when nothing is left to wait for: its time is up, if there is a limit. -/
def expire (s : Schedule) : World :=
  match s.limit with
  | some t => s.world.atTime t
  | none => s.world

/-- What comes after a round: the end, the last turn of the applications, another round, or another
round at a later time. -/
def afterRound (s : Schedule) : Except World Schedule :=
  if s.world.isFinished then .ok { s with turn := .app .near, last := true }
  else if s.moved then .ok { s with turn := .app .near, moved := false }
  else
    match s.nextTime? with
    | some t => .ok { s with world := s.world.atTime t, turn := .app .near }
    | none => .error s.expire

/-- One tick: the task whose turn it is makes a move, or its turn ends. The schedule's end is the
world that it leaves. -/
def tick (s : Schedule) : Except World Schedule :=
  match s.world.act s.turn with
  | (world, true) => .ok { s with world, moved := true }
  | (world, false) =>
    let s := { s with world }
    if s.last && s.turn = .app .far then .error world
    else
      match s.turn.next with
      | some turn => .ok { s with turn }
      | none => s.afterRound

/-- Makes at most `fuel` ticks. -/
def ticks : Nat → Schedule → World
  | 0, s => s.world
  | fuel + 1, s =>
    match s.tick with
    | .ok s => ticks fuel s
    | .error w => w

end Schedule

/-- Runs a world to its end, or up to a limit. -/
def World.play (w : World) (limit : Option Nat) : World :=
  Schedule.ticks w.effort { world := w, limit }

end StopWait.Link
