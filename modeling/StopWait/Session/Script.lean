import StopWait.Session

/-!
# Scripted stacks

A stack whose answers are written down beforehand, for running a single session. Each wait takes
the next step of the script, whatever its mask; when none is left, the peer is gone.

* `Script.Stack.answer` answers one call.
* `Script.run` runs a session to the end of a run.
-/

namespace StopWait

/-- What the next wait reports, and what it brings. -/
inductive Script.Step where
  /-- A datagram. -/
  | network (datagram : List UInt8)
  /-- Bytes of the application. -/
  | app (bytes : List UInt8)
  /-- The application's wish to close. -/
  | close
  /-- Nothing in time. -/
  | timeout
  /-- A failure. -/
  | fail (e : Call.Failure)
deriving DecidableEq, Repr

/-- What the next send answers. -/
inductive Script.Sending where
  /-- The whole datagram was sent. -/
  | whole
  /-- This many bytes were sent. -/
  | count (n : Nat)
  /-- A failure. -/
  | fail (e : Call.Failure)
deriving DecidableEq, Repr

/-- The answers of a stack, written down. -/
structure Script where
  /-- The answers to waits. -/
  steps : List Script.Step := []
  /-- The answers to sends; when none is left, whole datagrams are sent. -/
  sends : List Script.Sending := []
  /-- How every receive fails, if it does. -/
  networkRecv : Option Call.Failure := none
  /-- How every read from the application fails, if it does. -/
  appRecv : Option Call.Failure := none
  /-- How every delivery fails, if it does. -/
  appSend : Option Call.Failure := none
  /-- How every report of the peer's end fails, if it does. -/
  finReceived : Option Call.Failure := none
  /-- How every release of the application fails, if it does. -/
  unblock : Option Call.Failure := none
deriving DecidableEq, Repr

/-- A call that was made, and the number of bytes that it brought. -/
structure Script.Entry where
  /-- The call. -/
  call : Call
  /-- The number of bytes received or read. -/
  count : Nat := 0
deriving DecidableEq, Repr

/-- A scripted stack at work. -/
structure Script.Stack where
  /-- The answers that are left. -/
  script : Script
  /-- The datagrams that are waiting. -/
  datagrams : List (List UInt8) := []
  /-- The bytes of the application that are waiting. -/
  buffer : List UInt8 := []
  /-- The calls so far, the latest first. Receives and reads that failed are left out. -/
  heard : List Script.Entry := []
deriving DecidableEq, Repr

namespace Script.Stack

/-- The calls so far, in order. -/
def calls (s : Script.Stack) : List Script.Entry := s.heard.reverse

/-- Notes a call. -/
def note (s : Script.Stack) (call : Call) (count : Nat) : Script.Stack :=
  { s with heard := ⟨call, count⟩ :: s.heard }

/-- Replaces the steps that are left. -/
def withSteps (s : Script.Stack) (steps : List Script.Step) : Script.Stack :=
  { s with script := { s.script with steps } }

/-- Answers a wait. -/
def wait (s : Script.Stack) : Script.Stack × Except Call.Failure Event :=
  match s.script.steps with
  | [] => (s, .error .disconnected)
  | .network d :: rest =>
    ({ s.withSteps rest with datagrams := s.datagrams ++ [d] }, .ok .networkData)
  | .app bytes :: rest => ({ s.withSteps rest with buffer := s.buffer ++ bytes }, .ok .appData)
  | .close :: rest => (s.withSteps rest, .ok .appCloseRequested)
  | .timeout :: rest => (s.withSteps rest, .ok .timeout)
  | .fail e :: rest => (s.withSteps rest, .error e)

/-- Answers a send. -/
def send (s : Script.Stack) (datagram : List UInt8) : Script.Stack × Except Call.Failure Nat :=
  match s.script.sends with
  | [] => (s, .ok datagram.length)
  | sending :: rest =>
    let s := { s with script := { s.script with sends := rest } }
    match sending with
    | .whole => (s, .ok datagram.length)
    | .count n => (s, .ok n)
    | .fail e => (s, .error e)

/-- Answers a receive. A failing one takes its datagram off the queue all the same. -/
def recv (s : Script.Stack) (capacity : Nat) : Script.Stack × Except Call.Failure (List UInt8) :=
  match s.datagrams with
  | [] => (s, .error .disconnected)
  | d :: rest =>
    let s := { s with datagrams := rest }
    match s.script.networkRecv with
    | some e => (s, .error e)
    | none =>
      (s.note (.networkRecv capacity) (d.take capacity).length, .ok (d.take capacity))

/-- Answers a read from the application. -/
def read (s : Script.Stack) (capacity : Nat) : Script.Stack × Except Call.Failure (List UInt8) :=
  match s.script.appRecv with
  | some e => (s, .error e)
  | none =>
    let bytes := s.buffer.take capacity
    ({ s with buffer := s.buffer.drop capacity }.note (.appRecv capacity) bytes.length, .ok bytes)

/-- Answers a call that brings nothing. -/
def tell (failure : Option Call.Failure) : Except Call.Failure Unit :=
  match failure with
  | some e => .error e
  | none => .ok ()

/-- Answers a call. -/
def answer (s : Script.Stack) : (c : Call) → Script.Stack × c.Answer
  | .wait mask => (s.note (.wait mask) 0).wait
  | .networkSend d => (s.note (.networkSend d) 0).send d
  | .networkRecv n => s.recv n
  | .appRecv n => s.read n
  | .appSend bytes => (s.note (.appSend bytes) 0, tell s.script.appSend)
  | .finReceived => (s.note .finReceived 0, tell s.script.finReceived)
  | .unblock => (s.note .unblock 0, tell s.script.unblock)

end Script.Stack

namespace Script

/-- A session beside its stack, and what it has reported. -/
structure Scene where
  /-- The session. -/
  session : Session
  /-- The stack. -/
  stack : Script.Stack
  /-- The reports so far. -/
  trace : List Trace := []
deriving Repr

namespace Scene

/-- Puts a session's stop into the scene. -/
def reach (s : Scene) (stop : Session.Stop) : Scene :=
  { s with session := stop.1, trace := s.trace ++ stop.2 }

/-- Answers one call of the session, if it makes one. -/
def step? (s : Scene) : Option Scene :=
  match s.session.point? with
  | none => none
  | some p =>
    let (stack, answer) := s.stack.answer (p.call s.session.connection)
    some ({ s with stack }.reach (Session.resumeAt s.session.connection p answer))

/-- Answers at most `fuel` calls. -/
def steps : Nat → Scene → Scene
  | 0, s => s
  | fuel + 1, s =>
    match s.step? with
    | none => s
    | some s => steps fuel s

/-- A bound on the calls of a run: each wait takes a step, and fewer than eight calls stand between
two waits. -/
def bound (s : Scene) : Nat := 8 * (s.stack.script.steps.length + 2)

/-- Runs the session once. -/
def run (s : Scene) : Scene :=
  let s := s.reach s.session.start
  s.steps s.bound

/-- The scenes after each of a number of runs. -/
def runs : Nat → Scene → List Scene
  | 0, _ => []
  | n + 1, s => s.run :: runs n s.run

end Scene

end Script

end StopWait
