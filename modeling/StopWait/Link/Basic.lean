import StopWait.Link.Endpoint
import StopWait.Link.Network
import StopWait.Trace

/-!
# Links

Two endpoints joined by a network, on virtual time. A link also keeps a record of every datagram
handed to the network, and of the reports made while it is used.

* `Link.attempt` tries a call of a stack. A call that has to wait says until when, if time alone
  can end its wait.
* `Link.perform` performs a call to its end, and gives up after some time.
-/

namespace StopWait

open Link

/-- The two ends of a link. -/
inductive Link.Side where
  | near
  | far
deriving DecidableEq, Repr

/-- The other end. -/
def Link.Side.other : Side → Side
  | .near => .far
  | .far => .near

/-- A thing for each end. -/
structure Link.Both (α : Type) where
  /-- The near one. -/
  near : α
  /-- The far one. -/
  far : α
deriving DecidableEq, Repr

namespace Link.Both

variable {α : Type}

/-- The thing at an end. -/
def get (b : Both α) : Side → α
  | .near => b.near
  | .far => b.far

/-- Replaces the thing at an end. -/
def set (b : Both α) (side : Side) (a : α) : Both α :=
  match side with
  | .near => { b with near := a }
  | .far => { b with far := a }

@[simp] theorem get_set_self (b : Both α) (side : Side) (a : α) : (b.set side a).get side = a := by
  cases side <;> rfl

@[simp] theorem get_set_other (b : Both α) (side : Side) (a : α) :
    (b.set side a).get side.other = b.get side.other := by
  cases side <;> rfl

end Link.Both

/-- Two endpoints joined by a network. -/
structure Link where
  /-- The endpoints. -/
  ends : Link.Both Endpoint
  /-- The network between them. -/
  network : Network
  /-- The time in milliseconds. -/
  now : Nat := 0
  /-- The datagrams handed to the network, the latest first. -/
  handed : List (List UInt8) := []
  /-- The reports, the latest first. -/
  reported : List Trace := []
deriving DecidableEq, Repr

namespace Link

/-- The state of a call that was tried. -/
inductive Progress (α : Type) where
  /-- It has been answered. -/
  | ready (answer : α)
  /-- It has to wait, if a time is given at most until then. -/
  | blocked (timer : Option Nat)
deriving DecidableEq, Repr

/-- A fresh link. -/
def new (network : Network) (idleNear idleFar : Option Nat) : Link where
  ends := ⟨{ idleTimeout := idleNear }, { idleTimeout := idleFar }⟩
  network := network

/-- The datagrams handed to the network, in order. -/
def wire (l : Link) : List (List UInt8) := l.handed.reverse

/-- The reports, in order. -/
def trace (l : Link) : List Trace := l.reported.reverse

/-- Adds reports. -/
def report (l : Link) (events : List Trace) : Link :=
  { l with reported := events.reverse ++ l.reported }

/-- Whether the stack at the other end has been dropped. -/
def peerGone (l : Link) (side : Side) : Bool := (l.ends.get side.other).stackGone

/-- Replaces an endpoint. -/
def setEnd (l : Link) (side : Side) (e : Endpoint) : Link :=
  { l with ends := l.ends.set side e }

/-- Tries a wait. Its idle time begins anew with everything it takes in. -/
def attemptWait (l : Link) (side : Side) (mask : Interest) (timer : Option Nat) :
    Link × Progress (Except Call.Failure Event) :=
  let e := l.ends.get side
  let timer := if (e.intake (l.peerGone side) mask).isSome then none else timer
  match e.listen (l.peerGone side) mask with
  | (e, some answer) => (l.setEnd side e, .ready answer)
  | (e, none) =>
    let l := l.setEnd side e
    match timer, e.idleTimeout with
    | _, none => (l, .blocked none)
    | some t, some _ => (l, if t ≤ l.now then .ready (.ok .timeout) else .blocked (some t))
    | none, some idle =>
      (l, if idle = 0 then .ready (.ok .timeout) else .blocked (some (l.now + idle)))

/-- Puts a datagram on the peer's queue once its time has come. -/
def attemptDelivery (l : Link) (side : Side) (datagram : List UInt8) (due : Nat) :
    Link × Progress (Except Call.Failure Nat) :=
  if l.now < due then (l, .blocked (some due))
  else
    match (l.ends.get side.other).enqueue datagram with
    | (e, some (.ok ())) => (l.setEnd side.other e, .ready (.ok datagram.length))
    | (_, some (.error e)) => (l, .ready (.error e))
    | (_, none) => (l, .blocked (some due))

/-- Hands a datagram that will meet this fate to the network. -/
def handOver (l : Link) (side : Side) (datagram : List UInt8) (fate : Fate) :
    Link × Progress (Except Call.Failure Nat) :=
  let l := { l with handed := datagram :: l.handed }
  match fate with
  | .lost => (l.report [.lost datagram.length], .ready (.ok datagram.length))
  | .due delay => l.attemptDelivery side datagram (l.now + delay)

/-- Tries a send. The network decides about a datagram when it is handed over, and the timer of the
send is when the datagram is due. -/
def attemptSend (l : Link) (side : Side) (datagram : List UInt8) (timer : Option Nat) :
    Link × Progress (Except Call.Failure Nat) :=
  match timer with
  | some due => l.attemptDelivery side datagram due
  | none =>
    { l with network := l.network.dispatch.2 }.handOver side datagram l.network.dispatch.1

/-- Tells the application at an end something. -/
def attemptTell (l : Link) (side : Side) (event : Notice) :
    Link × Progress (Except Call.Failure Unit) :=
  let (e, answer) := (l.ends.get side).tell event
  (l.setEnd side e, .ready answer)

/-- Tries a receive. -/
def attemptRecv (l : Link) (side : Side) (capacity : Nat) :
    Link × Progress (Except Call.Failure (List UInt8)) :=
  match (l.ends.get side).recv (l.peerGone side) capacity with
  | (e, some answer) => (l.setEnd side e, .ready answer)
  | (e, none) => (l.setEnd side e, .blocked none)

/-- Reads from the application. -/
def attemptRead (l : Link) (side : Side) (capacity : Nat) :
    Link × Progress (Except Call.Failure (List UInt8)) :=
  let (e, bytes) := (l.ends.get side).read capacity
  (l.setEnd side e, .ready (.ok bytes))

/-- Tries a call of the stack at an end, with the timer that an earlier try left. -/
def attempt (l : Link) (side : Side) (timer : Option Nat) : (c : Call) → Link × Progress c.Answer
  | .wait mask => l.attemptWait side mask timer
  | .networkSend datagram => l.attemptSend side datagram timer
  | .networkRecv capacity => l.attemptRecv side capacity
  | .appRecv capacity => l.attemptRead side capacity
  | .appSend bytes => l.attemptTell side (.data bytes)
  | .finReceived => l.attemptTell side .peerFin
  | .unblock => l.attemptTell side .connected

/-- Tries a call of the application at an end. -/
def attemptApp (l : Link) (side : Side) (c : AppCall) : Link × Except AppCall AppReply :=
  let (e, result) := c.attempt (l.ends.get side)
  (l.setEnd side e, result)

/-- Drops the stack at an end. -/
def dropStack (l : Link) (side : Side) : Link := l.setEnd side (l.ends.get side).dropStack

/-- Drops the handle at an end. -/
def dropApp (l : Link) (side : Side) : Link := l.setEnd side (l.ends.get side).dropApp

/-- How performing something ended. -/
inductive Outcome (α : Type) where
  /-- It was answered. -/
  | answered (answer : α)
  /-- It was given up. -/
  | pending
  /-- Who should perform it has been dropped. -/
  | gone
deriving DecidableEq, Repr

/-- Lets time pass. -/
def elapse (l : Link) (ms : Nat) : Link := { l with now := l.now + ms }

/-- Performs a call of the stack at an end, while nothing else happens. It is given up, without
being undone, when it has not been answered after `patience` milliseconds. -/
def perform (l : Link) (patience : Nat) (side : Side) (c : Call) : Link × Outcome c.Answer :=
  if (l.ends.get side).stackGone then (l, .gone)
  else
    match l.attempt side none c with
    | (m, .ready answer) => (m, .answered answer)
    | (m, .blocked none) => (m.elapse patience, .pending)
    | (m, .blocked (some t)) =>
      if l.now + patience < t then (m.elapse patience, .pending)
      else
        match { m with now := max m.now t }.attempt side (some t) c with
        | (n, .ready answer) => (n, .answered answer)
        | (n, .blocked _) => ({ n with now := l.now + patience }, .pending)

/-- Performs a call of the application at an end, while nothing else happens. -/
def performApp (l : Link) (patience : Nat) (side : Side) (c : AppCall) :
    Link × Outcome AppReply :=
  if (l.ends.get side).appGone then (l, .gone)
  else
    match l.attemptApp side c with
    | (m, .ok reply) => (m, .answered reply)
    | (m, .error _) => (m.elapse patience, .pending)

end Link

end StopWait
