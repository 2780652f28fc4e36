import StopWait.Call

/-!
# Endpoints

One end of an in-memory link: a stack, the queue of datagrams that leads to it, and the handle with
which an application drives it. Datagrams queue up to sixteen deep, requests of the application
up to eight; events for the application are not bounded.

* `Endpoint.listen` is a wait: it takes in datagrams and requests until an event of the mask is
  ready, or none of them can be any more.
* `AppCall.attempt` is a call of the application.
-/

namespace StopWait.Link

/-- The number of datagrams that may queue up at a stack. -/
def inboxCapacity : Nat := 16

/-- The number of requests that may queue up at a handle. -/
def requestCapacity : Nat := 8

/-- What an application asks of its stack. -/
inductive Request where
  /-- Send these bytes. -/
  | write (bytes : List UInt8)
  /-- Close once every byte has been sent. -/
  | close
deriving DecidableEq, Repr

/-- What a stack tells its application. -/
inductive Notice where
  /-- The connection has opened. -/
  | connected
  /-- Bytes of the peer. -/
  | data (bytes : List UInt8)
  /-- The peer will send no more. -/
  | peerFin
deriving DecidableEq, Repr

/-- The bytes that a notice brings. -/
def Notice.bytes : Notice → List UInt8
  | .data bytes => bytes
  | .connected | .peerFin => []

/-- One end of a link. -/
structure Endpoint where
  /-- The datagrams that have come through the network, and wait. -/
  inbox : List (List UInt8) := []
  /-- A datagram that a wait has taken off the queue. -/
  slot : Option (List UInt8) := none
  /-- Whether a wait has seen the end of the queue. -/
  networkClosed : Bool := false
  /-- The requests that wait. -/
  requests : List Request := []
  /-- The bytes that waits have taken from requests, and nobody has read. -/
  buffer : List UInt8 := []
  /-- Whether a wait has seen a close. -/
  closeRequested : Bool := false
  /-- The events that the application has not read. -/
  events : List Notice := []
  /-- How many milliseconds a wait lasts in which nothing happens. -/
  idleTimeout : Option Nat := none
  /-- Whether the stack has been dropped. -/
  stackGone : Bool := false
  /-- Whether the handle has been dropped. -/
  appGone : Bool := false
deriving DecidableEq, Repr

namespace Endpoint

/-- The event of a mask that is ready. The network comes first, and a close comes after all
bytes. -/
def available (e : Endpoint) (mask : Interest) : Option Event :=
  if mask.network && e.slot.isSome then some .networkData
  else if mask.appData && !e.buffer.isEmpty then some .appData
  else if mask.appClose && e.closeRequested && e.buffer.isEmpty then some .appCloseRequested
  else none

/-- Whether a wait looks at the network. -/
def hearsNetwork (e : Endpoint) (mask : Interest) : Bool := mask.network && !e.networkClosed

/-- Whether a wait looks at the requests. -/
def hearsApp (e : Endpoint) (mask : Interest) : Bool := mask.anyApp && !e.closeRequested

/-- The answer to a wait, if it can be given. -/
def verdict (e : Endpoint) (mask : Interest) : Option (Except Call.Failure Event) :=
  match e.available mask with
  | some event => some (.ok event)
  | none => if e.hearsNetwork mask || e.hearsApp mask then none else some (.error .disconnected)

/-- Takes in the first request, or the end of the requests when the handle is gone. -/
def intakeRequest (e : Endpoint) : Option Endpoint :=
  match e.requests with
  | .write bytes :: rest => some { e with requests := rest, buffer := e.buffer ++ bytes }
  | .close :: rest => some { e with requests := rest, closeRequested := true }
  | [] => if e.appGone then some { e with closeRequested := true } else none

/-- Takes in the first datagram, or the end of the queue when the peer is gone. -/
def intakeDatagram (e : Endpoint) (peerGone : Bool) : Option Endpoint :=
  match e.inbox with
  | d :: rest => some { e with inbox := rest, slot := some d }
  | [] => if peerGone then some { e with networkClosed := true } else none

/-- Takes in one thing that a wait looks at, the network first. -/
def intake (e : Endpoint) (peerGone : Bool) (mask : Interest) : Option Endpoint :=
  let datagram := if e.hearsNetwork mask then e.intakeDatagram peerGone else none
  match datagram with
  | some e => some e
  | none => if e.hearsApp mask then e.intakeRequest else none

/-- How much there is to take in. -/
def backlog (e : Endpoint) : Nat :=
  e.inbox.length + e.requests.length + (if e.networkClosed then 0 else 1) +
    (if e.closeRequested then 0 else 1)

theorem backlog_intakeDatagram {e f : Endpoint} {g : Bool}
    (hc : e.networkClosed = false) (h : e.intakeDatagram g = some f) :
    f.backlog < e.backlog := by
  unfold intakeDatagram at h
  split at h
  · rename_i hi
    obtain rfl := Option.some.inj h
    simp [backlog, hi]
  · split at h
    · obtain rfl := Option.some.inj h
      simp [backlog, hc]
    · simp at h

theorem backlog_intakeRequest {e f : Endpoint} (hc : e.closeRequested = false)
    (h : e.intakeRequest = some f) : f.backlog < e.backlog := by
  unfold intakeRequest at h
  split at h
  · rename_i hi
    obtain rfl := Option.some.inj h
    simp [backlog, hi]
  · rename_i hi
    obtain rfl := Option.some.inj h
    simp only [backlog, hi, hc, List.length_cons, if_true, Bool.false_eq_true, if_false]
    omega
  · split at h
    · obtain rfl := Option.some.inj h
      simp [backlog, hc]
    · simp at h

/-- Taking something in leaves less to take in. -/
theorem backlog_intake {e f : Endpoint} {g : Bool} {mask : Interest}
    (h : e.intake g mask = some f) : f.backlog < e.backlog := by
  simp only [intake] at h
  split at h
  · rename_i d hd
    obtain rfl := Option.some.inj h
    by_cases hw : e.hearsNetwork mask = true
    · rw [if_pos hw] at hd
      simp only [hearsNetwork, Bool.and_eq_true, Bool.not_eq_true'] at hw
      exact backlog_intakeDatagram hw.2 hd
    · rw [if_neg hw] at hd
      simp at hd
  · by_cases hw : e.hearsApp mask = true
    · rw [if_pos hw] at h
      simp only [hearsApp, Bool.and_eq_true, Bool.not_eq_true'] at hw
      exact backlog_intakeRequest hw.2 h
    · rw [if_neg hw] at h
      simp at h

/-- Takes things in until the wait can be answered or there is nothing to take in. -/
def listen (e : Endpoint) (peerGone : Bool) (mask : Interest) :
    Endpoint × Option (Except Call.Failure Event) :=
  match e.verdict mask with
  | some answer => (e, some answer)
  | none =>
    match _h : e.intake peerGone mask with
    | none => (e, none)
    | some f => listen f peerGone mask
termination_by e.backlog
decreasing_by exact backlog_intake _h

/-- Receives a datagram: the one that a wait took off the queue, or else the first one on it. -/
def recv (e : Endpoint) (peerGone : Bool) (capacity : Nat) :
    Endpoint × Option (Except Call.Failure (List UInt8)) :=
  match e.slot, e.inbox with
  | some d, _ => ({ e with slot := none }, some (.ok (d.take capacity)))
  | none, d :: rest => ({ e with inbox := rest }, some (.ok (d.take capacity)))
  | none, [] => (e, if peerGone then some (.error .disconnected) else none)

/-- Reads bytes of the application. -/
def read (e : Endpoint) (capacity : Nat) : Endpoint × List UInt8 :=
  ({ e with buffer := e.buffer.drop capacity }, e.buffer.take capacity)

/-- Tells the application something. -/
def tell (e : Endpoint) (event : Notice) : Endpoint × Except Call.Failure Unit :=
  if e.appGone then (e, .error .applicationGone)
  else ({ e with events := e.events ++ [event] }, .ok ())

/-- Puts a datagram on the queue, if there is room. -/
def enqueue (e : Endpoint) (datagram : List UInt8) : Endpoint × Option (Except Call.Failure Unit) :=
  if e.stackGone then (e, some (.error .receiverDropped))
  else if e.inbox.length < inboxCapacity then
    ({ e with inbox := e.inbox ++ [datagram] }, some (.ok ()))
  else (e, none)

/-- Drops the stack. What queued up for it is lost. -/
def dropStack (e : Endpoint) : Endpoint :=
  { e with stackGone := true, inbox := [], slot := none, requests := [], buffer := [] }

/-- Drops the handle. The events for it are lost. -/
def dropApp (e : Endpoint) : Endpoint := { e with appGone := true, events := [] }

end Endpoint

/-- What an application may call. -/
inductive AppCall where
  /-- Queue bytes to send. -/
  | write (bytes : List UInt8)
  /-- Queue a close. -/
  | close
  /-- Wait for the connection to open: the next event must say so. -/
  | connected
  /-- Wait for the next event. -/
  | nextEvent
  /-- Gather the peer's bytes until the peer ends. The pieces gathered so far are given, the latest
  first. -/
  | readToEnd (gathered : List (List UInt8))
deriving DecidableEq, Repr

/-- What an application is answered. -/
inductive AppReply where
  /-- It is done. -/
  | done
  /-- It failed. -/
  | failed (e : Call.Failure)
  /-- The next event, or nothing once the stack is gone. -/
  | event (e : Option Notice)
  /-- The bytes gathered. -/
  | bytes (bytes : List UInt8)
  /-- The handle has been dropped. -/
  | gone
deriving DecidableEq, Repr

namespace AppCall

/-- Queues a request, if there is room. -/
def request (e : Endpoint) (r : Request) : Endpoint × Option AppReply :=
  if e.stackGone then (e, some (.failed .disconnected))
  else if e.requests.length < requestCapacity then
    ({ e with requests := e.requests ++ [r] }, some .done)
  else (e, none)

/-- The next event, nothing if the stack is gone, or no answer yet. -/
def take (e : Endpoint) : Endpoint × Option (Option Notice) :=
  match e.events with
  | event :: rest => ({ e with events := rest }, some (some event))
  | [] => (e, if e.stackGone then some none else none)

/-- The bytes of the notices up to the peer's end, in pieces, the latest first and before those
gathered so far. -/
def gather (gathered : List (List UInt8)) (events : List Notice) : List (List UInt8) :=
  (events.takeWhile (· ≠ .peerFin)).foldl (fun pieces e => e.bytes :: pieces) gathered

/-- Tries a call. Without an answer it gives the call to go on with. -/
def attempt (e : Endpoint) : AppCall → Endpoint × Except AppCall AppReply
  | .write bytes =>
    match request e (.write bytes) with
    | (e, some reply) => (e, .ok reply)
    | (e, none) => (e, .error (.write bytes))
  | .close =>
    match request e .close with
    | (e, some reply) => (e, .ok reply)
    | (e, none) => (e, .error .close)
  | .connected =>
    match take e with
    | (e, some (some .connected)) => (e, .ok .done)
    | (e, some _) => (e, .ok (.failed .disconnected))
    | (e, none) => (e, .error .connected)
  | .nextEvent =>
    match take e with
    | (e, some event) => (e, .ok (.event event))
    | (e, none) => (e, .error .nextEvent)
  | .readToEnd gathered =>
    let pieces := gather gathered e.events
    let left := e.events.dropWhile (· ≠ .peerFin)
    let e := { e with events := left.drop 1 }
    if !left.isEmpty || e.stackGone then (e, .ok (.bytes pieces.reverse.flatten))
    else (e, .error (.readToEnd pieces))

end AppCall

end StopWait.Link
