import StopWait.Connection
import StopWait.Call
import StopWait.Trace

/-!
# Sessions

A session owns a connection and drives it with what a stack reports, until the close handshake
completes or something goes wrong. It is a machine that stops at every call to its stack: `Point`
says which call it waits on and what is left to do after it, and `Session.resumeAt` takes the
answer and runs to the next call.

* `Session.start` begins a run: the connection opens.
* `Point.call` is the call that a session waits on at a point.
* `Session.resumeAt` goes on with the answer to it.

A run that ends with an error ends the connection without telling the peer.
-/

namespace StopWait

/-- The size of the receive buffer: a full data segment. -/
def receiveCapacity : Nat := Header.size + mss.toNat

/-- An error that ended a run. -/
inductive Session.Error where
  /-- The connection refused. -/
  | connection (e : Connection.Error)
  /-- A datagram was no segment. -/
  | parse (e : Header.ParseError)
  /-- The stack failed. -/
  | stack (e : Call.Failure)
  /-- The transfer log could not be opened. -/
  | log (e : Log.Error)
  /-- The network took none of a segment. -/
  | nonPositiveSend
  /-- The application announced bytes and had none. -/
  | emptyWrite
  /-- The stack reported an event that was not asked for. -/
  | unexpectedEvent (e : Event)
deriving DecidableEq, Repr

namespace Session.Error

/-- The wording of an error. -/
def message : Session.Error → String
  | .connection e => e.message
  | .parse e => s!"Malformed segment: {e.message}"
  | .stack e => e.message
  | .log e => e.message
  | .nonPositiveSend => "The network accepted none of the segment"
  | .emptyWrite => "The application reported data but none could be read"
  | .unexpectedEvent e => s!"Unexpected {e.name} event"

/-- Whether the session's caller or stack broke its contract, rather than the peer or the
network. -/
def isFatal : Session.Error → Bool
  | .connection e => e.blamesCaller
  | .unexpectedEvent _ | .emptyWrite => true
  | _ => false

end Session.Error

/-- What is left of a transition: the actions to perform, the payload they are about, and what
follows them. -/
structure Todo where
  /-- The payload to send, or the one that arrived last. -/
  payload : List UInt8
  /-- The actions, in order. -/
  actions : List Action
  /-- What follows them. -/
  followUp : FollowUp
deriving DecidableEq, Repr

/-- Where a session waits on its stack. -/
inductive Point where
  /-- For any event, with nothing awaited. -/
  | idle
  /-- For the datagram announced while idle. -/
  | reading
  /-- For the bytes that the application announced. -/
  | fetching
  /-- For the network to take a segment. -/
  | sending (segment : Segment) (todo : Todo)
  /-- For a datagram to be announced that should do as this kind. -/
  | awaiting (kind : Kind)
  /-- For that datagram. -/
  | receiving (kind : Kind)
  /-- For the application to take the payload. -/
  | delivering (todo : Todo)
  /-- For the application to take the end of the peer's data. -/
  | signalling (todo : Todo)
  /-- For the application to be released. -/
  | unblocking (todo : Todo)
deriving DecidableEq, Repr

/-- The call that a connection's session makes at a point. -/
def Point.call (c : Connection) : Point → Call
  | .idle => .wait .any
  | .reading => .networkRecv receiveCapacity
  | .fetching => .appRecv c.budget
  | .sending segment _ => .networkSend segment.serialize
  | .awaiting _ => .wait .networkOnly
  | .receiving _ => .networkRecv receiveCapacity
  | .delivering todo => .appSend todo.payload
  | .signalling _ => .finReceived
  | .unblocking _ => .unblock

/-- What a session is doing. -/
inductive Status where
  /-- It has not been run. -/
  | ready
  /-- It waits on its stack. -/
  | suspended (point : Point)
  /-- Its last run has ended. -/
  | returned (result : Except Session.Error Unit)
deriving Repr

/-- A connection and what its event loop is doing. -/
structure Session where
  /-- The connection. -/
  connection : Connection
  /-- What the event loop is doing. -/
  status : Status := .ready
deriving Repr

namespace Session

/-- A session at its next stop, and what it reported on the way there. -/
abbrev Stop : Type := Session × List Trace

/-- Reports something before what a stop reports. -/
def Stop.after (events : List Trace) (s : Stop) : Stop := (s.1, events ++ s.2)

/-- A session for one end of a connection. -/
def new (settings : Settings) (role : Role) : Session :=
  { connection := .new settings role }

/-- Has the session's transfer log written to a sink. -/
def withLog (s : Session) (sink : Log.Sink) : Session :=
  { s with connection := s.connection.withLog sink }

/-- Waits on the stack. -/
def suspend (c : Connection) (p : Point) : Stop := (⟨c, .suspended p⟩, [])

/-- Ends the run with an error. -/
def abort (c : Connection) (e : Session.Error) : Stop :=
  (⟨c, .returned (.error e)⟩, [.aborted c.role c.state e.isFatal e.message])

/-- Goes back to waiting for any event, unless the connection has reached CLOSED. -/
def settle (c : Connection) : Stop :=
  if c.finishes then (⟨c.finish, .returned (.ok ())⟩, [.closed c.role])
  else if c.done then (⟨c, .returned (.ok ())⟩, [])
  else suspend c .idle

/-- Builds a segment and hands it to the network. -/
def transmit (c : Connection) (kind : Kind) (payload : List UInt8) (todo : Todo) : Stop :=
  match c.segment kind payload with
  | (c, .error e) => abort c (.connection e)
  | (c, .ok s) => suspend c (.sending s todo)

/-- The state change from one connection to the next, if there is any. -/
def stateChange (c d : Connection) : List Trace :=
  if c.state = d.state then [] else [.stateChange c.role c.state d.state]

/-- The number of closes that a follow-up asks for. -/
def closes : FollowUp → Nat
  | .close => 1
  | _ => 0

theorem followUp_of_apply_close {c d : Connection} {r : Transition}
    (h : c.apply .close = .ok (r, d)) : closes r.followUp = 0 := by
  unfold Connection.apply at h
  split at h
  · exact absurd h (by simp)
  · split at h
    · exact absurd h (by simp)
    · rename_i t ht
      injection h with h
      injection h with h1 h2
      subst h1
      have := State.followUp_of_close ht
      cases hf : t.followUp <;> simp_all [closes]

/-- Performs what is left of a transition, up to the next call. Only a data segment takes the
payload along, and an empty payload is not delivered. -/
def proceed (c : Connection) (payload : List UInt8) (actions : List Action)
    (followUp : FollowUp) : Stop :=
  match actions with
  | .send .data :: rest => transmit c .data payload ⟨[], rest, followUp⟩
  | .send kind :: rest => transmit c kind [] ⟨payload, rest, followUp⟩
  | .deliver :: rest =>
    if payload.isEmpty then proceed c payload rest followUp
    else suspend c (.delivering ⟨payload, rest, followUp⟩)
  | .signalPeerFin :: rest => suspend c (.signalling ⟨payload, rest, followUp⟩)
  | .unblock :: rest => suspend c (.unblocking ⟨payload, rest, followUp⟩)
  | [] =>
    match followUp with
    | .rest => settle c
    | .await kind => suspend c (.awaiting kind)
    | .close =>
      match _h : c.apply .close with
      | .error e => abort c (.connection e)
      | .ok (r, d) => (proceed d payload r.actions r.followUp).after (stateChange c d)
termination_by (closes followUp, actions.length)
decreasing_by
  · exact Prod.Lex.right _ (by simp)
  · exact Prod.Lex.left _ _ (by rw [followUp_of_apply_close _h]; decide)

/-- Goes on with what is left of a transition. -/
def carryOn (c : Connection) (todo : Todo) : Stop :=
  proceed c todo.payload todo.actions todo.followUp

/-- Feeds a trigger to the connection and performs what it asks for. -/
def feed (c : Connection) (t : Trigger) (payload : List UInt8) : Stop :=
  match c.apply t with
  | .error e => abort c (.connection e)
  | .ok (r, d) => (proceed d payload r.actions r.followUp).after (stateChange c d)

/-- Takes in a segment that arrived while nothing was awaited. One with neither FIN nor payload is
dropped. -/
def arrive (c : Connection) (s : Segment) : Stop :=
  if s.header.control.fin then takeIn .fin
  else if s.payload.isEmpty then (suspend c .idle).after [.dropped c.role s]
  else takeIn .data
where
  /-- Records the segment and takes it as having arrived. -/
  takeIn (kind : Kind) : Stop :=
    match c.record s with
    | .error e => abort c (.connection e)
    | .ok d => feed d (.arrived kind) s.payload

/-- Takes in a segment that was awaited. -/
def takeAwaited (c : Connection) (kind : Kind) (s : Segment) : Stop :=
  match c.accept kind s with
  | (d, .error e) => abort d (.connection e)
  | (d, .ok ()) => feed d (.arrived kind) s.payload

/-- Reads the datagram that a receive call put into the buffer. What does not fit is lost. -/
def receive (c : Connection) (bytes : List UInt8) (take : Segment → Stop) : Stop :=
  match Segment.parse (bytes.take receiveCapacity) with
  | .error e => abort c (.parse e)
  | .ok s => (take s).after [.segment .received c.role s]

/-- What is received is so short that its sequence space is a word. -/
theorem seqLenFits_of_receive {bytes : List UInt8} {s : Segment}
    (h : Segment.parse (bytes.take receiveCapacity) = .ok s) : s.seqLenFits = true := by
  unfold Segment.parse at h
  split at h
  · cases h
  · cases h
    refine Segment.seqLenFits_of_length ?_
    have hcapacity : receiveCapacity = 556 := rfl
    have hlimit : Word.limit32 = 4294967296 := rfl
    simp only [List.length_drop, List.length_take]
    omega

/-- Goes on from `idle` with the event reported. -/
def onEvent (c : Connection) : Event → Stop
  | .networkData => suspend c .reading
  | .appData => suspend c .fetching
  | .appCloseRequested => feed c .close []
  | .timeout => abort c (.unexpectedEvent .timeout)

/-- Goes on from `fetching` with the bytes read. -/
def onFetched (c : Connection) (bytes : List UInt8) : Stop :=
  let payload := bytes.take c.budget
  if payload.isEmpty then abort c .emptyWrite else feed c .write payload

/-- Goes on from `sending` with the number of bytes that the network took. -/
def onSent (c : Connection) (s : Segment) (todo : Todo) (count : Nat) : Stop :=
  if count = 0 then abort c .nonPositiveSend
  else (carryOn c todo).after [.segment .sent c.role s]

/-- Goes on from `awaiting` with the event reported. -/
def onAnnounced (c : Connection) (kind : Kind) : Event → Stop
  | .networkData => suspend c (.receiving kind)
  | e => abort c (.unexpectedEvent e)

/-- Goes on with an answer. A failed call ends the run. -/
def answered {α : Type} (c : Connection) (a : Except Call.Failure α) (next : α → Stop) : Stop :=
  match a with
  | .error e => abort c (.stack e)
  | .ok x => next x

/-- Goes on with the stack's answer to the call of a point. -/
def resumeAt (c : Connection) : (p : Point) → (p.call c).Answer → Stop
  | .idle, a => answered c a (onEvent c)
  | .reading, a => answered c a fun bytes => receive c bytes (arrive c)
  | .fetching, a => answered c a (onFetched c)
  | .sending s todo, a => answered c a (onSent c s todo)
  | .awaiting kind, a => answered c a (onAnnounced c kind)
  | .receiving kind, a => answered c a fun bytes => receive c bytes (takeAwaited c kind)
  | .delivering todo, a => answered c a fun _ => carryOn c todo
  | .signalling todo, a => answered c a fun _ => carryOn c todo
  | .unblocking todo, a => answered c a fun _ => carryOn c todo

/-- Begins a run. -/
def start (s : Session) : Stop := feed s.connection (.start s.connection.role) []

/-- The point that a session waits at, if it runs. -/
def point? (s : Session) : Option Point :=
  match s.status with
  | .suspended p => some p
  | _ => none

/-- The result of the last run, if it has ended. -/
def result? (s : Session) : Option (Except Session.Error Unit) :=
  match s.status with
  | .returned r => some r
  | _ => none

/-- Lets a session go, which closes its transfer log. -/
def drop (s : Session) : Session := { s with connection := s.connection.drop }

end Session

end StopWait
