import StopWait.Settings
import StopWait.Log.Writer

/-!
# Connections

The context of one end of a connection: its state, the numbers of the segments it last sent and
received, its send window, and its transfer log.

* `Connection.apply` moves the state machine.
* `Connection.segment` builds the next segment and accounts for it as sent.
* `Connection.accept` takes in an awaited segment, `Connection.record` one that arrived unasked.
* `Connection.finish` ends a connection that has reached CLOSED.

An operation that can fail after it has changed the context gives the context along with the error.
-/

namespace StopWait

/-- The fields of the last segment sent. -/
structure Sent where
  seq : UInt32 := 0
  ack : UInt32 := 0
  /-- Its kind, or nothing before the first. -/
  kind : Option Kind := none
  /-- The sequence space it occupied. -/
  len : UInt32 := 0
deriving DecidableEq, Repr

/-- The fields of the last segment received. -/
structure Received where
  seq : UInt32 := 0
  ack : UInt32 := 0
  /-- The sequence space it occupied. -/
  len : UInt32 := 0
  /-- The window it advertised. -/
  window : UInt16 := 0
deriving DecidableEq, Repr

/-- The transfer log of a connection. -/
inductive TransferLog where
  /-- None is kept. -/
  | absent
  /-- It is being written. -/
  | writing (writer : Log.Writer)
  /-- It was closed, and this is where it went. -/
  | released (sink : Log.Sink)
deriving DecidableEq, Repr

namespace TransferLog

/-- Writes a record, if a log is being written. -/
def record (log : TransferLog) (r : Log.Record) : TransferLog × Except Log.Error Unit :=
  match log with
  | .writing w =>
    let (w, result) := w.record r
    (.writing w, result)
  | log => (log, .ok ())

/-- Closes the log. -/
def close : TransferLog → TransferLog
  | .writing w => .released w.close
  | log => log

/-- The bytes that have reached the sink. -/
def contents : TransferLog → List UInt8
  | .absent => []
  | .writing w => w.sink.contents
  | .released s => s.contents

end TransferLog

/-- A number of a connection that would leave the 32-bit words. -/
inductive Connection.Overflow where
  /-- One of the send window. -/
  | window (e : SendWindow.Overflow)
  /-- The sequence space of a segment that is taken in. -/
  | seqLen
deriving DecidableEq, Repr

/-- The wording of an overflow. -/
def Connection.Overflow.message : Connection.Overflow → String
  | .window e => e.message
  | .seqLen => "attempt to add with overflow"

/-- An error of a connection. -/
inductive Connection.Error where
  /-- An arriving segment found no transition. -/
  | invalidTransition (e : Refusal)
  /-- A trigger of our own found no transition. -/
  | contractViolation (e : Refusal)
  /-- A segment lacks a control bit of the awaited kind. -/
  | unexpectedSegment (expected actual : Kind)
  /-- Data was to be sent while this many bytes await their acknowledgment. -/
  | dataInFlight (len : UInt32)
  /-- The connection is closed. -/
  | closed
  /-- A segment could not be built. -/
  | build (e : Segment.BuildError)
  /-- The transfer log could not be written. -/
  | log (e : Log.Error)
  /-- A number would leave the 32-bit words. -/
  | overflow (e : Connection.Overflow)
deriving DecidableEq, Repr

namespace Connection.Error

/-- The wording of an error. -/
def message : Connection.Error → String
  | .invalidTransition e => e.message
  | .contractViolation e => s!"Contract violation: {e.message}"
  | .unexpectedSegment k l => s!"Expected a {k.name} segment but a {l.name} segment arrived"
  | .dataInFlight n => s!"A data segment of {n.toNat} bytes is still unacknowledged"
  | .closed => "The connection is closed"
  | .build e => e.message
  | .log e => e.message
  | .overflow e => e.message

/-- Whether the caller is to blame rather than the peer or the surroundings. -/
def blamesCaller : Connection.Error → Bool
  | .contractViolation _ | .dataInFlight _ | .closed => true
  | _ => false

/-- The error of a trigger without transition. -/
def ofTransition (e : Refusal) : Connection.Error :=
  if e.blamesCaller then .contractViolation e else .invalidTransition e

end Connection.Error

/-- One end of a connection. -/
structure Connection where
  /-- Which side this is. -/
  role : Role
  /-- The state. -/
  state : State
  /-- The initial sequence number. -/
  iss : UInt32
  /-- The source port of every segment. -/
  localPort : UInt16
  /-- The destination port of every segment. -/
  remotePort : UInt16
  /-- The sequence number of the next segment. -/
  nextSeq : UInt32
  /-- The last segment sent. -/
  sent : Sent
  /-- The last segment received. -/
  received : Received
  /-- The send window. -/
  window : SendWindow
  /-- The length of the unacknowledged data segment, if there is one. -/
  inFlight : Option UInt32
  /-- Whether the connection has ended. -/
  done : Bool
  /-- The transfer log. -/
  log : TransferLog
deriving DecidableEq, Repr

namespace Connection

/-- A fresh connection. -/
def new (settings : Settings) (role : Role) : Connection where
  role := role
  state := .listen
  iss := settings.iss
  localPort := settings.localPort
  remotePort := settings.remotePort
  nextSeq := settings.iss
  sent := {}
  received := {}
  window := .initial
  inFlight := none
  done := false
  log := .absent

/-- Has every data segment sent and acknowledged written to a sink. -/
def withLog (c : Connection) (sink : Log.Sink) : Connection :=
  { c with log := .writing { sink } }

/-- The bytes that the next data segment may carry. -/
def budget (c : Connection) : Nat := c.window.budget

/-- The sequence number expected of the peer's next segment. -/
def expectedSeq (c : Connection) : UInt32 := c.received.seq + c.received.len

/-- Moves the state machine, and gives what the transition asks for. -/
def apply (c : Connection) (t : Trigger) : Except Connection.Error (Transition × Connection) :=
  if c.done then .error .closed
  else
    match c.state.on t with
    | .error e => .error (.ofTransition e)
    | .ok r => .ok (r, { c with state := r.next })

/-- The sequence and acknowledgment numbers of the next segment of a kind. -/
def numbers (c : Connection) : Kind → UInt32 × UInt32
  | .syn => (c.iss, 0)
  | .synAck => (c.iss, c.received.seq + 1)
  | .ack => (c.nextSeq, c.received.seq + c.received.len)
  | .data | .fin => (c.nextSeq, c.sent.ack)
  | .finAck => (c.received.ack, c.received.seq + 1)

/-- The draft of the next segment of a kind. -/
def draft (c : Connection) (kind : Kind) : Draft :=
  ({ srcPort := c.localPort, dstPort := c.remotePort, seq := (c.numbers kind).1 } : Draft).applyAll
    [.ackNumber (c.numbers kind).2, .window maxWindow.toUInt16]

/-- Why no segment of a kind may be sent now, if so. -/
def sendFault (c : Connection) (kind : Kind) : Option Connection.Error :=
  if c.done then some .closed
  else
    match kind, c.inFlight with
    | .data, some n => some (.dataInFlight n)
    | _, _ => none

/-- Writes a line about `len` bytes to the transfer log. -/
def logData (c : Connection) (direction : Log.Direction) (len : UInt32) :
    Connection × Except Log.Error Unit :=
  let (log, result) := c.log.record ⟨direction, c.window.swnd, c.window.remainder, len⟩
  ({ c with log }, result)

/-- Notes a segment as the last one sent. What is built has at most `mss` bytes, so that its
sequence space is a word. -/
def noteSent (c : Connection) (kind : Kind) (s : Segment) : Connection :=
  { c with sent := ⟨(c.numbers kind).1, (c.numbers kind).2, some kind, s.seqLen⟩ }

/-- Builds the next segment of a kind and accounts for it as sent. A refusal of the transfer log
leaves all but the log as it was. -/
def segment (c : Connection) (kind : Kind) (payload : List UInt8) :
    Connection × Except Connection.Error Segment :=
  match c.sendFault kind with
  | some e => (c, .error e)
  | none =>
    match Segment.build kind (c.draft kind) payload with
    | .error e => (c, .error (.build e))
    | .ok s =>
      if kind = .data then
        let len := UInt32.ofNat payload.length
        match c.logData .send len with
        | (c, .error e) => (c, .error (.log e))
        | (c, .ok ()) =>
          ({ c.noteSent kind s with window := c.window.spend len, inFlight := some len }, .ok s)
      else (c.noteSent kind s, .ok s)

/-- Notes a segment as the last one received. -/
def noteReceived (c : Connection) (s : Segment) : Connection :=
  { c with received := ⟨s.header.seq, s.header.ack, s.seqLen, s.header.window⟩ }

/-- Takes in a segment that arrived unasked, if its sequence space is a word. -/
def record (c : Connection) (s : Segment) : Except Connection.Error Connection :=
  if c.done then .error .closed
  else if s.seqLenFits then .ok (c.noteReceived s)
  else .error (.overflow .seqLen)

/-- Accounts for an acknowledgment in the window. -/
def grow (c : Connection) (acked : Acknowledged) : Connection × Except Connection.Error Unit :=
  match c.window.acknowledge acked with
  | .ok window => ({ c with window }, .ok ())
  | .error e => (c, .error (.overflow (.window e)))

/-- Takes what is in flight as acknowledged. -/
def acknowledge (c : Connection) : Connection × Except Connection.Error Unit :=
  match c.inFlight with
  | none => c.grow .control
  | some len =>
    match { c with inFlight := none }.logData .recv len with
    | (c, .error e) => (c, .error (.log e))
    | (c, .ok ()) => c.grow (.data len)

/-- Moves the next sequence number as a segment accepted as `expected` asks for. A SYN brings no
acknowledgment, but its source port is taken by an end that has no remote port yet. -/
def advance (c : Connection) (expected : Kind) (s : Segment) : Connection :=
  if expected = .syn then
    { c with
      nextSeq := c.iss
      remotePort := if c.remotePort = 0 then s.header.srcPort else c.remotePort }
  else { c with nextSeq := s.header.ack }

/-- Takes in a segment that was awaited. It must have every control bit of the awaited kind. -/
def accept (c : Connection) (expected : Kind) (s : Segment) :
    Connection × Except Connection.Error Unit :=
  if c.done then (c, .error .closed)
  else if expected.accepts s.header.control then
    match c.record s with
    | .error e => (c, .error e)
    | .ok d =>
      let d := d.advance expected s
      if expected.control.ack then d.acknowledge else (d, .ok ())
  else (c, .error (.unexpectedSegment expected s.kind))

/-- Whether `finish` would end the connection. -/
def finishes (c : Connection) : Bool := !c.done && c.state = .closed

/-- Ends a connection that has reached CLOSED, and closes its transfer log. -/
def finish (c : Connection) : Connection :=
  if c.finishes then { c with done := true, log := c.log.close } else c

/-- Closes the transfer log of a connection that is let go. -/
def drop (c : Connection) : Connection := { c with log := c.log.close }

end Connection

end StopWait
