import StopWait.Lifecycle

/-!
# Diagnostics

The events that a connection reports to whoever watches it: its changes of state, the segments that
cross it, what it drops, and how it ends.
-/

namespace StopWait

/-- The weight of a diagnostic event. -/
inductive Severity where
  | debug
  | info
  | warn
  | error
deriving DecidableEq, Repr

/-- The name of a weight. -/
def Severity.name : Severity → String
  | .debug => "DEBUG"
  | .info => "INFO"
  | .warn => "WARN"
  | .error => "ERROR"

/-- Which way a segment crossed. -/
inductive Crossing where
  | sent
  | received
deriving DecidableEq, Repr

/-- The name of a way. -/
def Crossing.name : Crossing → String
  | .sent => "Send"
  | .received => "Recv"

/-- A diagnostic event. -/
inductive Trace where
  /-- A connection changed its state. -/
  | stateChange (role : Role) (origin target : State)
  /-- A segment crossed. -/
  | segment (crossing : Crossing) (role : Role) (segment : Segment)
  /-- A segment that carried nothing was dropped. -/
  | dropped (role : Role) (segment : Segment)
  /-- The network lost a datagram of this length. -/
  | lost (len : Nat)
  /-- An error ended a run. -/
  | aborted (role : Role) (state : State) (fatal : Bool) (message : String)
  /-- A connection was closed. -/
  | closed (role : Role)
deriving DecidableEq, Repr

namespace Trace

/-- The weight of an event. -/
def severity : Trace → Severity
  | .stateChange .. | .closed .. => .info
  | .segment .. | .lost .. => .debug
  | .dropped .. => .warn
  | .aborted .. => .error

/-- The text of an event. -/
def text : Trace → String
  | .stateChange .. => "State change"
  | .segment .. => "Segment"
  | .dropped .. => "Dropping segment without data"
  | .lost .. => "Dropping datagram"
  | .aborted _ _ _ message => "Aborting connection: " ++ message
  | .closed .. => "Connection closed"

/-- The named values of an event. -/
def fields : Trace → List (String × String)
  | .stateChange role a b => [("role", role.name), ("from", a.name), ("to", b.name)]
  | .segment way role s =>
    [("direction", way.name), ("role", role.name), ("kind", s.kind.name),
     ("seq", toString s.header.seq.toNat), ("ack", toString s.header.ack.toNat),
     ("flags", s.header.control.describe), ("wnd", toString s.header.window.toNat),
     ("len", toString s.payload.length)]
  | .dropped role s =>
    [("role", role.name), ("kind", s.kind.name), ("seq", toString s.header.seq.toNat)]
  | .lost len => [("len", toString len)]
  | .aborted role state fatal _ =>
    [("role", role.name), ("state", state.name), ("fatal", toString fatal)]
  | .closed role => [("role", role.name)]

/-- The line that shows an event. -/
def line (t : Trace) : String :=
  t.severity.name ++ " " ++ t.text ++ " |" ++
    String.join (t.fields.map fun (name, value) => " " ++ name ++ "=" ++ value)

end Trace

end StopWait
