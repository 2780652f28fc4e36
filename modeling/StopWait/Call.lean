import StopWait.Segment

/-!
# Stacks

A stack stands between a session and the world: it carries datagrams to and from the peer and bytes
to and from the application. Here is what a session may ask of one, and what it may answer.
-/

namespace StopWait

/-- What a stack may report to a session that waits. -/
inductive Event where
  /-- A datagram can be received. -/
  | networkData
  /-- The application has written bytes that can be read. -/
  | appData
  /-- The application asked to close, and all it wrote has been read. -/
  | appCloseRequested
  /-- Nothing became ready in time. -/
  | timeout
deriving DecidableEq, Repr

/-- The name of an event. -/
def Event.name : Event → String
  | .networkData => "NetworkData"
  | .appData => "AppData"
  | .appCloseRequested => "AppCloseRequested"
  | .timeout => "Timeout"

/-- The events that a wait is interested in. -/
structure Interest where
  /-- Datagrams. -/
  network : Bool := false
  /-- Bytes of the application. -/
  appData : Bool := false
  /-- The application's wish to close. -/
  appClose : Bool := false
deriving DecidableEq, Repr

namespace Interest

/-- No event. -/
def empty : Interest := {}

/-- Every event. -/
def any : Interest := ⟨true, true, true⟩

/-- Datagrams only. -/
def networkOnly : Interest := ⟨true, false, false⟩

/-- The events of either mask. -/
def union (a b : Interest) : Interest :=
  ⟨a.network || b.network, a.appData || b.appData, a.appClose || b.appClose⟩

/-- Whether every event of `b` is in `a`. -/
def contains (a b : Interest) : Bool :=
  (a.network || !b.network) && (a.appData || !b.appData) && (a.appClose || !b.appClose)

/-- Whether the mask has an event of the application. -/
def anyApp (a : Interest) : Bool := a.appData || a.appClose

/-- The names of the events. -/
def names (a : Interest) : List String :=
  (if a.network then ["NETWORK_DATA"] else []) ++ (if a.appData then ["APP_DATA"] else []) ++
    (if a.appClose then ["APP_CLOSE_REQUESTED"] else [])

/-- How diagnostics show a mask. -/
def describe (a : Interest) : String :=
  "\x7b" ++ ", ".intercalate (a.names.map fun n => "\"" ++ n ++ "\"") ++ "\x7d"

end Interest

/-- An error of a stack. -/
inductive Call.Failure where
  /-- The peer cannot be reached any more. -/
  | disconnected
  /-- The application has gone. -/
  | applicationGone
  /-- The network found the peer's stack gone. -/
  | receiverDropped
  /-- The system failed, with this text. -/
  | io (text : String)
deriving DecidableEq, Repr

/-- The wording of a stack error. -/
def Call.Failure.message : Call.Failure → String
  | .disconnected => "The peer can no longer be reached"
  | .applicationGone => "The application is no longer listening"
  | .receiverDropped => "The receiving stack was dropped"
  | .io text => text

/-- What may be asked of a stack. -/
inductive Call where
  /-- Wait until one of these events is ready. -/
  | wait (mask : Interest)
  /-- Send a datagram to the peer. -/
  | networkSend (datagram : List UInt8)
  /-- Receive a datagram, cut to this many bytes. -/
  | networkRecv (capacity : Nat)
  /-- Read at most this many bytes from the application. -/
  | appRecv (capacity : Nat)
  /-- Deliver bytes to the application. -/
  | appSend (bytes : List UInt8)
  /-- Tell the application that the peer will send no more. -/
  | finReceived
  /-- Release an application that waits for the connection to open. -/
  | unblock
deriving DecidableEq, Repr

/-- What a stack answers to a call that succeeds. -/
def Call.Reply : Call → Type
  | .wait _ => Event
  | .networkSend _ => Nat
  | .networkRecv _ => List UInt8
  | .appRecv _ => List UInt8
  | .appSend _ => Unit
  | .finReceived => Unit
  | .unblock => Unit

/-- What a stack answers to a call. -/
abbrev Call.Answer (c : Call) : Type := Except Call.Failure c.Reply

end StopWait
