import StopWait.Link.Schedule
import StopWait.Log.Reader

/-!
# Simulations

A whole transfer in memory: a client sends a recognizable payload and closes, a server receives it,
and both transfer logs are audited.
-/

namespace StopWait

open Link

/-- How to run a simulation. -/
structure Simulation where
  /-- The number of bytes that the client sends. -/
  bytes : Nat := 20000
  /-- The delay of every datagram in milliseconds, if there is one. -/
  latency : Option Nat := none
deriving DecidableEq, Repr

namespace Simulation

/-- The port of the client. -/
def clientPort : UInt16 := 0xcafe

/-- The port of the server. -/
def serverPort : UInt16 := 0xbeef

/-- The payload: the letters from a to z, over and over. -/
def payload (len : Nat) : List UInt8 := (List.range len).map fun i => UInt8.ofNat (97 + i % 26)

/-- No payload of this many bytes or more can be held. -/
def sizeLimit : Nat := 9223372036854775808

/-- Why a simulation failed. -/
inductive Failure where
  /-- The payload is too large to be held. -/
  | oversized
  /-- A run ended with an error. -/
  | session (e : Session.Error)
  /-- The client's application failed. -/
  | stack (e : Call.Failure)
  /-- A transfer log could not be read. -/
  | log (e : Log.Error)
  /-- What arrived is not what was sent. -/
  | corrupted (sent received : Nat)
  /-- The simulation did not come to an end. -/
  | stalled
deriving DecidableEq, Repr

/-- The wording of a failure. -/
def Failure.message : Failure → String
  | .oversized => "capacity overflow"
  | .session e => e.message
  | .stack e => e.message
  | .log e => e.message
  | .corrupted n m => s!"Sent {n} bytes but {m} arrived intact"
  | .stalled => "The simulation did not come to an end"

/-- The world of a simulation. -/
def world (s : Simulation) : World where
  link := .new (match s.latency with | some ms => .latent ms | none => .reliable) none none
  apps := ⟨{ script := [.call (.write (payload s.bytes)), .call .close] }, {}⟩
  hosts :=
    ⟨{ driver := .session
        ((Session.new { localPort := clientPort, remotePort := serverPort } .active).withLog {})
        1 [] },
     { driver := .session
        ((Session.new { localPort := serverPort, remotePort := clientPort } .passive).withLog {})
        1 [] }⟩

/-- What a simulation has come to. -/
structure Report where
  /-- The number of bytes delivered. -/
  delivered : Nat
  /-- The time it took, in milliseconds. -/
  elapsed : Nat
  /-- The client's transfer log. -/
  clientLog : List UInt8
  /-- The server's transfer log. -/
  serverLog : List UInt8
  /-- The lines of the client's log that the audit reports. -/
  clientMismatches : List Log.Mismatch
  /-- The lines of the server's log that the audit reports. -/
  serverMismatches : List Log.Mismatch
deriving DecidableEq, Repr

/-- Whether both logs passed the audit. -/
def Report.passed (r : Report) : Bool := r.clientMismatches.isEmpty && r.serverMismatches.isEmpty

/-- The result of the only run at an end. -/
def runResult (w : World) (side : Side) : Except Failure Unit :=
  match (w.hosts.get side).driver with
  | .session _ _ (.ok () :: _) => .ok ()
  | .session _ _ (.error e :: _) => .error (.session e)
  | _ => .error .stalled

/-- Whether the client's application was answered well throughout. -/
def feedResult : List AppReply → Except Failure Unit
  | [] => .ok ()
  | .failed e :: _ => .error (.stack e)
  | _ :: rest => feedResult rest

/-- The transfer log at an end. -/
def logAt (w : World) (side : Side) : List UInt8 :=
  match (w.hosts.get side).driver.session? with
  | some s => s.connection.log.contents
  | none => []

/-- The bytes that the application at an end has been told. -/
def receivedAt (w : World) (side : Side) : List UInt8 :=
  (AppCall.gather [] (w.link.ends.get side).events).reverse.flatten

/-- The mismatches of a transfer log. -/
def auditText (text : List UInt8) : Except Failure (List Log.Mismatch) :=
  match Log.read text with
  | .ok records => .ok (Log.audit records)
  | .error e => .error (.log e)

/-- The report on a world that has come to its end. -/
def inspect (s : Simulation) (w : World) : Except Failure Report := do
  runResult w .near
  runResult w .far
  feedResult w.apps.near.answers
  let received := receivedAt w .far
  if received ≠ payload s.bytes then throw (.corrupted s.bytes received.length)
  let clientMismatches ← auditText (logAt w .near)
  let serverMismatches ← auditText (logAt w .far)
  return { delivered := received.length, elapsed := w.link.now, clientLog := logAt w .near,
           serverLog := logAt w .far, clientMismatches, serverMismatches }

/-- Runs a simulation to its end. -/
def run (s : Simulation) : Except Failure Report :=
  if s.bytes < sizeLimit then s.inspect (s.world.play none) else .error .oversized

end Simulation

end StopWait
