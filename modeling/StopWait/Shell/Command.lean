import StopWait.Session.Script
import StopWait.Shell.Arguments
import StopWait.Shell.Files
import StopWait.Shell.Host
import StopWait.Simulation

/-!
# Commands

What the commands do, on given files and on a host without network interfaces, where nothing ever
arrives.

* `Shell.run` runs a command line and says what it printed and how it exited.
-/

namespace StopWait.Shell

/-- What became of a command. -/
structure Outcome where
  /-- The exit code, or nothing if the command waits for ever. -/
  exit : Option Nat
  /-- What it printed. -/
  output : String
  /-- What it printed about an error. -/
  complaint : Option String
deriving DecidableEq, Repr

/-- The last line of a text. -/
def lastLine (text : String) : String := (text.splitOn "\n").getLastD ""

/-- The last line that was printed about an error. -/
def Outcome.lastComplaint (o : Outcome) : Option String := o.complaint.map lastLine

/-- Why a command failed. -/
inductive CommandError where
  /-- A session ended with an error. -/
  | session (e : Session.Error)
  /-- The stack could not be set up. -/
  | stack (e : Call.Failure)
  /-- A simulation failed. -/
  | simulation (e : Simulation.Failure)
  /-- A transfer log could not be read or written. -/
  | log (e : Log.Error)
  /-- A file or directory could not be made. -/
  | file (e : FileError)
  /-- This many lines did not pass the audit. -/
  | mismatches (n : Nat)
deriving DecidableEq, Repr

/-- The wording of a command error. -/
def CommandError.message : CommandError → String
  | .session e => e.message
  | .stack e => e.message
  | .simulation e => e.message
  | .log e => e.message
  | .file e => e.message
  | .mismatches n => s!"{n} line(s) did not match the window algorithm"

/-- The exit code of a command that failed. One whose payload does not fit breaks down. -/
def CommandError.exitCode : CommandError → Nat
  | .simulation .oversized => 101
  | _ => 1

/-- How a command ends. -/
inductive Ending where
  /-- Well. -/
  | success
  /-- With an error. -/
  | failure (e : CommandError)
  /-- Never. -/
  | never
deriving DecidableEq, Repr

variable {m : Type → Type} [Monad m]

/-- Runs one end of a connection whose stack answers by a script. The transfer log goes to the
conventional file of the role unless another is given. A listener whose wait has no end never
returns. -/
def serve (files : Files m) (role : Role) (settings : Settings) (script : Script) : m Ending := do
  let settings := if settings.logPath.isSome then settings else settings.withDefaultLog role
  let path := settings.logPath.getD role.logName
  match ← files.create path with
  | .error e => return .failure (.session (.log (.io e.message)))
  | .ok () =>
    let scene : Script.Scene :=
      { session := (Session.new settings role).withLog {}, stack := { script } }
    let scene := scene.run
    files.write path scene.session.drop.connection.log.contents
    match scene.session.result? with
    | some (.ok ()) => return .success
    | some (.error (.stack .disconnected)) => return .never
    | some (.error e) => return .failure (.session e)
    | none => return .never

/-- The steps of a wait in which nothing arrives. -/
def silence (timeout : Option Nat) : List Script.Step :=
  match timeout with
  | some _ => [.timeout]
  | none => []

/-- What becomes of the first send. -/
def sending (bind peer : Address) : List Script.Sending :=
  match Host.sendFault bind peer with
  | some e => [.fail e]
  | none => []

/-- Waits for a connection. -/
def listen (files : Files m) (bind : Address) (transferLog : Option String)
    (timeout : Option Nat) : m Ending :=
  match Host.bindFault bind with
  | some e => return .failure (.stack e)
  | none =>
    serve files .passive { localPort := bind.port, logPath := transferLog }
      { steps := silence timeout }

/-- Connects to a listener. -/
def connect (files : Files m) (peer bind : Address) (transferLog : Option String)
    (timeout : Option Nat) : m Ending :=
  match Host.bindFault bind with
  | some e => return .failure (.stack e)
  | none =>
    serve files .active
      { localPort := bind.port, remotePort := peer.port, logPath := transferLog }
      { steps := silence timeout, sends := sending bind peer }

/-- The ending of a command that found this many mismatches. -/
def endingOf (mismatches : Nat) : Ending :=
  if mismatches = 0 then .success else .failure (.mismatches mismatches)

/-- Runs a simulation and writes its transfer logs. -/
def simulate (files : Files m) (s : Simulation) (logDir : String) : m (String × Ending) := do
  let clientLog := joinText logDir Role.active.logName
  let serverLog := joinText logDir Role.passive.logName
  match ← files.makeAll logDir with
  | .error e => return ("", .failure (.file e))
  | .ok () =>
    match ← files.create clientLog with
    | .error e => return ("", .failure (.session (.log (.io e.message))))
    | .ok () =>
      match ← files.create serverLog with
      | .error e => return ("", .failure (.session (.log (.io e.message))))
      | .ok () =>
        match s.run with
        | .error e => return ("", .failure (.simulation e))
        | .ok r =>
          files.write clientLog r.clientLog
          files.write serverLog r.serverLog
          let mismatches := r.clientMismatches ++ r.serverMismatches
          let summary := s!"Delivered {r.delivered} bytes. Logs: {clientLog} {serverLog}\n"
          return (summary ++ String.join (mismatches.map fun x => x.message ++ "\n"),
            endingOf mismatches.length)

/-- The mismatches of the transfer log in a file. -/
def auditFile (files : Files m) (path : String) : m (Except Log.Error (List Log.Mismatch)) := do
  match ← files.openFile path with
  | .error e => return .error (.io e.message)
  | .ok () =>
    match ← files.readFile path with
    | .error e => return .error (.malformed e.message)
    | .ok bytes => return (Log.read bytes).map Log.audit

/-- What is printed about an audited file. -/
def verdictText (path : String) : List Log.Mismatch → String
  | [] => s!"{path}: ok\n"
  | mismatches => String.join (mismatches.map fun x => path ++ ": " ++ x.message ++ "\n")

/-- Audits transfer logs, after `output` was printed about files with `found` mismatches. -/
def validateFrom (files : Files m) (output : String) (found : Nat) :
    List String → m (String × Ending)
  | [] => return (output, endingOf found)
  | path :: rest => do
    match ← auditFile files path with
    | .error e => return (output, .failure (.log e))
    | .ok mismatches =>
      validateFrom files (output ++ verdictText path mismatches) (found + mismatches.length) rest

/-- Runs a command. -/
def execute (files : Files m) : Command → m (String × Ending)
  | .listen bind log timeout => do return ("", ← listen files bind log timeout)
  | .connect peer bind log timeout => do return ("", ← connect files peer bind log timeout)
  | .simulate bytes latency logDir => simulate files { bytes, latency } logDir
  | .validate paths => validateFrom files "" 0 paths

/-- The directory of the diagnostics. -/
def logsDirectory : String := "./logs"

/-- The outcome of what was printed and how it ended. -/
def outcomeOf (output : String) : Ending → Outcome
  | .success => ⟨some 0, output, none⟩
  | .failure e => ⟨some e.exitCode, output, some e.message⟩
  | .never => ⟨none, output, none⟩

/-- Runs a command after setting up diagnostics. -/
def runArguments (files : Files m) (a : Arguments) : m Outcome := do
  let ready ← if a.log then files.makeAll logsDirectory else pure (.ok ())
  match ready with
  | .error e => return ⟨some 1, "", some s!"Could not set up logging: {e.message}"⟩
  | .ok () =>
    let (output, ending) ← execute files a.command
    return outcomeOf output ending

/-- The usage in short. -/
def usage : String :=
  "A simplified TCP over UDP\n\nUsage: stcp [OPTIONS] <COMMAND>\n\n" ++
    "Commands: listen, connect, simulate, validate\n"

/-- Runs a command line. -/
def run (files : Files m) (args : List String) : m Outcome :=
  match parseArguments args with
  | .error e => return ⟨some 2, "", some e.message⟩
  | .ok .version => return ⟨some 0, "stcp 0.2.0\n", none⟩
  | .ok .help => return ⟨some 0, usage, none⟩
  | .ok (.run a) => runArguments files a

end StopWait.Shell
