import StopWait.Header
import StopWait.Shell.Address
import StopWait.Text.Numeral

/-!
# Arguments

The command line: flags that may stand before or after the command, a command, and its options. An
option takes its value after `=` or as the next word, which may not begin with a dash unless it is
a lone one; `--` ends the options. A flag or option may be given once at each level. The arguments
are read from left to right, so that a wish for help or version hides every fault after it and none
before.
-/

namespace StopWait.Shell

/-- A command with its settings. -/
inductive Command where
  /-- Wait for a connection. -/
  | listen (bind : Address) (transferLog : Option String) (timeout : Option Nat)
  /-- Connect to a listener. -/
  | connect (peer bind : Address) (transferLog : Option String) (timeout : Option Nat)
  /-- Run a simulation. -/
  | simulate (bytes : Nat) (latency : Option Nat) (logDir : String)
  /-- Audit transfer logs. -/
  | validate (files : List String)
deriving DecidableEq, Repr

/-- A command line that asks for something to be done. -/
structure Arguments where
  /-- Whether diagnostics go to a file. -/
  log : Bool
  /-- Whether more diagnostics are shown. -/
  verbose : Bool
  /-- The command. -/
  command : Command
deriving DecidableEq, Repr

/-- What a command line asks for. -/
inductive Invocation where
  /-- Its version. -/
  | version
  /-- A summary of its usage. -/
  | help
  /-- A command. -/
  | run (arguments : Arguments)
deriving DecidableEq, Repr

/-- Why a command line is refused. -/
inductive ArgumentError where
  /-- An argument that has no meaning here. -/
  | unexpected (argument : String)
  /-- A flag or option that is given twice. -/
  | repeated (name : String)
  /-- An option without its value. -/
  | missingValue (name : String)
  /-- A value that the option does not take, or a value for a flag. -/
  | invalidValue (name value : String)
  /-- An option or command that is required. -/
  | missing (name : String)
deriving DecidableEq, Repr

/-- The wording of an argument error. -/
def ArgumentError.message : ArgumentError → String
  | .unexpected a => s!"error: unexpected argument '{a}' found"
  | .repeated n => s!"error: the argument '{n}' cannot be used multiple times"
  | .missingValue n => s!"error: a value is required for '{n}' but none was supplied"
  | .invalidValue n v => s!"error: invalid value '{v}' for '{n}'"
  | .missing n => s!"error: the following required argument was not provided: {n}"

/-- Reads a 64-bit number. -/
def readNumber? (s : String) : Option Nat :=
  match Text.readNumeral 10 lengthLimit s.toList with
  | .ok n => some n
  | .error _ => none

/-- The value of an option. -/
inductive Value where
  /-- An address with its port. -/
  | address (a : Address)
  /-- A number. -/
  | number (n : Nat)
  /-- A path, which is not empty. -/
  | path (s : String)
deriving DecidableEq, Repr

/-- What the value of an option has to be. -/
inductive ValueKind where
  | address
  | number
  | path
deriving DecidableEq, Repr

/-- Reads a value of a kind. -/
def ValueKind.read? (kind : ValueKind) (s : String) : Option Value :=
  match kind with
  | .address => (Address.parse? s).map .address
  | .number => (readNumber? s).map .number
  | .path => if s.isEmpty then none else some (.path s)

/-- What may stand at a level of the command line. -/
structure Level where
  /-- The options, and what their values have to be. -/
  options : List (String × ValueKind) := []
  /-- The commands. -/
  commands : List String := []
  /-- Whether there are operands, which are paths. -/
  operands : Bool := false
  /-- Whether the version can be asked for. -/
  version : Bool := false
deriving DecidableEq, Repr

/-- What has been read at a level. -/
structure Found where
  /-- The flags. -/
  flags : List String := []
  /-- The options with their values, the latest first. -/
  values : List (String × Value) := []
  /-- The operands, the latest first. -/
  operands : List String := []
deriving DecidableEq, Repr

/-- How a level ends. -/
inductive LevelEnd where
  /-- With the command line. -/
  | plain (found : Found)
  /-- With a command, and the arguments after it. -/
  | command (found : Found) (name : String) (rest : List String)
  /-- With a wish for the version. -/
  | version
  /-- With a wish for help. -/
  | help
deriving DecidableEq, Repr

namespace Level

/-- Notes a flag. -/
def flag (found : Found) (name : String) : Except ArgumentError Found :=
  if found.flags.contains name then .error (.repeated name)
  else .ok { found with flags := name :: found.flags }

/-- Notes an option with its value. -/
def option (found : Found) (name : String) (kind : ValueKind) (value : String) :
    Except ArgumentError Found :=
  if (found.values.lookup name).isSome then .error (.repeated name)
  else
    match kind.read? value with
    | some v => .ok { found with values := (name, v) :: found.values }
    | none => .error (.invalidValue name value)

/-- Notes an operand. -/
def operand (level : Level) (found : Found) (a : String) : Except ArgumentError Found :=
  if level.operands then
    if a.isEmpty then .error (.invalidValue "<FILES>..." a)
    else .ok { found with operands := a :: found.operands }
  else .error (.unexpected a)

/-- Splits a long argument at its first `=`. -/
def splitLong (a : String) : String × Option String :=
  match a.toList.span (· ≠ '=') with
  | (name, _ :: value) => (String.ofList name, some (String.ofList value))
  | (name, []) => (String.ofList name, none)

/-- Whether a word may be the value of an option. -/
def isValue (a : String) : Bool := a = "-" || !a.startsWith "-"

/-- What a cluster of short flags comes to: the flags, or the first wish for version or help. -/
def cluster (level : Level) (found : Found) :
    List Char → Except ArgumentError (Except LevelEnd Found)
  | [] => .ok (.ok found)
  | 'l' :: cs => do cluster level (← flag found "--log") cs
  | 'v' :: cs => do cluster level (← flag found "--verbose") cs
  | 'V' :: cs =>
    if level.version then .ok (.error .version)
    else .error (.unexpected (String.ofList ('V' :: cs)))
  | 'h' :: _ => .ok (.error .help)
  | cs => .error (.unexpected (String.ofList cs))

/-- What a long argument without its own rule for the next word comes to. -/
def long (level : Level) (found : Found) (name : String) (value : Option String) :
    Except ArgumentError (Except LevelEnd Found) :=
  match value with
  | some v =>
    match level.options.lookup name with
    | some kind => do return .ok (← option found name kind v)
    | none => .error (.invalidValue name v)
  | none =>
    if name = "--log" ∨ name = "--verbose" then do return .ok (← flag found name)
    else if name = "--version" ∧ level.version then .ok (.error .version)
    else if name = "--help" then .ok (.error .help)
    else .error (.unexpected name)

/-- Takes all arguments as operands. -/
def rest (level : Level) (found : Found) : List String → Except ArgumentError LevelEnd
  | [] => .ok (.plain found)
  | a :: as => do rest level (← level.operand found a) as

/-- Reads the arguments of a level. -/
def read (level : Level) (found : Found) : List String → Except ArgumentError LevelEnd
  | [] => .ok (.plain found)
  | a :: as =>
    if a = "--" then level.rest found as
    else if a.startsWith "--" then
      match splitLong a, as with
      | (name, none), v :: as =>
        match level.options.lookup name with
        | some kind =>
          if isValue v then do read level (← option found name kind v) as
          else .error (.missingValue name)
        | none =>
          match level.long found name none with
          | .ok (.ok found) => read level found (v :: as)
          | .ok (.error stop) => .ok stop
          | .error e => .error e
      | (name, value), as =>
        if value.isNone && (level.options.lookup name).isSome then .error (.missingValue name)
        else
          match level.long found name value with
          | .ok (.ok found) => read level found as
          | .ok (.error stop) => .ok stop
          | .error e => .error e
    else if a.startsWith "-" && a ≠ "-" then
      match level.cluster found (a.toList.drop 1) with
      | .ok (.ok found) => read level found as
      | .ok (.error stop) => .ok stop
      | .error e => .error e
    else if level.commands.contains a then .ok (.command found a as)
    else do read level (← level.operand found a) as

end Level

namespace Found

/-- The address that an option gives. -/
def address? (found : Found) (name : String) : Option Address :=
  match found.values.lookup name with
  | some (.address a) => some a
  | _ => none

/-- The address that an option gives, which is required. -/
def address (found : Found) (name : String) : Except ArgumentError Address :=
  match found.address? name with
  | some a => .ok a
  | none => .error (.missing name)

/-- The number that an option gives. -/
def number? (found : Found) (name : String) : Option Nat :=
  match found.values.lookup name with
  | some (.number n) => some n
  | _ => none

/-- The path that an option gives. -/
def path? (found : Found) (name : String) : Option String :=
  match found.values.lookup name with
  | some (.path s) => some s
  | _ => none

end Found

namespace Command

/-- The commands. -/
def names : List String := ["listen", "connect", "simulate", "validate", "help"]

/-- What may stand after a command. -/
def level (name : String) : Level :=
  match name with
  | "listen" =>
    { options := [("--bind", .address), ("--transfer-log", .path), ("--timeout", .number)] }
  | "connect" =>
    { options := [("--peer", .address), ("--bind", .address), ("--transfer-log", .path),
        ("--timeout", .number)] }
  | "simulate" =>
    { options := [("--bytes", .number), ("--latency-ms", .number), ("--log-dir", .path)] }
  | _ => { operands := true }

/-- The address that a connecting end binds by default: any, and any port. -/
def anyAddress : Address := .v4 [0, 0, 0, 0] 0

/-- The command that a name and what was found after it make. -/
def ofFound (name : String) (found : Found) : Except ArgumentError Command := do
  match name with
  | "listen" =>
    return .listen (← found.address "--bind") (found.path? "--transfer-log")
      (found.number? "--timeout")
  | "connect" =>
    return .connect (← found.address "--peer") ((found.address? "--bind").getD anyAddress)
      (found.path? "--transfer-log") (found.number? "--timeout")
  | "simulate" =>
    return .simulate ((found.number? "--bytes").getD 20000) (found.number? "--latency-ms")
      ((found.path? "--log-dir").getD ".")
  | _ =>
    match found.operands.reverse with
    | [] => throw (.missing "<FILES>...")
    | files => return .validate files

end Command

/-- What a wish for help with commands comes to: no command has commands of its own. -/
def helpAbout : List String → Except ArgumentError Invocation
  | [] => .ok .help
  | name :: rest =>
    if Command.names.contains name then
      match rest with
      | [] => .ok .help
      | other :: _ => .error (.unexpected other)
    else .error (.unexpected name)

/-- Reads a command line. -/
def parseArguments (args : List String) : Except ArgumentError Invocation := do
  let top : Level := { commands := Command.names, version := true }
  match ← top.read {} args with
  | .version => return .version
  | .help => return .help
  | .plain _ => throw (.missing "<COMMAND>")
  | .command _ "help" rest => helpAbout rest
  | .command outer name rest =>
    match ← (Command.level name).read {} rest with
    | .version => return .version
    | .help => return .help
    | .command _ other _ => throw (.unexpected other)
    | .plain inner =>
      let given (flag : String) : Bool := outer.flags.contains flag || inner.flags.contains flag
      return .run ⟨given "--log", given "--verbose", ← Command.ofFound name inner⟩

end StopWait.Shell
