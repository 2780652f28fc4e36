import StopWait.Shell.Command

/-!
# The program

Runs a command line on the files of the system.
-/

namespace StopWait.Shell

/-- The reason of a failed operation of the system. -/
def systemError (e : IO.Error) : FileError :=
  match e with
  | .noFileOrDirectory .. => .notFound
  | .alreadyExists .. => .exists
  | .inappropriateType _ 20 _ => .notDirectory
  | .inappropriateType _ 21 _ => .isDirectory
  | .invalidArgument _ 36 _ => .nameTooLong
  | e => .other (toString e)

/-- Does something to the files of the system and catches its failure. -/
def guarded {α : Type} (action : IO α) : IO (Except FileError α) := do
  try
    return .ok (← action)
  catch e =>
    return .error (systemError e)

/-- Opens a file of the system for reading, and lets it go. -/
def probe (path : String) : IO (Except FileError Unit) := guarded do
  let _ ← IO.FS.Handle.mk path .read

/-- Makes a directory of the system, unless there is one: only a directory has an entry for
itself. -/
def makeSystemDirectory (path : String) : IO (Except FileError Unit) := do
  match ← guarded (IO.FS.createDir path) with
  | .error .exists =>
    match ← probe (path ++ "/.") with
    | .ok () => return .ok ()
    | .error _ => return .error .exists
  | result => return result

/-- The operations on the files of the system. -/
def systemFiles : Files IO where
  makeDirectory := makeSystemDirectory
  create path := guarded (IO.FS.writeBinFile path ByteArray.empty)
  write path bytes := IO.FS.writeBinFile path (ByteArray.mk bytes.toArray)
  openFile := probe
  readFile path := guarded do
    return (← IO.FS.readBinFile path).toList

/-- Waits for ever. -/
partial def waitForEver : IO Unit := do
  IO.sleep 1000
  waitForEver

end StopWait.Shell

/-- Runs the command line. -/
def main (args : List String) : IO UInt32 := do
  let outcome ← StopWait.Shell.run StopWait.Shell.systemFiles args
  IO.print outcome.output
  if let some text := outcome.complaint then IO.eprintln text
  match outcome.exit with
  | some code => return UInt32.ofNat code
  | none =>
    StopWait.Shell.waitForEver
    return 0
