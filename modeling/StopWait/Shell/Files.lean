/-!
# Files

The files that a command works on, as operations on the texts that name them.

* `Files`: making a directory, truncating, writing and reading files.
* `Files.makeAll`: makes a directory together with those above it.
-/

namespace StopWait.Shell

/-- Why an operation on a file failed. -/
inductive FileError where
  /-- There is no such file. -/
  | notFound
  /-- There is such a file already. -/
  | exists
  /-- A directory on the path is a file. -/
  | notDirectory
  /-- The file is a directory. -/
  | isDirectory
  /-- A name or the whole text is too long. -/
  | nameTooLong
  /-- The system has another reason. -/
  | other (text : String)
deriving DecidableEq, Repr

/-- The wording of a file error. -/
def FileError.message : FileError → String
  | .notFound => "No such file or directory (os error 2)"
  | .exists => "File exists (os error 17)"
  | .notDirectory => "Not a directory (os error 20)"
  | .isDirectory => "Is a directory (os error 21)"
  | .nameTooLong => "File name too long (os error 36)"
  | .other text => text

/-- The text that names a file in a directory. -/
def joinText (directory name : String) : String :=
  if directory.endsWith "/" then directory ++ name else directory ++ "/" ++ name

/-- The texts that name the directories above what a text names, the nearest first. Dots and
doubled slashes do not count as steps. -/
def textsAbove (s : String) : List String :=
  let names := (s.splitOn "/").filter fun name => name ≠ "" ∧ name ≠ "."
  let origin := if s.startsWith "/" then "/" else ""
  ((List.range names.length).drop 1).reverse.map fun n =>
    origin ++ "/".intercalate (names.take n)

/-- What a command may do with files. -/
structure Files (m : Type → Type) where
  /-- Makes one directory, unless there is one. -/
  makeDirectory (path : String) : m (Except FileError Unit)
  /-- Opens a file for writing, which makes or empties it. -/
  create (path : String) : m (Except FileError Unit)
  /-- Puts bytes into a file that was created. -/
  write (path : String) (bytes : List UInt8) : m Unit
  /-- Opens a file for reading. -/
  openFile (path : String) : m (Except FileError Unit)
  /-- Reads a file that was opened. -/
  readFile (path : String) : m (Except FileError (List UInt8))

namespace Files

variable {m : Type → Type} [Monad m]

/-- Makes the first of some directories, each of which is above the one before it. Where it cannot
be made because those above it are missing, they are made first. -/
def makeChain (files : Files m) : List String → m (Except FileError Unit)
  | [] => return .ok ()
  | path :: above => do
    match ← files.makeDirectory path with
    | .error .notFound =>
      match ← files.makeChain above with
      | .ok () => files.makeDirectory path
      | .error e => return .error e
    | result => return result

/-- Makes a directory and those above it, unless it exists. -/
def makeAll (files : Files m) (path : String) : m (Except FileError Unit) :=
  files.makeChain (path :: textsAbove path)

end Files

end StopWait.Shell
