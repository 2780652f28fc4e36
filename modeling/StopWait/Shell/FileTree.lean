import StopWait.Shell.Files

/-!
# Trees of files

A tree of files in memory with a working directory, and the operations on it. A text is looked up
name by name: one dot stands for the directory itself and two for the one above it, what is entered
on the way must be a directory, and a slash at the end asks for a directory.

* `FileTree.locate`: the place that a text names.
* `FileTree.files`: the operations on a tree.
-/

namespace StopWait.Shell

/-- A path from the root of a tree, without dots. -/
abbrev Path : Type := List String

/-- What there is at a path. -/
inductive Node where
  /-- A directory. -/
  | directory
  /-- A file with its contents. -/
  | file (bytes : List UInt8)
deriving DecidableEq, Repr

/-- A tree of files. -/
structure FileTree where
  /-- The files and their contents. -/
  entries : List (Path × List UInt8) := []
  /-- The directories, without the root. -/
  directories : List Path := []
  /-- The working directory. -/
  home : Path := []
deriving DecidableEq, Repr

/-- The place that a text names. -/
inductive Place where
  /-- A directory, which is there. -/
  | directory (path : Path)
  /-- A name in a directory that is there, and whether a slash follows it. -/
  | entry (path : Path) (slash : Bool)
deriving DecidableEq, Repr

namespace FileTree

/-- The most bytes that a name may have. -/
def longestName : Nat := 255

/-- The most bytes that a text may have. -/
def longestText : Nat := 4095

/-- What there is at a path. -/
def node? (t : FileTree) (p : Path) : Option Node :=
  if p.isEmpty || t.directories.contains p then some .directory
  else (t.entries.lookup p).map .file

/-- What there is at a path whose last name was just looked up. -/
def lookUp (t : FileTree) (p : Path) : Except FileError (Option Node) :=
  if (p.getLastD "").utf8ByteSize ≤ longestName then .ok (t.node? p) else .error .nameTooLong

/-- Goes from a directory to the one with a name. -/
def enter (t : FileTree) (p : Path) (name : String) : Except FileError Path :=
  if name = "" ∨ name = "." then .ok p
  else if name = ".." then .ok p.dropLast
  else
    match t.lookUp (p ++ [name]) with
    | .error e => .error e
    | .ok none => .error .notFound
    | .ok (some (.file _)) => .error .notDirectory
    | .ok (some .directory) => .ok (p ++ [name])

/-- The place that names lead to from a directory. -/
def locateFrom (t : FileTree) (slash : Bool) (p : Path) : List String → Except FileError Place
  | [] => .ok (.directory p)
  | [name] =>
    if name = "." ∨ name = ".." then (t.enter p name).map .directory
    else .ok (.entry (p ++ [name]) slash)
  | name :: rest =>
    match t.enter p name with
    | .error e => .error e
    | .ok p => t.locateFrom slash p rest

/-- The place that a text names. All but its last name must lead through directories. -/
def locate (t : FileTree) (s : String) : Except FileError Place :=
  if s.isEmpty then .error .notFound
  else if longestText < s.utf8ByteSize then .error .nameTooLong
  else
    let names := ((s.splitOn "/").reverse.dropWhile (· = "")).reverse
    t.locateFrom (s.endsWith "/") (if s.startsWith "/" then [] else t.home) names

/-- Makes one directory, unless there is one. -/
def makeDirectory (t : FileTree) (s : String) : Except FileError FileTree := do
  match ← t.locate s with
  | .directory _ => return t
  | .entry p _ =>
    match ← t.lookUp p with
    | some .directory => return t
    | some (.file _) => throw .exists
    | none => return { t with directories := t.directories ++ [p] }

/-- Puts bytes into the file at a path. -/
def put (t : FileTree) (p : Path) (bytes : List UInt8) : FileTree :=
  if (t.entries.lookup p).isSome then
    { t with entries := t.entries.map fun (q, old) => (q, if q = p then bytes else old) }
  else { t with entries := t.entries ++ [(p, bytes)] }

/-- The path of the file that a text names, to be written. It may be missing. -/
def target (t : FileTree) (s : String) : Except FileError Path := do
  match ← t.locate s with
  | .directory _ => throw .isDirectory
  | .entry _ true => throw .isDirectory
  | .entry p false =>
    match ← t.lookUp p with
    | some .directory => throw .isDirectory
    | _ => return p

/-- What a text names, to be read. -/
def source (t : FileTree) (s : String) : Except FileError Node := do
  match ← t.locate s with
  | .directory _ => return .directory
  | .entry p slash =>
    match ← t.lookUp p with
    | none => throw .notFound
    | some .directory => return .directory
    | some (.file bytes) => if slash then throw .notDirectory else return .file bytes

/-- The operations on a tree of files. -/
def files : Files (StateM FileTree) where
  makeDirectory s := do
    match (← get).makeDirectory s with
    | .ok t => set t; return .ok ()
    | .error e => return .error e
  create s := do
    let t ← get
    match t.target s with
    | .ok p => set (t.put p []); return .ok ()
    | .error e => return .error e
  write s bytes := modify fun t =>
    match t.target s with
    | .ok p => t.put p bytes
    | .error _ => t
  openFile s := return ((← get).source s).map fun _ => ()
  readFile s := do
    match (← get).source s with
    | .ok (.file bytes) => return .ok bytes
    | .ok .directory => return .error .isDirectory
    | .error e => return .error e

/-- The directories at the root of a system. -/
def systemDirectories : List String :=
  ["bin", "dev", "etc", "home", "lib", "opt", "proc", "root", "run", "sbin", "srv", "sys", "tmp",
    "usr", "var"]

/-- A tree with nothing but the system's directories and an empty device, in which a directory for
temporary files is the working one. -/
def system : FileTree where
  entries := [(["dev", "null"], [])]
  directories := systemDirectories.map ([·]) ++ [["tmp", "work"]]
  home := ["tmp", "work"]

/-- Makes a file with its contents, and the directories above it. -/
def plant (name : String) (bytes : List UInt8) : StateM FileTree Unit := do
  discard (files.makeChain (textsAbove name))
  discard (files.create name)
  files.write name bytes

/-- The system's tree with these directories and files in the working directory. -/
def ofHome (directories : List String) (entries : List (String × List UInt8)) : FileTree :=
  let build : StateM FileTree Unit := do
    directories.forM fun s => discard (files.makeAll s)
    entries.forM fun (s, bytes) => plant s bytes
  (build.run system).2

/-- The files below the working directory, by their paths from there. -/
def homeEntries (t : FileTree) : List (Path × List UInt8) :=
  t.entries.filterMap fun (p, bytes) =>
    if t.home.isPrefixOf p then some (p.drop t.home.length, bytes) else none

/-- The text that names a path from the working directory. -/
def pathText (p : Path) : String := "/".intercalate p

end FileTree

end StopWait.Shell
