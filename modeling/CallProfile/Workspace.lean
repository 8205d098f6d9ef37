import CallProfile.Files

/-! # Workspaces

The files and directories that a run sees, and the directory it works in. There are no
links, so a path leads where its names say. A file lies in a directory that is there.
-/

namespace CallProfile

/-- What stands at a place. -/
inductive Entry where
  | file (bytes : List UInt8)
  | directory
  deriving Repr, DecidableEq

/-- A tree of files, with the directory that relative paths start from. -/
structure Workspace where
  cwd : List String
  /-- The entries by their names from the root down. The root and the directory that relative
      paths start from are directories, listed or not. -/
  entries : List (List String × Entry)
  deriving Repr

namespace Workspace

/-- The directory that relative paths start from, as a path. -/
def cwdPath (w : Workspace) : Path where
  root := "/"
  names := w.cwd

def entry? (w : Workspace) (place : List String) : Option Entry :=
  if place = [] ∨ place = w.cwd then some .directory else w.entries.lookup place

def put (w : Workspace) (place : List String) (entry : Entry) : Workspace :=
  { w with entries := w.entries.filter (·.1 ≠ place) ++ [(place, entry)] }

/-- Go from a place along names. Every place on the way must be a directory. -/
def follow (w : Workspace) (place : List String) :
    List String → Except FileProblem (List String)
  | [] => .ok place
  | name :: names =>
      match w.entry? place with
      | some .directory => follow w (Path.step place name) names
      | some (.file _) => .error .notDirectory
      | none => .error .missing

/-- The place that a path leads to. -/
def locate (w : Workspace) (p : Path) : Except FileProblem (List String) :=
  w.follow (if p.isAbsolute then [] else w.cwd) p.names

def read (w : Workspace) (path : String) : Except FileProblem (List UInt8) := do
  match w.entry? (← w.locate (Path.ofString path)) with
  | some (.file bytes) => return bytes
  | some .directory => throw .directory
  | none => throw .missing

/-- Write a file at a path, in the place of one that is there. -/
def write (w : Workspace) (path : String) (bytes : List UInt8) :
    Except FileProblem Workspace := do
  let place ← w.locate (Path.ofString path)
  match w.entry? place with
  | some .directory => throw .directory
  | _ => return w.put place (.file bytes)

/-- Make an empty file at a path unless there is one. -/
def openLog (w : Workspace) (path : String) : Except FileProblem Workspace :=
  match w.read path with
  | .ok _ => .ok w
  | .error _ => w.write path []

/-- Make a directory where nothing stands. -/
def makeOne (w : Workspace) (place : List String) : Workspace :=
  match w.entry? place with
  | none => w.put place .directory
  | some _ => w

/-- The places on the way to a place, the place itself last. -/
def way (place : List String) : List (List String) :=
  (List.range place.length).map fun n => place.take (n + 1)

def isFile (w : Workspace) (place : List String) : Bool :=
  match w.entry? place with
  | some (.file _) => true
  | _ => false

/-- Make the directory at an absolute path, and those above it, unless they are there. -/
def makeDirectories (w : Workspace) (p : Path) : Except FileProblem Workspace :=
  if w.isFile p.names then .error .exists
  else if (way p.names).any w.isFile then .error .notDirectory
  else .ok ((way p.names).foldl makeOne w)

/-- Workspaces as the states of files. -/
def fileSystem : FileSystem Workspace where
  read := read
  write := write
  openLog := openLog
  makeDirectories := makeDirectories
  resolve _ p := .ok (Path.resolve { root := "/", names := [] } p)

/-- The names of a place below another. -/
def below? (base : List String) (place : List String) : Option (List String) :=
  if base.isPrefixOf place then some (place.drop base.length) else none

/-- The files below the working directory, by their names from there. -/
def files (w : Workspace) : List (List String × List UInt8) :=
  w.entries.filterMap fun e =>
    match e.2 with
    | .file bytes => (below? w.cwd e.1).map fun names => (names, bytes)
    | .directory => none

end Workspace

end CallProfile
