import CallProfile.Fault
import CallProfile.Path

/-! # Files

What a run asks of the files around it. A file system says what comes of each operation in
each of its states. It may have links, rights and anything else, as long as it is steady.
-/

namespace CallProfile

/-- What comes of the operations on files, by the states that the files can be in. -/
structure FileSystem (σ : Type) where
  /-- The bytes of the file at a path. -/
  read : σ → String → Except FileProblem (List UInt8)
  /-- Write a file, in the place of one that is there. -/
  write : σ → String → List UInt8 → Except FileProblem σ
  /-- Open a file to add to it, which is made unless it is there. -/
  openLog : σ → String → Except FileProblem σ
  /-- Make a directory and those above it, unless they are there. -/
  makeDirectories : σ → Path → Except FileProblem σ
  /-- The absolute path without links and `..` that an absolute path leads to. -/
  resolve : σ → Path → Except Fault Path

namespace FileSystem

variable {σ : Type}

/-- What is relied on of files in every state. -/
structure IsSteady (fs : FileSystem σ) : Prop where
  clean : ∀ {s p q}, (∀ name ∈ p.names, Path.IsName name) → fs.resolve s p = .ok q →
    q.IsClean ∧ ".." ∉ q.names
  /-- A path that has been resolved leads to itself. -/
  settled : ∀ {s p q}, (∀ name ∈ p.names, Path.IsName name) → fs.resolve s p = .ok q →
    fs.resolve s q = .ok q
  /-- What is written is read back. -/
  written : ∀ {s path bytes s'}, fs.write s path bytes = .ok s' → fs.read s' path = .ok bytes
  /-- The working directory is no file. -/
  here : ∀ s, ∃ problem, fs.read s "." = .error problem
  kept_directories : ∀ {s p s' path bytes}, fs.makeDirectories s p = .ok s' →
    fs.read s path = .ok bytes → fs.read s' path = .ok bytes
  kept_log : ∀ {s log s' path bytes}, fs.openLog s log = .ok s' →
    fs.read s path = .ok bytes → fs.read s' path = .ok bytes

/-- Name the path of a problem with a file. -/
def named {α : Type} (path : String) : Except FileProblem α → Except Fault α
  | .ok x => .ok x
  | .error problem => .error (.file problem path)

/-- The bytes of the file at a path, or the fault of a reader that does not find them. -/
def bytes (fs : FileSystem σ) (s : σ) (path : String) : Except Fault (List UInt8) :=
  named path (fs.read s path)

def writeText (fs : FileSystem σ) (path text : String) (s : σ) : Except Fault σ :=
  named path (fs.write s path text.toUTF8.toList)

/-- The absolute path that a user's text means in a directory, if it means one. -/
def userPath? (fs : FileSystem σ) (s : σ) (cwd : Path) (text : String) :
    Except Fault (Option Path) :=
  match Path.ofUser? text with
  | none => .ok none
  | some p => (fs.resolve s (cwd.join p)).map some

end FileSystem

end CallProfile
