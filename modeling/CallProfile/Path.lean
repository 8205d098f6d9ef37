import CallProfile.Text.Blank

/-! # Paths

A path is a list of names below a root or below wherever one stands. Empty names and `.`
mean nothing and are dropped; `..` stays until the path is resolved.
-/

namespace CallProfile

/-- A path. Its root is empty, one slash or two slashes. -/
structure Path where
  root : String
  names : List String
  deriving Repr, DecidableEq

namespace Path

def namesOf (s : List Char) : List String :=
  ((s.splitOn '/').map String.ofList).filter fun name => name ≠ "" && name ≠ "."

/-- The path that a text spells. Two slashes at the start are a root of their own; three
    are as good as one. -/
def ofString (s : String) : Path :=
  let slashes := (s.toList.takeWhile (· = '/')).length
  { root := if slashes = 0 then "" else if slashes = 2 then "//" else "/"
    names := namesOf s.toList }

def toString (p : Path) : String :=
  let names := "/".intercalate p.names
  if p.root = "" && p.names.isEmpty then "." else p.root ++ names

instance : ToString Path := ⟨toString⟩

def isAbsolute (p : Path) : Bool :=
  p.root ≠ ""

/-- A path taken from another one, on which it does not depend when it is absolute. -/
def join (base p : Path) : Path :=
  if p.isAbsolute then p else { base with names := base.names ++ p.names }

/-- A path with a name added to it. -/
def child (p : Path) (name : String) : Path :=
  p.join (ofString name)

/-- Go from a directory to another by a name. -/
def step (names : List String) (name : String) : List String :=
  if name = ".." then names.dropLast else names ++ [name]

/-- The absolute path without `..` that a path spells from a directory. -/
def resolve (cwd p : Path) : Path where
  root := "/"
  names := (cwd.join p).names.foldl step []

def name (p : Path) : String :=
  p.names.getLast?.getD ""

/-- The ending of the last name, from its last point on. A point at either end of the
    name starts no ending. -/
def ending (p : Path) : String :=
  let name := p.name.toList
  let tail := (name.reverse.takeWhile (· ≠ '.')).reverse
  let point := name.length - tail.length
  if tail.isEmpty || point ≤ 1 then "" else String.ofList ('.' :: tail)

/-- The path that a user's text means. Blank texts and `null` mean none. -/
def ofUser? (text : String) : Option Path :=
  let text := Text.trim text.toList
  if text.isEmpty || text.map Char.toLower = "null".toList then none
  else some (ofString (String.ofList text))

/-- Whether a text can name an entry of a directory, or the directory above it. -/
def IsName (name : String) : Prop :=
  name ≠ "" ∧ name ≠ "." ∧ '/' ∉ name.toList

instance (name : String) : Decidable (IsName name) :=
  inferInstanceAs (Decidable (_ ∧ _ ∧ _))

/-- Whether a path starts at the root and has no idle names. -/
structure IsClean (p : Path) : Prop where
  root : p.root = "/"
  isName : ∀ name ∈ p.names, IsName name

end Path

end CallProfile
