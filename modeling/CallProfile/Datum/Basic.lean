/-! # Data

The values found in symbol maps, reports and configurations, whatever the format of the
file they were read from. Mappings keep the order in which their keys came.
-/

namespace CallProfile

/-- A value read from a document or given for a field. -/
inductive Datum where
  | null
  | bool (b : Bool)
  | int (n : Int)
  | real (x : Float)
  | text (s : String)
  | bytes (b : List UInt8)
  | list (items : List Datum)
  | tuple (items : List Datum)
  | map (entries : List (Datum × Datum))
  /-- Any other value, such as a date or a set: how it is shown and written, whether a condition
      on it holds, whether it can be a key, and the parts that it has, if it has some. -/
  | other (shown plain : String) (holds isKey : Bool) (parts : Option (List Datum))
  deriving Inhabited

namespace Datum

def isText (name : String) : Datum → Bool
  | .text s => s = name
  | _ => false

/-- The value under a text key. -/
def lookup? (name : String) (entries : List (Datum × Datum)) : Option Datum :=
  (entries.find? fun e => e.1.isText name).map (·.2)

/-- Set the value under a text key: a key that is present keeps its place, a new one goes
    to the end. -/
def put (name : String) (value : Datum) : List (Datum × Datum) → List (Datum × Datum)
  | [] => [(.text name, value)]
  | (key, old) :: entries =>
      if key.isText name then (key, value) :: entries else (key, old) :: put name value entries

theorem lookup?_cons (name : String) (e : Datum × Datum) (entries : List (Datum × Datum)) :
    lookup? name (e :: entries) = if e.1.isText name then some e.2 else lookup? name entries := by
  rw [lookup?, List.find?_cons]
  cases e.1.isText name <;> rfl

theorem isText_iff {d : Datum} {name : String} : d.isText name = true ↔ d = .text name := by
  cases d <;> simp [isText]

theorem lookup?_text_cons (name other : String) (value : Datum) (entries : List (Datum × Datum)) :
    lookup? other ((.text name, value) :: entries) =
      if other = name then some value else lookup? other entries := by
  rw [lookup?_cons]
  by_cases same : other = name
  · rw [if_pos same, if_pos (isText_iff.2 (congrArg Datum.text same.symm))]
  · rw [if_neg same, if_neg fun here => same (Datum.text.inj (isText_iff.1 here)).symm]

/-- What is set under a text is found under it, and nothing else is changed. -/
theorem lookup?_put (name other : String) (value : Datum) (entries : List (Datum × Datum)) :
    lookup? other (put name value entries) =
      if other = name then some value else lookup? other entries := by
  induction entries with
  | nil => exact lookup?_text_cons name other value []
  | cons e entries ih =>
      obtain ⟨key, old⟩ := e
      rw [put]
      by_cases here : key.isText name = true
      · rw [if_pos here, isText_iff.1 here, lookup?_text_cons, lookup?_text_cons]
        by_cases same : other = name
        · rw [if_pos same, if_pos same]
        · rw [if_neg same, if_neg same, if_neg same]
      · rw [if_neg here, lookup?_cons, lookup?_cons, ih]
        by_cases same : other = name
        · rw [same, if_neg here, if_pos rfl, if_pos rfl]
        · rw [if_neg same, if_neg same]

/-- Whether a condition on the value holds: null, false, zero and everything empty do not. -/
def holds : Datum → Bool
  | .null => false
  | .bool b => b
  | .int n => n != 0
  | .real x => x != 0
  | .text s => s != ""
  | .bytes b => !b.isEmpty
  | .list items => !items.isEmpty
  | .tuple items => !items.isEmpty
  | .map entries => !entries.isEmpty
  | .other _ _ holds _ _ => holds

def isNull : Datum → Bool
  | .null => true
  | _ => false

theorem isNull_null : isNull .null = true :=
  rfl

theorem isNull_of_ne {d : Datum} (some : d ≠ .null) : d.isNull = false := by
  cases d <;> first | rfl | exact absurd rfl some

end Datum

end CallProfile
