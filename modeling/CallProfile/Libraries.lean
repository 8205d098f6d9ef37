import CallProfile.Fault

/-! # Libraries

What runs leave to libraries: the configuration, documents in YAML and Markdown, and the way
from records to plain data and back. None of them is defined here. A run takes them as they
come, and what is relied on of them is said beside them.
-/

namespace CallProfile

/-! ## Records as data -/

/-- A value of a program: a record, or what its fields hold. -/
inductive Value where
  | null
  | text (s : String)
  | int (n : Int)
  | real (x : Float)
  | list (items : List Value)
  | record (fields : List (String × Value))

/-- A type of values. -/
inductive Shape where
  | text
  | int
  | real
  /-- A type with null besides. -/
  | optional (shape : Shape)
  | list (item : Shape)
  /-- Records with the given fields, each with its type and the value that it has by default. -/
  | record (fields : List (String × Shape × Option Value))

/-- How values become data and are made from data again. -/
structure Converter where
  toData : Value → Datum
  ofData : Shape → Datum → Except Fault Value

namespace Converter

/-- A field of a record that is made from the members of a mapping. -/
def field (c : Converter) (members : List (Datum × Datum)) (f : String × Shape × Option Value) :
    Except Fault (String × Value) :=
  match Datum.lookup? f.1 members, f.2.2 with
  | some d, _ => (c.ofData f.2.1 d).map (f.1, ·)
  | none, some value => .ok (f.1, value)
  | none, none => .error .wrongType

/-- What is relied on of a converter. Primitive values stay as they are, lists are converted item
    by item, and a record is a mapping from the names of its fields. -/
structure IsStandard (c : Converter) : Prop where
  toData_null : c.toData .null = .null
  toData_text : ∀ s, c.toData (.text s) = .text s
  toData_int : ∀ n, c.toData (.int n) = .int n
  toData_real : ∀ x, c.toData (.real x) = .real x
  toData_list : ∀ items, c.toData (.list items) = .list (items.map c.toData)
  toData_record : ∀ fields, c.toData (.record fields) =
    .map (fields.map fun f => (.text f.1, c.toData f.2))
  ofData_text : ∀ s, c.ofData .text (.text s) = .ok (.text s)
  ofData_int : ∀ n, c.ofData .int (.int n) = .ok (.int n)
  ofData_real : ∀ x, c.ofData .real (.real x) = .ok (.real x)
  ofData_null : ∀ shape, c.ofData (.optional shape) .null = .ok .null
  ofData_optional : ∀ shape d, d ≠ .null → c.ofData (.optional shape) d = c.ofData shape d
  ofData_list : ∀ shape items values, items.mapM (c.ofData shape) = .ok values →
    c.ofData (.list shape) (.list items) = .ok (.list values)
  ofData_record : ∀ fields members values, fields.mapM (c.field members) = .ok values →
    c.ofData (.record fields) (.map members) = .ok (.record values)

end Converter

/-! ## Documents and configurations -/

/-- A block of a Markdown document. -/
inductive Markdown.Block where
  | header (level : Nat) (title : String)
  | list (items : List String)
  | paragraph (text : String)
  /-- A table with a row of titles above the others. -/
  | table (titles : List String) (rows : List (List String))
  deriving Repr, DecidableEq

/-- The libraries of a run. Configurations are values of a type of theirs. -/
structure Libraries (κ : Type) where
  /-- The packaged configuration with changes made to it. -/
  compose : List String → Except Fault κ
  /-- Change the value of a setting in a group. -/
  update : κ → (group name : String) → Datum → Except Fault κ
  /-- The value of a setting in a group, which must have one. -/
  setting : κ → (group name : String) → Except Fault Datum
  /-- The value of a setting in a group, null when it has none. -/
  settingOrNull : κ → (group name : String) → Except Fault Datum
  /-- A configuration as a YAML document. -/
  configText : κ → Except Fault String
  /-- Plain data as a YAML document. -/
  dataText : Datum → Except Fault String
  /-- The data in a YAML document. -/
  readYaml : String → Except Fault Datum
  /-- The path of the file that a Markdown document is written to. -/
  documentPath : String → String
  documentText : List Markdown.Block → String
  converter : Converter

/-- Whether a value is neither made of parts nor a reference to another setting, nor the mark of
    a setting without a value. -/
def Datum.isLiteral : Datum → Bool
  | .text s => s ≠ "???" && !Text.occurs "$\x7b".toList s.toList
  | .list _ => false
  | .tuple _ => false
  | .map _ => false
  | .other .. => false
  | _ => true

namespace Libraries

variable {κ : Type}

/-- What is relied on of configurations, where `held` tells what stands at a setting before any
    reference is followed. A literal is what is found there, and a setting that is there can be
    changed without a change of any other. -/
structure KeepsSettings (lib : Libraries κ) (held : κ → String → String → Option Datum) : Prop where
  setting : ∀ {c group name d}, held c group name = some d → d.isLiteral →
    lib.setting c group name = .ok d
  settingOrNull : ∀ {c group name d}, held c group name = some d → d.isLiteral →
    lib.settingOrNull c group name = .ok d
  update : ∀ {c group name d c'}, (held c group name).isSome → d.isLiteral →
    lib.update c group name d = .ok c' → ∀ g n,
      held c' g n = if g = group ∧ n = name then some d else held c g n

/-- What is relied on of the names of Markdown documents: they end in `.md`. -/
def NamesDocuments (lib : Libraries κ) : Prop :=
  ∀ base, base.endsWith ".md" = false → lib.documentPath base = base ++ ".md"

end Libraries

end CallProfile
