import CallProfile.Libraries
import CallProfile.StandIn.Config.Change
import CallProfile.StandIn.Markdown
import CallProfile.StandIn.Yaml.Value
import CallProfile.StandIn.Yaml.Writer

/-! # Libraries, stood in for

Libraries of our own, which do what runs need of the real ones in the usual cases. Nothing that is
shown of runs depends on them: runs work with any libraries, and these take their place where a
run is to take place.
-/

namespace CallProfile.StandIn

/-! ## Records as data -/

mutual

def toData : Value → Datum
  | .null => .null
  | .text s => .text s
  | .int n => .int n
  | .real x => .real x
  | .list items => .list (toDataList items)
  | .record fields => .map (toMembers fields)

def toDataList : List Value → List Datum
  | [] => []
  | item :: items => toData item :: toDataList items

def toMembers : List (String × Value) → List (Datum × Datum)
  | [] => []
  | (name, value) :: fields => (.text name, toData value) :: toMembers fields

end

/-- A document that does not fit a type. -/
def misfit : Fault :=
  .library { kind := "ClassValidationError", text := "not a value of the type", isTold := false }

/-- A value as a double. -/
def toReal? : Datum → Option Float
  | .real x => some x
  | .int n => Decimal.nearestInt? n
  | .bool b => some (if b then 1 else 0)
  | .text s => Decimal.read? s.toList
  | _ => none

mutual

/-- The value that data stand for. Numbers may be texts, texts may be anything, and a list may be a
    text or a mapping, which stands for its characters or its keys. -/
def ofData : Shape → Datum → Except Fault Value
  | .text, d => .ok (.text d.plain)
  | .int, d =>
      match d.toInt with
      | .ok n => .ok (.int n)
      | .error _ => .error misfit
  | .real, d =>
      match toReal? d with
      | some x => .ok (.real x)
      | none => .error misfit
  | .optional shape, d => if d.isNull then .ok .null else ofData shape d
  | .list shape, d =>
      match d with
      | .list items => (items.mapM (ofData shape)).map .list
      | .text s => (s.toList.mapM fun c => ofData shape (.text (String.singleton c))).map .list
      | .map members => (members.mapM fun m => ofData shape m.1).map .list
      | _ => .error misfit
  | .record fields, d =>
      match d with
      | .map members => (fieldsOf members fields).map .record
      | .text _ => .error misfit
      | .list _ => .error misfit
      | _ => .error .wrongType

/-- The fields of a record from the members of a mapping. -/
def fieldsOf (members : List (Datum × Datum)) : List (String × Shape × Option Value) →
    Except Fault (List (String × Value))
  | [] => .ok []
  | (name, shape, default) :: fields => do
      let value ←
        match Datum.lookup? name members, default with
        | some d, _ => (ofData shape d).mapError fun _ => misfit
        | none, some value => .ok value
        | none, none => .error misfit
      return (name, value) :: (← fieldsOf members fields)

end

def converter : Converter where
  toData := toData
  ofData := ofData

/-! ## All of them -/

namespace Yaml.Defect

def kind : Yaml.Defect → String
  | .token => "ScannerError"
  | .order => "ParserError"
  | .alias => "ComposerError"
  | .secondDocument => "ComposerError"
  | .duplicateKey => "DuplicateKeyError"
  | .value => "ConstructorError"
  | .character => "ReaderError"

def fault (d : Yaml.Defect) : Fault :=
  .library { kind := d.kind, text := "not a YAML document", isTold := false }

end Yaml.Defect

def libraries : Libraries Config where
  compose := Config.ofChanges
  update := Config.set
  setting := Config.setting
  settingOrNull := Config.settingOrNull
  configText c := .ok (Yaml.write (.map c.settings))
  dataText d := .ok (Yaml.write d)
  readYaml text := (Yaml.read text).mapError Yaml.Defect.fault
  documentPath := Markdown.path
  documentText := Markdown.render
  converter := converter

end CallProfile.StandIn
