import CallProfile.StandIn.Config.Basic
import CallProfile.StandIn.Config.Value

/-! # Changes of configurations, stood in for

A change is written `name.name=value`. Without a mark it needs a setting to change; one
plus adds a setting, two pluses set one in any case, and a tilde deletes one.
-/

namespace CallProfile.StandIn.Config

/-- What a change does with its setting. -/
inductive Manner where
  | set
  | add
  | force
  | delete
  deriving Repr, DecidableEq

/-- A change of a configuration. -/
structure Change where
  manner : Manner
  path : List String
  /-- The value to set, or the one that a setting to delete should have. -/
  value : Option Datum
  text : String

/-- Whether a text is a name on a path. -/
def isName : List Char → Bool
  | [] => false
  | c :: rest =>
      (startsName c || c = '$') && rest.all fun c => continuesName c || c = '$'

/-- Whether a text is a number on a path. -/
def isIndex (s : List Char) : Bool :=
  match whole? s with
  | some (_, []) => true
  | _ => false

/-- The path of names that a text spells. -/
def pathOf? (s : List Char) : Option (List String) :=
  let names := s.splitOn '.'
  let good :=
    match names with
    | [name] => isName name
    | names => names.all fun name => isName name || isIndex name
  if good then some (names.map String.ofList) else none

/-- Split the marks off a change. -/
def mannerOf : List Char → Manner × List Char
  | '~' :: rest => (.delete, rest)
  | '+' :: '+' :: rest => (.force, rest)
  | '+' :: rest => (.add, rest)
  | rest => (.set, rest)

namespace Change

/-- The names of the setting, as the change spells them. -/
def name (c : Change) : String :=
  ".".intercalate c.path

/-- The change that a text spells. Only a deletion can do without a value. -/
def read (text : String) : Except Fault Change := do
  let (manner, rest) := mannerOf text.toList
  let some path := pathOf? (rest.takeWhile (· ≠ '=')) | throw (changeFault .unreadable text)
  match rest.dropWhile (· ≠ '=') with
  | [] =>
      if manner = .delete then return { manner, path, value := none, text }
      else throw (changeFault .unreadable text)
  | _ :: rest =>
      match readValue rest with
      | .ok value => return { manner, path, value := some value, text }
      | .error problem => throw (changeFault problem text)

/-- Whether a value is a list or a mapping. -/
def isCollection : Datum → Bool
  | .list _ => true
  | .map _ => true
  | _ => false

/-- Whether a setting counts as having no value. -/
def isMissing : Option Datum → Bool
  | none => true
  | some .null => true
  | some (.text s) => s = missingMark
  | some _ => false

/-- Delete a setting, which must have the value of the change if it gives one. -/
def delete (c : Change) (settings : Settings) : Except Fault Settings :=
  match settings.at? c.path with
  | none => .error (changeFault .absent c.name)
  | some held =>
      if isMissing (some held) then .error (changeFault .absent c.name)
      else
        match c.value with
        | none => .ok (settings.remove c.path)
        | some given =>
            if given.isNull || Datum.sameKey held given then .ok (settings.remove c.path)
            else .error (changeFault (.different held given) c.name)

def apply (c : Change) (settings : Settings) : Except Fault Settings :=
  let value := c.value.getD .null
  let orUnknown (made : Option Settings) : Except Fault Settings :=
    match made with
    | some settings => .ok settings
    | none => .error (changeFault .unknown c.name)
  match c.manner with
  | .set => orUnknown (settings.set? c.path value)
  | .add =>
      if isMissing (settings.at? c.path) || isCollection value then
        orUnknown (settings.add? c.path value)
      else .error (changeFault .present c.name)
  | .force => orUnknown (settings.add? c.path value)
  | .delete => c.delete settings

end Change

/-- The configuration after changes in their order. All of them are read first. -/
def ofChanges (texts : List String) : Except Fault Config := do
  let changes ← texts.mapM Change.read
  return { settings := ← changes.foldlM (fun settings c => c.apply settings) default.settings }

end CallProfile.StandIn.Config
