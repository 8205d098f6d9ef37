import CallProfile.Datum.Number

/-! # Configurations, stood in for

A configuration is a tree of named settings. The settings that runs use stand in groups,
each of which has a value from the start; others can be added. References between settings
are not followed: a setting that holds one cannot be read.
-/

namespace CallProfile.StandIn

/-- Settings by their names. A group of settings is a setting whose value is a mapping. -/
abbrev Settings := List (Datum × Datum)

structure Config where
  settings : Settings

namespace Settings

/-- The value at a path of names. -/
def at? : List String → Settings → Option Datum
  | [], _ => none
  | [name], settings => Datum.lookup? name settings
  | name :: path, settings =>
      match Datum.lookup? name settings with
      | some (.map inner) => at? path inner
      | _ => none

/-- Change the value at a path to what `f` makes of it, which may refuse. Where `grow`
    holds, groups that are missing on the way are added, in the place of values that are
    no groups. -/
def alter (grow : Bool) (f : Option Datum → Option Datum) :
    List String → Settings → Option Settings
  | [], _ => none
  | [name], settings =>
      (f (Datum.lookup? name settings)).map fun value => Datum.put name value settings
  | name :: path, settings =>
      match Datum.lookup? name settings with
      | some (.map inner) =>
          (alter grow f path inner).map fun inner => Datum.put name (.map inner) settings
      | some (.list _) => none
      | _ =>
          if grow then
            (alter grow f path []).map fun inner => Datum.put name (.map inner) settings
          else none

/-- Settings without the one at a path. -/
def remove : List String → Settings → Settings
  | [], settings => settings
  | [name], settings => settings.filter fun e => !e.1.isText name
  | name :: path, settings =>
      match Datum.lookup? name settings with
      | some (.map inner) => Datum.put name (.map (remove path inner)) settings
      | _ => settings

mutual

/-- Lay a value over another one. Groups are joined; where `grow` does not hold, the upper
    one must not have names that the lower one lacks. A list and a group do not go
    together. -/
def lay (grow : Bool) : (upper lower : Datum) → Option Datum
  | .map upper, .map lower => (layEach grow upper lower).map .map
  | .map _, .list _ => none
  | .list _, .map _ => none
  | upper, _ => some upper

def layEach (grow : Bool) : (upper lower : Settings) → Option Settings
  | [], lower => some lower
  | (key, value) :: upper, lower =>
      match lower.find? fun e => Datum.sameKey e.1 key with
      | some e =>
          match lay grow value e.2 with
          | some value => layEach grow upper (Datum.putKey key value lower)
          | none => none
      | none =>
          if grow then layEach grow upper (Datum.putKey key value lower) else none

end

/-- Set the value at a path where there is one. -/
def set? (path : List String) (value : Datum) (settings : Settings) : Option Settings :=
  settings.alter false (fun held => held.bind (lay false value)) path

/-- Set the value at a path, whether there is one or not. -/
def add? (path : List String) (value : Datum) (settings : Settings) : Option Settings :=
  settings.alter true
    (fun held =>
      match held with
      | some held => lay true value held
      | none => some value)
    path

end Settings

namespace Config

/-- The text of a setting that must be set before it is used. -/
def missingMark : String := "???"

/-- The configuration of a run that nobody has configured. -/
def default : Config where
  settings := [
    (.text "layout", .map [(.text "name", .text "gnu-v1"), (.text "byte_order", .text "auto"),
      (.text "address_width", .null)]),
    (.text "symbols", .map [(.text "file", .null), (.text "binary", .null)]),
    (.text "report", .map [(.text "out_dir", .text "tmp/gmon-report"), (.text "top_k", .int 20),
      (.text "markdown", .bool true), (.text "json", .bool true)]),
    (.text "batch", .map [(.text "max_workers", .null)]),
    (.text "logging", .map [(.text "level", .text "INFO")])]

/-- A fault that no user is told of once a run has started. -/
def fault (kind text : String) : Fault :=
  .library { kind, text, isTold := false }

/-- A setting that the configuration does not have. -/
def noSetting (name : String) : Fault :=
  fault "ConfigAttributeError" s!"the configuration has no setting {name}"

/-- A setting without a value that something has to be taken from. -/
def unset (name : String) : Fault :=
  fault "MissingMandatoryValue" s!"the setting {name} has no value"

/-- A setting that should be a group of settings and is none. -/
def noGroup (name : String) : Fault :=
  fault "AttributeError" s!"the setting {name} is no group of settings"

/-- A setting that refers to others. -/
def reference (name : String) : Fault :=
  fault "InterpolationResolutionError" s!"the setting {name} refers to others"

/-- Whether a value refers to other settings. -/
def isReference : Datum → Bool
  | .text s => Text.occurs "$\x7b".toList s.toList
  | _ => false

def group (c : Config) (name : String) : Except Fault Settings :=
  match Datum.lookup? name c.settings with
  | some (.map settings) => .ok settings
  | some (.list _) => .error (noSetting name)
  | some (.text s) => .error (if s = missingMark then unset name else noGroup name)
  | some _ => .error (noGroup name)
  | none => .error (noSetting name)

/-- The value of a setting in a group, which must have one. -/
def setting (c : Config) (group name : String) : Except Fault Datum := do
  match Datum.lookup? name (← c.group group) with
  | some value =>
      if value.isText missingMark then throw (unset name)
      else if isReference value then throw (reference name)
      else return value
  | none => throw (noSetting name)

/-- The value of a setting in a group, null when it has none. -/
def settingOrNull (c : Config) (group name : String) : Except Fault Datum := do
  match Datum.lookup? name (← c.group group) with
  | some value =>
      if value.isText missingMark then return .null
      else if isReference value then throw (reference name)
      else return value
  | none => return .null

/-- Set a setting that is there. -/
def set (c : Config) (group name : String) (value : Datum) : Except Fault Config :=
  match c.settings.set? [group, name] value with
  | some settings => .ok { settings }
  | none => .error (noSetting name)

end Config

end CallProfile.StandIn
