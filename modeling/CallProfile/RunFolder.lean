import CallProfile.Libraries
import CallProfile.Path

/-! # Folders of runs

Every run writes into a folder of its own, which is named for the run. A folder has to be
chosen before files in it can be named.
-/

namespace CallProfile

/-- The folder of a run, once it has been chosen. -/
structure RunFolder where
  root? : Option Path
  deriving Repr, DecidableEq

namespace RunFolder

/-- The folder before it has been chosen. -/
def unset : RunFolder where
  root? := none

/-- The folder at a path. -/
def ofRoot (root : Path) : RunFolder where
  root? := some root

def root (f : RunFolder) : Except Fault Path :=
  match f.root? with
  | some root => .ok root
  | none => .error .noFolder

/-- The path of a file in the folder. -/
def file (f : RunFolder) (name : String) : Except Fault Path := do
  return (← f.root).child name

def reportName : String := "report.json"

def flatProfileName : String := "flat_profile.md"

def callTablesName : String := "call_graph.md"

def configName : String := "config.yaml"

/-- The file that lists the inputs. -/
def inputsName : String := "inputs.yaml"

def logName : String := "gmon_report.log"

/-- The path of the folder for a run below a base, before it is resolved. A base that is not
    absolute lies below `home`. -/
def pathOf (home : Path) (base : Option String) (run : String) : Path :=
  let base :=
    match base with
    | none => Path.ofString "tmp/gmon-report"
    | some base => if base = "" then Path.ofString "tmp/gmon-report" else Path.ofString base
  home.join (base.child run)

/-- The folder of the configuration that comes with the program. -/
def configFolder (home : Path) : Path :=
  home.child "src/gmon_analyzer/conf"

/-- What is recorded of an input: its path, and whether it was added up. -/
def record (path : String) (ok : Bool) : Datum :=
  .map [(.text "path", .text path), (.text "ok", .bool ok)]

/-- The list of the inputs of a run, each with what is recorded of it. -/
def manifest (records : List Datum) : Datum :=
  .map [(.text "count", .int records.length), (.text "inputs", .list records)]

/-- The list of inputs, each with its path and whether it was added up. -/
def listing (inputs : List (String × Bool)) : Datum :=
  manifest (inputs.map fun input => record input.1 input.2)

/-- What a record tells of an input: its path, and whether it was added up. -/
def told? : Datum → Option (String × Bool)
  | .map fields =>
      match Datum.lookup? "path" fields, Datum.lookup? "ok" fields with
      | some (.text path), some (.bool ok) => some (path, ok)
      | _, _ => none
  | _ => none

/-- What a list of inputs tells of each of them, in its order. -/
def allTold? : Datum → Option (List (String × Bool))
  | .map entries =>
      match Datum.lookup? "inputs" entries with
      | some (.list records) => records.mapM told?
      | _ => none
  | _ => none

/-- Whether `load` reads back what a library writes of inputs. -/
def IsReadBack {κ : Type} (lib : Libraries κ) (load : String → Except Fault Datum) : Prop :=
  ∀ inputs text, lib.dataText (listing inputs) = .ok text → load text = .ok (listing inputs)

end RunFolder

end CallProfile
