import CallProfile.Command.Arguments
import CallProfile.Layout
import CallProfile.Moment
import CallProfile.Symbol.File

/-! # Setting up a run

The configuration of a run comes from the changes that were asked for, and then from the
options, which win. From the configuration come the layout and the symbols.
-/

namespace CallProfile.Command

/-- What a run finds around it: the files that it works on and the libraries that it works with,
    by what they do, and where and when it runs. -/
structure Surroundings (σ κ : Type) where
  files : FileSystem σ
  libraries : Libraries κ
  tool : Option Tool
  now : Moment
  /-- The folder that the project lies in. -/
  home : Path
  /-- The directory that relative paths start from. -/
  cwd : Path

/-- A text that is given and not empty. -/
def given? (text : Option String) : Option String :=
  text.filter (· ≠ "")

variable {σ κ : Type} (env : Surroundings σ κ)

/-- The absolute path that a user's text means, if it means one. -/
def userPath? (s : σ) (text : String) : Except Fault (Option Path) :=
  env.files.userPath? s env.cwd text

/-- A setting for a path that a user gives. -/
def pathSetting (s : σ) (text : String) : Except Fault Datum := do
  match ← userPath? env s text with
  | some path => return .text path.toString
  | none => return .null

/-- The settings that options have a value for, each by its group and its name. -/
def optionSettings (s : σ) (q : Request) :
    List ((String × String) × Option (Except Fault Datum)) :=
  [(("symbols", "file"), (given? q.symbols).map (pathSetting env s)),
    (("symbols", "binary"), (given? q.program).map (pathSetting env s)),
    (("layout", "name"), (given? q.layout).map fun name => .ok (.text name)),
    (("report", "out_dir"), (given? q.folder).map (pathSetting env s)),
    (("batch", "max_workers"), q.workers.map fun n => .ok (.int n)),
    (("report", "top_k"), q.limit.map fun n => .ok (.int n))]

/-- Change a setting if there is a value for it. -/
def setGiven (lib : Libraries κ) (c : κ)
    (setting : (String × String) × Option (Except Fault Datum)) : Except Fault κ :=
  match setting with
  | (_, none) => .ok c
  | ((group, name), some value) => do lib.update c group name (← value)

/-- Set what the options of a request give. -/
def setOptions (s : σ) (q : Request) (c : κ) : Except Fault κ :=
  (optionSettings env s q).foldlM (setGiven env.libraries) c

def workersOf (lib : Libraries κ) (c : κ) : Except Fault (Option Int) := do
  let value ← lib.settingOrNull c "batch" "max_workers"
  if value.isNull then return none
  else
    let count ← value.toInt
    if count < 1 then throw (.configuredWorkers count) else return some count

/-- The configuration of a request, and the number of workers in it. -/
def configure (s : σ) (q : Request) : Except Fault (κ × Option Int) := do
  let c ← setOptions env s q (← env.libraries.compose q.changes)
  return (c, ← workersOf env.libraries c)

/-- The layout with a name, and otherwise as a configuration has it. -/
def layoutNamed (lib : Libraries κ) (c : κ) (name : Except Fault Datum) : Except Fault Layout := do
  let order ← (← lib.setting c "layout" "byte_order").toText
  let width ← lib.settingOrNull c "layout" "address_width"
  let widths ←
    if width.isNull then pure []
    else pure [("address_width", .int (← (← lib.setting c "layout" "address_width").toInt))]
  Layout.select (.text (← (← name).toText)) (("byte_order", .text order) :: widths)

def layoutOf (lib : Libraries κ) (c : κ) : Except Fault Layout :=
  layoutNamed lib c (lib.setting c "layout" "name")

def tableOfMap (s : σ) (path : String) : Except Fault (Option SymbolTable) := do
  return some (.ofList (← symbolsOfFile env.libraries.readYaml (env.files.bytes s) path))

/-- The table of the symbols that the tool lists for the program at a path. -/
def tableOfProgram (path : String) : Except Fault (Option SymbolTable) := do
  return some (.ofList (← symbolsOfProgram env.cwd env.tool path))

/-- The symbols in a configuration: those of a symbol map, or else those of a program, or
    none when it names neither. -/
def symbolsOf (s : σ) (c : κ) : Except Fault (Option SymbolTable) := do
  if (← env.libraries.settingOrNull c "symbols" "file").holds then
    tableOfMap env s (← (← env.libraries.setting c "symbols" "file").toText)
  else if (← env.libraries.settingOrNull c "symbols" "binary").holds then
    tableOfProgram env (← (← env.libraries.setting c "symbols" "binary").toText)
  else return none

/-- The byte orders that there are, as messages show them. -/
def shownOrders : String := "('little', 'big', 'auto')"

/-- The rule for byte orders, as messages show it. -/
def shownOrderRule : String :=
  "Attribute(name='byte_order', default='auto', " ++
    "validator=_AndValidator(_validators=(<in_ validator with options " ++ shownOrders ++
    ">,)), repr=True, eq=True, eq_key=None, order=True, order_key=None, hash=None, " ++
    "init=True, metadata=mappingproxy(\x7b\x7d), type='str', converter=None, kw_only=True, " ++
    "inherited=False, on_setattr=None, alias='byte_order')"

/-- What a user is told of a fault in setting up. Other faults are none of the user's. -/
def complaint? (f : Fault) : Option String :=
  match f with
  | .byteOrder value =>
      some s!"({Text.quoted f.message}, {shownOrderRule}, {shownOrders}, {value.shown})"
  | .unknownLayout _ => some (Text.quoted f.message)
  | .negative .. => some f.message
  | .endBeforeStart .. => some f.message
  | .width .. => some f.message
  | .address .. => some f.message
  | .bareEntry .. => some f.message
  | .unpairedEntry .. => some f.message
  | .noSymbolList _ => some f.message
  | .numeral .. => some f.message
  | .notANumber => some f.message
  | .longNumeral _ => some f.message
  | .longNumber => some f.message
  | .file .. => some f.message
  | .toolMissing => some f.message
  | .toolFailed .. => some f.message
  | .notUtf8 _ => some f.message
  | .json _ => some f.message
  | .library l => if l.isTold then some f.message else none
  | _ => none

end CallProfile.Command
