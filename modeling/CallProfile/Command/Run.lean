import CallProfile.Command.Setup
import CallProfile.Profile.Batch
import CallProfile.Report.Build
import CallProfile.Report.Document
import CallProfile.Report.Tables
import CallProfile.RunFolder

/-! # Runs of the command

A run reads its inputs and writes a report into a folder of its own. It ends with an exit
code, or with a fault that no user can be blamed for; what it has written and said by then
stays.
-/

namespace CallProfile.Command

/-- The files of a run and the lines that it has said. -/
structure Scene (σ : Type) where
  files : σ
  output : List String
  errors : List String

/-- Why a run stops before its end. -/
inductive Stop where
  | exit (code : Nat)
  | fault (f : Fault)

/-- A part of a run. -/
abbrev Run (σ : Type) := ExceptT Stop (StateM (Scene σ))

namespace Run

variable {σ : Type}

/-- Take a result; a fault stops the run. -/
def take {α : Type} : Except Fault α → Run σ α
  | .ok x => pure x
  | .error f => throw (.fault f)

def say (line : String) : Run σ Unit :=
  modify fun scene => { scene with output := scene.output ++ [line] }

def warn (line : String) : Run σ Unit :=
  modify fun scene => { scene with errors := scene.errors ++ [line] }

/-- Stop the run with a line about the problem. -/
def refuse {α : Type} (code : Nat) (line : String) : Run σ α := do
  warn line
  throw (.exit code)

def files : Run σ σ :=
  return (← get).files

def change (f : σ → Except Fault σ) : Run σ Unit := do
  let files ← take (f (← files))
  modify fun scene => { scene with files }

end Run

variable {σ κ : Type} (env : Surroundings σ κ)

/-- The folder of a run: a folder with its name below the one in the configuration. Its path is
    resolved when it is named and again when it is chosen. -/
def folderOf (s : σ) (run : String) (c : κ) : Except Fault RunFolder := do
  let text ← (← env.libraries.setting c "report" "out_dir").toText
  let base := (← userPath? env s text).getD env.cwd
  let path ← env.files.resolve s (RunFolder.pathOf env.home (some base.toString) run)
  return .ofRoot (← env.files.resolve s path)

/-- Make the folder of a run, with a log in it. -/
def openFolder (folder : RunFolder) (c : κ) : Run σ Unit := do
  let root ← Run.take folder.root
  Run.change fun s => FileSystem.named root.toString (env.files.makeDirectories s root)
  let _ ← Run.take (env.libraries.setting c "logging" "level")
  let log := (← Run.take (folder.file RunFolder.logName)).toString
  Run.change fun s => FileSystem.named log (env.files.openLog s log)

/-- The layout and the symbols of a run. -/
def setUp (c : κ) : Run σ (Layout × SymbolTable) := do
  let s ← Run.files
  let found : Except Fault (Layout × Option SymbolTable) := do
    return (← layoutOf env.libraries c, ← symbolsOf env s c)
  match found with
  | .ok (layout, some table) => return (layout, table)
  | .ok (_, none) =>
      Run.refuse 2 "ERROR: a symbol source is required (--symbols, --binary or symbols.* config)"
  | .error f =>
      match complaint? f with
      | some text => Run.refuse 1 s!"ERROR: {text}"
      | none => throw (.fault f)

/-- The path of an input: an absolute one, or the text itself when it means no path. -/
def inputPath (s : σ) (text : String) : Except Fault String := do
  return ((← userPath? env s text).map Path.toString).getD text

/-- The results of inputs. -/
def analyze (layout : Layout) (table : SymbolTable) (workers : Option Int)
    (paths : List String) : Run σ (Batch Rounded) := do
  let s ← Run.files
  match Batch.analyze layout table workers (paths.map (Batch.inputFrom (env.files.bytes s))) with
  | .ok b => return b
  | .error (.workers count) => Run.refuse 2 s!"ERROR: {(Fault.workers count).message}"
  | .error (.inconsistent cause) =>
      Run.refuse 1 s!"ERROR: gmon analysis failed: {cause.message}"
  | .error f => throw (.fault f)

def writeFile (folder : RunFolder) (name text : String) : Run σ Unit := do
  let path ← Run.take (folder.file name)
  Run.change (env.files.writeText path.toString text)

/-- Write a Markdown document into the folder of a run. -/
def writeDocument (folder : RunFolder) (name : String) (blocks : List Markdown.Block) :
    Run σ Unit := do
  let path ← Run.take (folder.file name)
  let base := Report.documentBase path.toString
  Run.change (env.files.writeText (env.libraries.documentPath base)
    (env.libraries.documentText blocks))

/-- The reports on results, as far as the configuration asks for them. -/
def writeReports (folder : RunFolder) (run : String) (c : κ) (b : Batch Rounded) :
    Run σ Unit := do
  let limit ← Run.take (do (← env.libraries.setting c "report" "top_k").toInt)
  if (← Run.take (env.libraries.setting c "report" "json")).holds then
    let failures := b.failures.map fun f => { path := f.path, error := f.message }
    let report ← Run.take (Report.ofTree b.tree run failures b.succeeded)
    let text ← Run.take (report.write env.libraries.converter (some 2))
    writeFile env folder RunFolder.reportName text
  if (← Run.take (env.libraries.setting c "report" "markdown")).holds then
    let profile ← Run.take (Report.flatProfile b.tree limit)
    writeDocument env folder RunFolder.flatProfileName profile
    let tables ← Run.take (Report.callTables b.tree limit)
    writeDocument env folder RunFolder.callTablesName tables

/-- The record of an input, which is added up when its path is the name of a recording that is. -/
def inputRecord (b : Batch Rounded) (path : String) : String × Bool :=
  (path, b.succeeded.contains path)

/-- The records of how a run came about. -/
def writeRecords (folder : RunFolder) (c : κ) (b : Batch Rounded) (paths : List String) :
    Run σ Unit := do
  let text ← Run.take (env.libraries.configText c)
  writeFile env folder RunFolder.configName text
  let listing := RunFolder.listing (paths.map (inputRecord b))
  let text ← Run.take (env.libraries.dataText listing)
  writeFile env folder RunFolder.inputsName text

/-- Do what a request asks for. -/
def report (q : Request) : Run σ Unit := do
  if (given? q.symbols).isSome && (given? q.program).isSome then
    Run.refuse 2 "ERROR: use either --symbols or --binary, not both"
  let s ← Run.files
  let (c, workers) ←
    match configure env s q with
    | .ok configured => pure configured
    | .error f => Run.refuse 2 s!"ERROR: invalid configuration: {f.message}"
  let run := (given? q.runName).getD env.now.runName
  let folder ← Run.take (folderOf env s run c)
  openFolder env folder c
  let (layout, table) ← setUp env c
  let paths ← Run.take (q.inputs.mapM (inputPath env (← Run.files)))
  let b ← analyze env layout table workers paths
  b.failures.forM fun f => Run.warn s!"WARNING: skipped {f.path}: {f.message}"
  if b.succeeded.isEmpty then Run.refuse 1 "ERROR: no gmon file could be analyzed"
  writeReports env folder run c b
  writeRecords env folder c b paths
  Run.say "gmon report written:"
  Run.say s!"  run_id={run}"
  Run.say s!"  artifacts_dir={← Run.take folder.root}"
  Run.say <| s!"  samples={b.tree.total} unattributed={b.tree.unattributed} " ++
    s!"cycles={b.tree.cycles.length}"

def obey (arguments : List String) : Run σ Unit := do
  match read arguments with
  | .ok (.report q) => report env q
  | .ok .help => Run.say usage
  | .error misuse => do
      Run.warn usage
      Run.refuse 2 s!"gmon-report: error: {misuse.message}"

/-- What comes of a run: its exit code or the fault that stopped it, and its scene. -/
structure Outcome (σ : Type) where
  code : Except Fault Nat
  scene : Scene σ

def run (s : σ) (arguments : List String) : Outcome σ :=
  match (obey env arguments).run { files := s, output := [], errors := [] } with
  | (.ok (), scene) => { code := .ok 0, scene }
  | (.error (.exit code), scene) => { code := .ok code, scene }
  | (.error (.fault f), scene) => { code := .error f, scene }

end CallProfile.Command
