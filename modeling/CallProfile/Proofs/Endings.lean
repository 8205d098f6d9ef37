import CallProfile.Proofs.Folders
import CallProfile.Proofs.ModerateBatches
import CallProfile.Proofs.Runs
import CallProfile.Proofs.ShownTrees

/-! # Runs that end with a code

A part of a run closes when no fault stops it: it ends, or it exits with a code. What follows the
setting up of a report closes, whatever its symbols are.
-/

namespace CallProfile.Command

namespace Run

variable {σ α β : Type} {holds : σ → Prop} {gives : α → Prop} {gives' : β → Prop}

end Run

open Run

variable {σ κ : Type} {env : Surroundings σ κ} {q : Request} {root : Path} {c : κ}
  {b : Batch Rounded} {holds : σ → Prop} {name : String}

/-! ## Writing into a folder -/

/-- The files of a report. -/
def reportFiles : List String :=
  [RunFolder.reportName, RunFolder.flatProfileName, RunFolder.callTablesName,
    RunFolder.configName, RunFolder.inputsName]

/-- Whether the files of a report can be written into a folder, in every state that something holds
    of, and it still holds then. -/
def Accepts (fs : FileSystem σ) (root : Path) (holds : σ → Prop) : Prop :=
  ∀ s name bytes, holds s → name ∈ reportFiles →
    ∃ s', fs.write s (root.child name).toString bytes = .ok s' ∧ holds s'

/-- Whether a configuration tells what reports are asked for. -/
structure AsksForReports (lib : Libraries κ) (c : κ) : Prop where
  limit : ∃ n, lib.setting c "report" "top_k" >>= Datum.toInt = .ok n
  json : ∃ d, lib.setting c "report" "json" = .ok d
  markdown : ∃ d, lib.setting c "report" "markdown" = .ok d

/-- Whether nothing but its files can be in the way of a report: its folder accepts them, and the
    libraries have the documents for them. -/
structure IsReady (env : Surroundings σ κ) (root : Path) (c : κ) (holds : σ → Prop) : Prop where
  clean : root.IsClean
  accepts : Accepts env.files root holds
  names : env.libraries.NamesDocuments
  asks : AsksForReports env.libraries c
  config : ∃ text, env.libraries.configText c = .ok text
  records : ∀ inputs, ∃ text, env.libraries.dataText (RunFolder.listing inputs) = .ok text

/-- The results of a batch as a report. -/
def resultsOf (b : Batch Rounded) (run : String) : Except Fault Report :=
  Report.ofTree b.tree run (b.failures.map fun f => { path := f.path, error := f.message })
    b.succeeded

/-- What is left of a report once its inputs have been analysed. -/
def finish (env : Surroundings σ κ) (q : Request) (c : κ) (folder : RunFolder)
    (paths : List String) (b : Batch Rounded) : Run σ Unit := do
  let run := (given? q.runName).getD env.now.runName
  b.failures.forM fun f => warn s!"WARNING: skipped {f.path}: {f.message}"
  if b.succeeded.isEmpty then refuse 1 "ERROR: no gmon file could be analyzed"
  writeReports env folder run c b
  writeRecords env folder c b paths
  say "gmon report written:"
  say s!"  run_id={run}"
  say s!"  artifacts_dir={← take folder.root}"
  say <| s!"  samples={b.tree.total} unattributed={b.tree.unattributed} " ++
    s!"cycles={b.tree.cycles.length}"

section Unwritten

variable {f : Fault} {run : String} {folder : RunFolder}

end Unwritten

end CallProfile.Command
