import CallProfile.Command.Run
import CallProfile.StandIn.Libraries
import CallProfile.Workspace
import Std.Time.DateTime.Timestamp

/-! # The command

Which paths a run can look at is known before it starts. The files there are fetched, the run
takes place, and what it has written and said is passed on. There is no tool to list the symbols
of a program, so that runs need a symbol map.
-/

namespace CallProfile.Command

/-- The names of the files that a run writes. -/
def writtenNames : List String :=
  [RunFolder.reportName, RunFolder.flatProfileName, RunFolder.callTablesName,
    RunFolder.configName, RunFolder.inputsName, RunFolder.logName]

/-- The path of the symbol map in a configuration, if it names one. -/
def symbolMapPath {σ κ : Type} (env : Surroundings σ κ) (c : κ) : List Path :=
  match env.libraries.settingOrNull c "symbols" "file" with
  | .ok file => if file.holds then [env.cwd.join (Path.ofString file.plain)] else []
  | .error _ => []

/-- The paths of the files that a run can write. -/
def writtenPaths {σ κ : Type} (env : Surroundings σ κ) (s : σ) (q : Request) (c : κ) : List Path :=
  match folderOf env s ((given? q.runName).getD env.now.runName) c with
  | .ok folder => folder.root?.toList.flatMap fun root => writtenNames.map root.child
  | .error _ => []

/-- The paths that a run with the given arguments can look at. -/
def reach {σ κ : Type} (env : Surroundings σ κ) (s : σ) (arguments : List String) : List Path :=
  match read arguments with
  | .ok (.report q) =>
      match configure env s q, q.inputs.mapM (inputPath env s) with
      | .ok (c, _), .ok inputs =>
          inputs.map (fun path => env.cwd.join (Path.ofString path)) ++
            symbolMapPath env c ++ writtenPaths env s q c
      | _, _ => []
  | _ => []

/-- What stands at a place on the disk. What cannot be read counts as missing. -/
def fetchOne (place : List String) : IO (Option Entry) := do
  match ← (IO.FS.readBinFile ("/" ++ "/".intercalate place)).toBaseIO with
  | .ok bytes => return some (.file bytes.toList)
  | .error (.inappropriateType ..) => return some .directory
  | .error _ => return none

/-- Add what stands at places to a workspace. -/
def fetch (w : Workspace) (places : List (List String)) : IO Workspace :=
  places.foldlM (fun w place => do
    match ← fetchOne place with
    | some entry => return w.put place entry
    | none => return w) w

/-- The places on the way along names, those that stay below `..` left out. -/
def waypoints (p : Path) : List (List String) :=
  Workspace.way p.names ++ Workspace.way (Path.resolve { root := "/", names := [] } p).names

/-- Write what is new in a workspace to the disk. -/
def store (before after : Workspace) : IO Unit :=
  after.entries.forM fun e =>
    if before.entry? e.1 = some e.2 then return ()
    else
      let path := "/" ++ "/".intercalate e.1
      match e.2 with
      | .directory => IO.FS.createDirAll path
      | .file bytes => IO.FS.writeBinFile path ⟨bytes.toArray⟩

end CallProfile.Command

section

open CallProfile CallProfile.Command

def main (arguments : List String) : IO UInt32 := do
  let cwd := Path.ofString (← IO.currentDir).toString
  let seconds := (← Std.Time.Timestamp.now).toSecondsSinceUnixEpoch.val
  let env : Surroundings Workspace StandIn.Config :=
    { files := Workspace.fileSystem, libraries := StandIn.libraries, tool := none
      now := Moment.ofSeconds seconds.toNat, home := cwd, cwd }
  let here : Workspace := { cwd := cwd.names, entries := [] }
  let places := (cwd :: reach env here arguments).flatMap waypoints
  let before ← fetch here places.eraseDups
  let outcome := run env before arguments
  store before outcome.scene.files
  outcome.scene.output.forM fun line => IO.println line
  outcome.scene.errors.forM fun line => IO.eprintln line
  match outcome.code with
  | .ok code => return code.toUInt32
  | .error fault => do
      IO.eprintln fault.message
      return 1

end
