import CallProfile.Proofs.ConfiguredLayouts
import CallProfile.Proofs.Endings
import CallProfile.Proofs.Flags
import CallProfile.Proofs.MapFaults
import CallProfile.Proofs.SymbolMaps
import CallProfile.Proofs.Weights

/-! # Runs over faulty symbol maps

A run that is in order but for its symbol map exits with a code, unless the map is at fault in a way
that no user is told of, or its addresses are too long to be written down again. Nothing is written
without symbols.
-/

namespace CallProfile.Command

open Run

variable {σ κ : Type} {env : Surroundings σ κ} {w : σ} {q : Request} {s t : Scene σ} {c : κ}
  {workers : Option Int} {layout : Layout} {table : SymbolTable} {folder : RunFolder} {f : Fault}

/-! ## Configured runs -/

/-- A run of a report that is in order but for the symbol map that it reads. -/
structure MapRun (env : Surroundings σ κ) (w : σ) (q : Request) where
  config : κ
  workers : Option Int
  root : Path
  layout : Layout
  /-- What the configuration has for the symbol map, and the path that is made of it. -/
  file : Datum
  map : String
  /-- The files and the lines once the folder is there. -/
  opened : Scene σ
  paths : List String
  /-- What holds of the files as long as nothing but the report is written. -/
  writable : σ → Prop
  oneSource : ¬ ((given? q.symbols).isSome && (given? q.program).isSome) = true
  configured : configure env w q = .ok (config, workers)
  named : folderOf env w ((given? q.runName).getD env.now.runName) config = .ok (.ofRoot root)
  opens : Ends (openFolder env (.ofRoot root) config) { files := w, output := [], errors := [] } ()
    opened
  chosen : layoutOf env.libraries config = .ok layout
  holds : env.libraries.settingOrNull config "symbols" "file" = .ok file ∧ file.holds = true
  means : env.libraries.setting config "symbols" "file" >>= Datum.toText = .ok map
  /-- The texts of a map are taken as characters: half of a surrogate pair is none. -/
  whole : mapDocument env.libraries.readYaml (env.files.bytes opened.files) (Path.ofString map) ≠
    .error .halfCharacter
  located : q.inputs.mapM (inputPath env opened.files) = .ok paths
  storable : Batch.AreStorable (paths.map (Batch.inputFrom (env.files.bytes opened.files)))
  ready : IsReady env root config writable
  start : writable opened.files

namespace MapRun

/-- The name of the run. -/
def run (_ : MapRun env w q) : String :=
  (given? q.runName).getD env.now.runName

end MapRun

namespace MapRun

variable {arguments : List String}

end MapRun

end CallProfile.Command
