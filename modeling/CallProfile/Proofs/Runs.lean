import CallProfile.Proofs.Folders

/-! # Runs that come to their end

A part of a run ends when each of its steps does. A report that ends has gone all the way: it was
configured, its folder was made, and its inputs were analysed.
-/

namespace CallProfile.Command

namespace Run

variable {σ α β : Type} {s t u : Scene σ} {a b : α}

/-- Whether a part of a run ends with a value, from one scene at another one. -/
def Ends (x : Run σ α) (s : Scene σ) (a : α) (t : Scene σ) : Prop :=
  x.run s = (.ok a, t)

theorem run_bind (x : Run σ α) (f : α → Run σ β) (s : Scene σ) :
    (x >>= f).run s = match x.run s with
      | (.ok a, t) => (f a).run t
      | (.error stop, t) => (.error stop, t) := by
  unfold ExceptT.run
  simp only [bind, ExceptT.bind, ExceptT.mk, StateT.bind, ExceptT.bindCont]
  cases x s with
  | mk result t => cases result <;> rfl

theorem run_files_bind (f : σ → Run σ α) (s : Scene σ) :
    (files >>= f).run s = (f s.files).run s := by
  rw [run_bind]
  rfl

theorem ends_bind_iff {x : Run σ α} {f : α → Run σ β} {b : β} :
    Ends (x >>= f) s b u ↔ ∃ a t, Ends x s a t ∧ Ends (f a) t b u := by
  rw [Ends, run_bind]
  constructor
  · intro ends
    cases first : x.run s with
    | mk result t =>
        rw [first] at ends
        cases result with
        | ok a => exact ⟨a, t, first, ends⟩
        | error stop => cases ends
  · rintro ⟨a, t, first, rest⟩
    rw [first]
    exact rest

theorem ends_pure_iff : Ends (pure a) s b t ↔ b = a ∧ t = s := by
  constructor
  · rintro ⟨⟩
    exact ⟨rfl, rfl⟩
  · rintro ⟨rfl, rfl⟩
    rfl

theorem not_ends_throw (stop : Stop) : ¬ Ends (throw stop : Run σ α) s a t := by
  rintro ⟨⟩

theorem not_ends_refuse (code : Nat) (line : String) :
    ¬ Ends (refuse code line : Run σ α) s a t := by
  rintro ⟨⟩

theorem ends_take_iff {x : Except Fault α} : Ends (take x) s a t ↔ x = .ok a ∧ t = s := by
  cases x with
  | ok b =>
      rw [take, ends_pure_iff, Except.ok.injEq, eq_comm]
  | error fault => exact iff_of_false (not_ends_throw _) nofun

theorem ends_take_bind_iff {x : Except Fault α} {f : α → Run σ β} {b : β} :
    Ends (take x >>= f) s b u ↔ ∃ a, x = .ok a ∧ Ends (f a) s b u := by
  rw [ends_bind_iff]
  constructor
  · rintro ⟨a, t, took, rest⟩
    obtain ⟨made, rfl⟩ := ends_take_iff.1 took
    exact ⟨a, made, rest⟩
  · rintro ⟨a, made, rest⟩
    exact ⟨a, s, ends_take_iff.2 ⟨made, rfl⟩, rest⟩

theorem ends_pure_bind_iff {f : α → Run σ β} {b : β} :
    Ends (pure a >>= f) s b u ↔ Ends (f a) s b u := by
  rw [Ends, run_bind]
  rfl

theorem ends_files_bind_iff {f : σ → Run σ β} {b : β} :
    Ends (files >>= f) s b u ↔ Ends (f s.files) s b u := by
  rw [Ends, run_files_bind, Ends]

theorem ends_modify_iff {f : Scene σ → Scene σ} {a : Unit} :
    Ends (modify f : Run σ Unit) s a t ↔ t = f s := by
  constructor
  · rintro ⟨⟩
    rfl
  · rintro rfl
    rfl

theorem ends_change_iff {f : σ → Except Fault σ} {a : Unit} :
    Ends (change f) s a t ↔ ∃ w, f s.files = .ok w ∧ t = { s with files := w } := by
  rw [change, ends_files_bind_iff, ends_take_bind_iff]
  simp only [ends_modify_iff]

theorem not_ends_refuse_bind {f : α → Run σ β} {b : β} (code : Nat) (line : String) :
    ¬ Ends (refuse code line >>= f) s b u := by
  rw [ends_bind_iff]
  rintro ⟨a, t, refused, -⟩
  exact not_ends_refuse code line refused

theorem ends_say {line : String} {a : Unit} (ends : Ends (say line) s a t) :
    t.files = s.files := by
  cases ends
  rfl

/-! ## Exits -/

/-- Whether a part of a run never exits with the code of a run that comes to its end. -/
def Honest (x : Run σ α) : Prop :=
  ∀ s t, x.run s ≠ (.error (.exit 0), t)

theorem honest_bind {x : Run σ α} {f : α → Run σ β} (first : Honest x) (rest : ∀ a, Honest (f a)) :
    Honest (x >>= f) := by
  intro s u exits
  rw [run_bind] at exits
  cases result : x.run s with
  | mk result' t =>
      rw [result] at exits
      cases result' with
      | ok a => exact rest a t u exits
      | error stop =>
          cases exits
          exact first s u result

theorem honest_pure (a : α) : Honest (pure a : Run σ α) := by
  rintro s t ⟨⟩

theorem honest_fault (f : Fault) : Honest (throw (.fault f) : Run σ α) := by
  rintro s t ⟨⟩

theorem honest_take (x : Except Fault α) : Honest (take x : Run σ α) := by
  cases x with
  | ok a => exact honest_pure a
  | error f => exact honest_fault f

theorem honest_say (line : String) : Honest (say line : Run σ Unit) := by
  rintro s t ⟨⟩

theorem honest_warn (line : String) : Honest (warn line : Run σ Unit) := by
  rintro s t ⟨⟩

theorem honest_refuse {code : Nat} (fails : code ≠ 0) (line : String) :
    Honest (refuse code line : Run σ α) := by
  rintro s t ⟨⟩
  exact fails rfl

theorem honest_refuse_bind {f : α → Run σ β} {code : Nat} (fails : code ≠ 0) (line : String) :
    Honest (refuse code line >>= f) := by
  intro s t exits
  rw [run_bind] at exits
  cases exits
  exact fails rfl

theorem honest_files : Honest (files : Run σ σ) := by
  rintro s t ⟨⟩

theorem honest_change (f : σ → Except Fault σ) : Honest (change f) :=
  honest_bind honest_files fun _ => honest_bind (honest_take _) fun _ => by rintro s t ⟨⟩

theorem honest_forM {f : β → Run σ Unit} (each : ∀ b, Honest (f b)) (bs : List β) :
    Honest (bs.forM f) := by
  induction bs with
  | nil => exact honest_pure ()
  | cons b bs ih => exact honest_bind (each b) fun _ => ih

end Run

open Run

variable {σ κ : Type} {env : Surroundings σ κ} {q : Request} {s t : Scene σ} {folder : RunFolder}
  {c : κ}

/-! ## The parts of a report -/

/-- Opening a folder makes its directory and a log in it, and nothing else. -/
theorem ends_openFolder {a : Unit} (ends : Ends (openFolder env folder c) s a t) :
    ∃ root log made, folder.root = .ok root ∧ folder.file RunFolder.logName = .ok log ∧
      env.files.makeDirectories s.files root = .ok made ∧
      env.files.openLog made log.toString = .ok t.files := by
  obtain ⟨root, place, ends⟩ := ends_take_bind_iff.1 ends
  obtain ⟨_, u, changes, logs⟩ := ends_bind_iff.1 ends
  obtain ⟨made, makes, rfl⟩ := ends_change_iff.1 changes
  obtain ⟨_, -, logs⟩ := ends_take_bind_iff.1 logs
  obtain ⟨log, named, logs⟩ := ends_take_bind_iff.1 logs
  obtain ⟨logged, opens, rfl⟩ := ends_change_iff.1 logs
  exact ⟨root, log, made, place, named, FileSystem.named_eq_ok_iff.1 makes,
    FileSystem.named_eq_ok_iff.1 opens⟩

theorem kept_openFolder (steady : env.files.IsSteady) {a : Unit}
    (ends : Ends (openFolder env folder c) s a t) {path : String} {bytes : List UInt8}
    (reads : env.files.read s.files path = .ok bytes) :
    env.files.read t.files path = .ok bytes := by
  obtain ⟨root, log, made, -, -, makes, opens⟩ := ends_openFolder ends
  exact steady.kept_log opens (steady.kept_directories makes reads)

theorem ends_setUp {found : Layout × SymbolTable} (ends : Ends (setUp env c) s found t) :
    layoutOf env.libraries c = .ok found.1 ∧ symbolsOf env s.files c = .ok (some found.2) ∧
      t = s := by
  have sets := ends_files_bind_iff.1 ends
  dsimp only at sets
  split at sets
  · next layout table both =>
      obtain ⟨layout', chosen, both⟩ := bind_eq_ok_iff.1 both
      obtain ⟨table', resolved, made⟩ := bind_eq_ok_iff.1 both
      cases made
      obtain ⟨rfl, rfl⟩ := ends_pure_iff.1 sets
      exact ⟨chosen, resolved, rfl⟩
  · exact absurd sets (not_ends_refuse _ _)
  · split at sets
    · exact absurd sets (not_ends_refuse _ _)
    · exact absurd sets (not_ends_throw _)

theorem ends_analyze {layout : Layout} {table : SymbolTable} {workers : Option Int}
    {paths : List String} {b : Batch Rounded}
    (ends : Ends (analyze env layout table workers paths) s b t) :
    Batch.analyze layout table workers
      (paths.map (Batch.inputFrom (env.files.bytes s.files))) = .ok b ∧ t = s := by
  have analyzes := ends_files_bind_iff.1 ends
  split at analyzes
  · next made =>
      obtain ⟨rfl, rfl⟩ := ends_pure_iff.1 analyzes
      exact ⟨made, rfl⟩
  · exact absurd analyzes (not_ends_refuse _ _)
  · exact absurd analyzes (not_ends_refuse _ _)
  · exact absurd analyzes (not_ends_throw _)

/-- The records of the inputs are written last, and are read back. -/
theorem ends_writeRecords (steady : env.files.IsSteady) {b : Batch Rounded} {paths : List String}
    {a : Unit} (ends : Ends (writeRecords env folder c b paths) s a t) :
    ∃ path text, folder.file RunFolder.inputsName = .ok path ∧
      env.libraries.dataText (RunFolder.listing (paths.map (inputRecord b))) = .ok text ∧
      env.files.read t.files path.toString = .ok text.toUTF8.toList := by
  obtain ⟨_, -, writes⟩ := ends_take_bind_iff.1 ends
  obtain ⟨_, u, -, writes⟩ := ends_bind_iff.1 writes
  obtain ⟨text, shown, writes⟩ := ends_take_bind_iff.1 writes
  obtain ⟨path, named, writes⟩ := ends_take_bind_iff.1 writes
  obtain ⟨w, written, rfl⟩ := ends_change_iff.1 writes
  exact ⟨path, text, named, shown, steady.written (FileSystem.named_eq_ok_iff.1 written)⟩

/-! ## Whole reports -/

/-- What a report that came to its end was made of. -/
structure Completion (env : Surroundings σ κ) (w : σ) (q : Request) where
  config : κ
  workers : Option Int
  folder : RunFolder
  /-- The files once the folder is there. -/
  seen : σ
  layout : Layout
  table : SymbolTable
  paths : List String
  batch : Batch Rounded
  configured : configure env w q = .ok (config, workers)
  opened : folderOf env w ((given? q.runName).getD env.now.runName) config = .ok folder
  kept : ∀ path bytes, env.files.read w path = .ok bytes → env.files.read seen path = .ok bytes
  chosen : layoutOf env.libraries config = .ok layout
  resolved : symbolsOf env seen config = .ok (some table)
  located : q.inputs.mapM (inputPath env seen) = .ok paths
  analyzed : Batch.analyze layout table workers
    (paths.map (Batch.inputFrom (env.files.bytes seen))) = .ok batch
  succeeded : batch.succeeded ≠ []

/-- The inputs as they were read. -/
def Completion.inputs {w : σ} (done : Completion env w q) : List Batch.Input :=
  done.paths.map (Batch.inputFrom (env.files.bytes done.seen))

/-- A report that comes to its end has done all of its steps, and its records can be read. -/
theorem exists_completion (steady : env.files.IsSteady) {a : Unit}
    (ends : Ends (report env q) s a t) :
    ∃ done : Completion env s.files q, ∃ path text,
      done.folder.file RunFolder.inputsName = .ok path ∧
        env.libraries.dataText (RunFolder.listing (done.paths.map (inputRecord done.batch))) =
          .ok text ∧
        env.files.read t.files path.toString = .ok text.toUTF8.toList := by
  rw [report] at ends
  split at ends
  · exact absurd ends (not_ends_refuse_bind _ _)
  have ends := ends_files_bind_iff.1 ends
  dsimp only at ends
  split at ends
  case h_2 => exact absurd ends (not_ends_refuse_bind _ _)
  next found configured =>
  obtain ⟨config, workers⟩ := found
  obtain ⟨folder, opened, ends⟩ := ends_take_bind_iff.1 (ends_pure_bind_iff.1 ends)
  obtain ⟨_, t₁, opens, ends⟩ := ends_bind_iff.1 ends
  obtain ⟨⟨layout, table⟩, t₂, sets, ends⟩ := ends_bind_iff.1 ends
  obtain ⟨chosen, resolved, same⟩ := ends_setUp sets
  obtain ⟨paths, located, ends⟩ := ends_take_bind_iff.1 (ends_files_bind_iff.1 ends)
  obtain ⟨b, t₃, analyzes, ends⟩ := ends_bind_iff.1 ends
  obtain ⟨analyzed, -⟩ := ends_analyze analyzes
  rw [same] at analyzed located
  obtain ⟨_, t₄, -, ends⟩ := ends_bind_iff.1 ends
  dsimp only at ends
  split at ends
  · exact absurd ends (not_ends_refuse_bind _ _)
  next succeeded =>
  obtain ⟨_, t₆, writes, ends⟩ := ends_bind_iff.1 ends
  obtain ⟨_, t₇, records, ends⟩ := ends_bind_iff.1 ends
  obtain ⟨path, text, named, shown, written⟩ := ends_writeRecords steady records
  -- what is said behind the records leaves the files as they are
  obtain ⟨_, t₈, says₁, ends⟩ := ends_bind_iff.1 ends
  obtain ⟨_, t₉, says₂, ends⟩ := ends_bind_iff.1 ends
  obtain ⟨root, -, ends⟩ := ends_take_bind_iff.1 ends
  obtain ⟨_, t₁₀, says₃, ends⟩ := ends_bind_iff.1 ends
  rw [← ends_say says₁, ← ends_say says₂, ← ends_say says₃, ← ends_say ends] at written
  refine ⟨⟨config, workers, folder, t₁.files, layout, table, paths, b, configured, opened,
    fun _ _ => kept_openFolder steady opens, chosen, resolved, located, analyzed, ?_⟩,
    path, text, named, shown, written⟩
  simpa using succeeded

/-! ## Runs -/

theorem honest_openFolder (env : Surroundings σ κ) (folder : RunFolder) (c : κ) :
    Honest (openFolder env folder c) :=
  honest_bind (honest_take _) fun _ => honest_bind (honest_change _) fun _ =>
    honest_bind (honest_take _) fun _ => honest_bind (honest_take _) fun _ => honest_change _

theorem honest_setUp (env : Surroundings σ κ) (c : κ) : Honest (setUp env c) := by
  refine honest_bind honest_files fun w => ?_
  dsimp only
  split
  · exact honest_pure _
  · exact honest_refuse (by decide) _
  · split
    · exact honest_refuse (by decide) _
    · exact honest_fault _

theorem honest_analyze (env : Surroundings σ κ) (layout : Layout) (table : SymbolTable)
    (workers : Option Int) (paths : List String) :
    Honest (analyze env layout table workers paths) := by
  refine honest_bind honest_files fun w => ?_
  split
  · exact honest_pure _
  · exact honest_refuse (by decide) _
  · exact honest_refuse (by decide) _
  · exact honest_fault _

theorem honest_writeFile (env : Surroundings σ κ) (folder : RunFolder) (name text : String) :
    Honest (writeFile env folder name text) :=
  honest_bind (honest_take _) fun _ => honest_change _

theorem honest_writeDocument (env : Surroundings σ κ) (folder : RunFolder) (name : String)
    (blocks : List Markdown.Block) : Honest (writeDocument env folder name blocks) :=
  honest_bind (honest_take _) fun _ => honest_change _

theorem honest_writeReports (env : Surroundings σ κ) (folder : RunFolder) (name : String) (c : κ)
    (b : Batch Rounded) : Honest (writeReports env folder name c b) := by
  refine honest_bind (honest_take _) fun limit => honest_bind (honest_take _) fun json => ?_
  dsimp only
  split
  on_goal 1 =>
    refine honest_bind (honest_take _) fun _ => honest_bind (honest_take _) fun _ =>
      honest_bind (honest_writeFile _ _ _ _) fun _ => ?_
  -- with or without the tree, the tables come next
  all_goals
    refine honest_bind (honest_take _) fun asked => ?_
    split
    · exact honest_bind (honest_take _) fun _ => honest_bind (honest_writeDocument _ _ _ _) fun _ =>
        honest_bind (honest_take _) fun _ => honest_writeDocument _ _ _ _
    · exact honest_pure _

theorem honest_writeRecords (env : Surroundings σ κ) (folder : RunFolder) (c : κ)
    (b : Batch Rounded) (paths : List String) : Honest (writeRecords env folder c b paths) :=
  honest_bind (honest_take _) fun _ => honest_bind (honest_writeFile _ _ _ _) fun _ =>
    honest_bind (honest_take _) fun _ => honest_writeFile _ _ _ _

theorem honest_report (env : Surroundings σ κ) (q : Request) : Honest (report env q) := by
  rw [report]
  split
  · exact honest_refuse_bind (by decide) _
  refine honest_bind honest_files fun w => ?_
  dsimp only
  split
  case h_2 => exact honest_refuse_bind (by decide) _
  refine honest_bind (honest_pure _) fun configured => honest_bind (honest_take _) fun folder =>
    honest_bind (honest_openFolder _ _ _) fun _ => honest_bind (honest_setUp _ _) fun _ =>
      honest_bind honest_files fun _ => honest_bind (honest_take _) fun _ =>
      honest_bind (honest_analyze _ _ _ _ _) fun b =>
        honest_bind (honest_forM (fun _ => honest_warn _) _) fun _ => ?_
  split
  · exact honest_refuse_bind (by decide) _
  · exact honest_bind (honest_writeReports _ _ _ _ _) fun _ =>
      honest_bind (honest_writeRecords _ _ _ _ _) fun _ => honest_bind (honest_say _) fun _ =>
        honest_bind (honest_say _) fun _ => honest_bind (honest_take _) fun _ =>
          honest_bind (honest_say _) fun _ => honest_say _

/-- A run of a report with the code zero has come to its end. -/
theorem ends_of_code {w : σ} {arguments : List String}
    (asked : read arguments = .ok (.report q)) (done : (run env w arguments).code = .ok 0) :
    Ends (report env q) { files := w, output := [], errors := [] } ()
      (run env w arguments).scene := by
  have obeys : obey env arguments = report env q := by
    rw [obey, asked]
  rw [run, obeys] at done ⊢
  cases result : (report env q).run { files := w, output := [], errors := [] } with
  | mk end' t =>
      rw [result] at done
      cases end' with
      | ok a => exact result
      | error stop =>
          cases stop with
          | exit code =>
              cases done
              exact absurd result (honest_report env q _ t)
          | fault f => cases done

end CallProfile.Command
