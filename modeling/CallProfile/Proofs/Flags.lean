import CallProfile.Proofs.InputRecords
import CallProfile.Proofs.Settings

/-! # Options over configurations

An option puts its value in the place of the one that a configuration holds, whatever changes were
made to it. What a run makes of its configuration follows its options as well, with one exception: a
program from which symbols are to be read gives way to a symbol map that the configuration names.
-/

namespace CallProfile.Command

variable {σ κ : Type} {env : Surroundings σ κ} {held : κ → String → String → Option Datum} {s : σ}
  {q : Request} {c c' base : κ} {p : Path} {text g n : String}

/-! ## Settings -/

/-- The value that options have for a setting, if they have one. -/
def optionFor (env : Surroundings σ κ) (s : σ) (q : Request) (group name : String) :
    Option Datum :=
  ((optionSettings env s q).lookup (group, name)).join.bind Except.toOption

/-- Whether settings that are given are there, and what is given for them are literals. -/
structure AreSettable (held : κ → String → String → Option Datum) (c : κ)
    (settings : List ((String × String) × Option (Except Fault Datum))) : Prop where
  there : ∀ x ∈ settings, x.2.isSome = true → (held c x.1.1 x.1.2).isSome = true
  literal : ∀ x ∈ settings, ∀ value ∈ x.2.bind Except.toOption, value.isLiteral = true

/-- What is given is held then, and what is not given is held as before. -/
theorem held_setGiven {lib : Libraries κ} (keeps : lib.KeepsSettings held) {group name : String}
    {given : Option (Except Fault Datum)}
    (there : given.isSome = true → (held c group name).isSome = true)
    (literal : ∀ value ∈ given.bind Except.toOption, value.isLiteral = true)
    (made : setGiven lib c ((group, name), given) = .ok c') (g n : String) :
    held c' g n =
      if g = group ∧ n = name then (given.bind Except.toOption).or (held c g n)
      else held c g n := by
  cases given with
  | none =>
      cases made
      simp
  | some value =>
      obtain ⟨d, same, updated⟩ := bind_eq_ok_iff.1 made
      subst same
      exact keeps.update (there rfl) (literal d rfl) updated g n

theorem held_foldlM {lib : Libraries κ} (keeps : lib.KeepsSettings held)
    {settings : List ((String × String) × Option (Except Fault Datum))}
    (distinct : (settings.map (·.1)).Nodup) (settable : AreSettable held c settings)
    (made : settings.foldlM (setGiven lib) c = .ok c') (g n : String) :
    held c' g n = ((settings.lookup (g, n)).join.bind Except.toOption).or (held c g n) := by
  induction settings generalizing c with
  | nil =>
      cases made
      rfl
  | cons x settings ih =>
      obtain ⟨⟨group, name⟩, given⟩ := x
      rw [List.foldlM_cons] at made
      obtain ⟨next, first, rest⟩ := bind_eq_ok_iff.1 made
      rw [List.map_cons, List.nodup_cons] at distinct
      have now := held_setGiven keeps (settable.there _ List.mem_cons_self)
        (settable.literal _ List.mem_cons_self) first
      have later : AreSettable held next settings := by
        refine ⟨fun x member some => ?_, fun x member =>
          settable.literal x (List.mem_cons_of_mem _ member)⟩
        rw [now, if_neg]
        · exact settable.there x (List.mem_cons_of_mem _ member) some
        · rintro ⟨rfl, rfl⟩
          exact distinct.1 (List.mem_map.2 ⟨x, member, rfl⟩)
      rw [ih distinct.2 later rest, now, List.lookup_cons]
      by_cases here : g = group ∧ n = name
      · obtain ⟨rfl, rfl⟩ := here
        have unlisted : settings.lookup (g, n) = none := by
          rw [List.lookup_eq_none_iff]
          intro x member
          refine bne_iff_ne.2 fun same => distinct.1 ?_
          exact List.mem_map.2 ⟨x, member, same.symm⟩
        rw [unlisted, if_pos ⟨rfl, rfl⟩, beq_self_eq_true]
        rfl
      · have other : ((g, n) == (group, name)) = false := by
          rw [beq_eq_false_iff_ne, Ne, Prod.mk.injEq]
          exact here
        rw [if_neg here, other]

theorem nodup_optionSettings (env : Surroundings σ κ) (s : σ) (q : Request) :
    ((optionSettings env s q).map (·.1)).Nodup := by
  have places : (optionSettings env s q).map (·.1) =
      [("symbols", "file"), ("symbols", "binary"), ("layout", "name"), ("report", "out_dir"),
        ("batch", "max_workers"), ("report", "top_k")] := rfl
  rw [places]
  decide

/-- A configured run has the options' values, and otherwise what the changes made of the packaged
    configuration. -/
theorem held_configure (keeps : env.libraries.KeepsSettings held) {workers : Option Int}
    (changed : env.libraries.compose q.changes = .ok base)
    (settable : AreSettable held base (optionSettings env s q))
    (configured : configure env s q = .ok (c, workers)) :
    workersOf env.libraries c = .ok workers ∧
      ∀ g n, held c g n = (optionFor env s q g n).or (held base g n) := by
  obtain ⟨base', composed, configured⟩ := bind_eq_ok_iff.1 configured
  obtain ⟨c', set, configured⟩ := bind_eq_ok_iff.1 configured
  obtain ⟨workers', counted, same⟩ := bind_eq_ok_iff.1 configured
  cases same
  rw [changed] at composed
  cases composed
  exact ⟨counted, held_foldlM keeps (nodup_optionSettings env s q) settable set⟩

/-! ## What a run makes of its configuration -/

/-- Whether a configuration holds a literal for a setting. -/
def HoldsLiteral (held : κ → String → String → Option Datum) (c : κ) (group name : String) : Prop :=
  ∃ d, held c group name = some d ∧ d.isLiteral = true

/-- Whether a run uses the options of a request where they are given, and otherwise what a
    configuration has without them. -/
structure UsesOptions (env : Surroundings σ κ) (held : κ → String → String → Option Datum) (s : σ)
    (q : Request) (base c : κ) (workers : Option Int) : Prop where
  symbolMap : ∀ text p, given? q.symbols = some text → userPath? env s text = .ok (some p) →
    ∀ seen, symbolsOf env seen c = tableOfMap env seen p.toString
  /-- A symbol map that the configuration names is read in the place of a given program. -/
  program : ∀ text p file, given? q.symbols = none → given? q.program = some text →
    userPath? env s text = .ok (some p) → held base "symbols" "file" = some file →
      file.isLiteral = true → ∀ seen, symbolsOf env seen c =
        if file.holds then file.toText >>= tableOfMap env seen else tableOfProgram env p.toString
  noSource : given? q.symbols = none → given? q.program = none →
    HoldsLiteral held base "symbols" "file" → HoldsLiteral held base "symbols" "binary" →
      ∀ seen, symbolsOf env seen c = symbolsOf env seen base
  layout : ∀ name, given? q.layout = some name → HoldsLiteral held base "layout" "byte_order" →
    HoldsLiteral held base "layout" "address_width" →
      layoutOf env.libraries c = layoutNamed env.libraries base (.ok (.text name))
  noLayout : given? q.layout = none → HoldsLiteral held base "layout" "name" →
    HoldsLiteral held base "layout" "byte_order" →
      HoldsLiteral held base "layout" "address_width" →
        layoutOf env.libraries c = layoutOf env.libraries base
  /-- The path is read twice, and blanks at its end would be lost then. -/
  folder : ∀ text p, given? q.folder = some text → userPath? env s text = .ok (some p) →
    (∀ ch ∈ p.toString.toList.getLast?, Text.isBlank ch = false) → ∀ run, folderOf env s run c = do
      let path ← env.files.resolve s (p.child run)
      return .ofRoot (← env.files.resolve s path)
  noFolder : given? q.folder = none → HoldsLiteral held base "report" "out_dir" →
    ∀ run, folderOf env s run c = folderOf env s run base
  shared : ∀ count, q.workers = some count → workers = some count
  unshared : q.workers = none → HoldsLiteral held base "batch" "max_workers" →
    workersOf env.libraries base = .ok workers
  limit : ∀ count, q.limit = some count →
    env.libraries.setting c "report" "top_k" >>= Datum.toInt = .ok count
  noLimit : q.limit = none → HoldsLiteral held base "report" "top_k" →
    env.libraries.setting c "report" "top_k" = env.libraries.setting base "report" "top_k"
  /-- Whatever has no option is held as before. -/
  others : ∀ g n, optionFor env s q g n = none → held c g n = held base g n

theorem holds_toString (clean : p.IsClean) : (Datum.text p.toString).holds = true := by
  have spelled := Path.toList_toString clean
  refine bne_iff_ne.2 fun empty => ?_
  rw [empty] at spelled
  cases spelled

theorem pathSetting_eq (means : userPath? env s text = .ok (some p)) :
    pathSetting env s text = .ok (.text p.toString) := by
  rw [pathSetting, means]
  rfl

theorem optionFor_of_none {α : Type} {given : Option α} {f : α → Except Fault Datum}
    (option : optionFor env s q g n = (given.map f).bind Except.toOption) (none : given = none) :
    optionFor env s q g n = Option.none := by
  rw [option, none]
  rfl

theorem isLiteral_of_optionFor {value : Datum}
    (settable : AreSettable held base (optionSettings env s q))
    (given : optionFor env s q g n = some value) : value.isLiteral = true := by
  obtain ⟨x, found, made⟩ := Option.bind_eq_some_iff.1 given
  obtain ⟨before, after, split, -⟩ := List.lookup_eq_some_iff.1 (Option.join_eq_some_iff.1 found)
  exact settable.literal ((g, n), some x) (by rw [split]; simp) value made

section Uses

variable {workers : Option Int} (keeps : env.libraries.KeepsSettings held)
  (settable : AreSettable held base (optionSettings env s q))
  (holds : ∀ g n, held c g n = (optionFor env s q g n).or (held base g n))

include keeps holds

theorem settings_of_none (none : optionFor env s q g n = none)
    (literal : HoldsLiteral held base g n) :
    env.libraries.setting c g n = env.libraries.setting base g n ∧
      env.libraries.settingOrNull c g n = env.libraries.settingOrNull base g n := by
  obtain ⟨d, before, isLiteral⟩ := literal
  have after : held c g n = some d := by
    rw [holds, none, before]
    rfl
  rw [keeps.setting before isLiteral, keeps.setting after isLiteral,
    keeps.settingOrNull before isLiteral, keeps.settingOrNull after isLiteral]
  exact ⟨rfl, rfl⟩

theorem symbolsOf_of_none (noMap : given? q.symbols = none) (noProgram : given? q.program = none)
    (file : HoldsLiteral held base "symbols" "file")
    (program : HoldsLiteral held base "symbols" "binary") (seen : σ) :
    symbolsOf env seen c = symbolsOf env seen base := by
  have files := settings_of_none keeps holds (optionFor_of_none rfl noMap) file
  have programs := settings_of_none keeps holds (optionFor_of_none rfl noProgram) program
  rw [symbolsOf, symbolsOf, files.1, files.2, programs.1, programs.2]

theorem layoutOf_of_none (none : given? q.layout = none)
    (name : HoldsLiteral held base "layout" "name")
    (order : HoldsLiteral held base "layout" "byte_order")
    (width : HoldsLiteral held base "layout" "address_width") :
    layoutOf env.libraries c = layoutOf env.libraries base := by
  have names := settings_of_none keeps holds (optionFor_of_none rfl none) name
  have orders := settings_of_none keeps holds rfl order
  have widths := settings_of_none keeps holds rfl width
  rw [layoutOf, layoutOf, layoutNamed, layoutNamed, orders.1, widths.1, widths.2, names.1]

theorem folderOf_of_none (none : given? q.folder = none)
    (literal : HoldsLiteral held base "report" "out_dir") (run : String) :
    folderOf env s run c = folderOf env s run base := by
  have folders := settings_of_none keeps holds (optionFor_of_none rfl none) literal
  rw [folderOf, folderOf, folders.1]

theorem workersOf_of_none (none : q.workers = none)
    (literal : HoldsLiteral held base "batch" "max_workers") :
    workersOf env.libraries c = workersOf env.libraries base := by
  have counts := settings_of_none keeps holds (optionFor_of_none rfl none) literal
  rw [workersOf, workersOf, counts.2]

include settable

theorem settings_of_given {α : Type} {given : Option α} {f : α → Except Fault Datum} {x : α}
    {value : Datum} (option : optionFor env s q g n = (given.map f).bind Except.toOption)
    (is : given = some x) (made : f x = .ok value) :
    env.libraries.setting c g n = .ok value ∧ env.libraries.settingOrNull c g n = .ok value := by
  have found : optionFor env s q g n = some value := by
    rw [option, is, Option.map_some, made]
    rfl
  have literal := isLiteral_of_optionFor settable found
  have after : held c g n = some value := by
    rw [holds, found]
    rfl
  exact ⟨keeps.setting after literal, keeps.settingOrNull after literal⟩

theorem symbolsOf_of_symbols (clean : p.IsClean) (given : given? q.symbols = some text)
    (means : userPath? env s text = .ok (some p)) (seen : σ) :
    symbolsOf env seen c = tableOfMap env seen p.toString := by
  obtain ⟨file, file'⟩ := settings_of_given (g := "symbols") (n := "file") keeps settable holds rfl
    given (pathSetting_eq means)
  rw [symbolsOf, file, file']
  exact if_pos (holds_toString clean)

theorem symbolsOf_of_program (clean : p.IsClean) {file : Datum} (noMap : given? q.symbols = none)
    (given : given? q.program = some text) (means : userPath? env s text = .ok (some p))
    (before : held base "symbols" "file" = some file) (literal : file.isLiteral = true) (seen : σ) :
    symbolsOf env seen c =
      if file.holds then file.toText >>= tableOfMap env seen
      else tableOfProgram env p.toString := by
  obtain ⟨program, program'⟩ := settings_of_given (g := "symbols") (n := "binary") keeps settable
    holds rfl given (pathSetting_eq means)
  have files := settings_of_none keeps holds (optionFor_of_none rfl noMap) ⟨file, before, literal⟩
  rw [symbolsOf, files.1, files.2, keeps.setting before literal,
    keeps.settingOrNull before literal]
  refine if_congr Iff.rfl rfl ?_
  rw [program, program']
  exact if_pos (holds_toString clean)

theorem layoutOf_of_layout {name : String} (given : given? q.layout = some name)
    (order : HoldsLiteral held base "layout" "byte_order")
    (width : HoldsLiteral held base "layout" "address_width") :
    layoutOf env.libraries c = layoutNamed env.libraries base (.ok (.text name)) := by
  obtain ⟨named, -⟩ := settings_of_given (g := "layout") (n := "name") keeps settable holds rfl
    given rfl
  have orders := settings_of_none keeps holds rfl order
  have widths := settings_of_none keeps holds rfl width
  rw [layoutOf, named, layoutNamed, layoutNamed, orders.1, widths.1, widths.2]

theorem folderOf_of_folder (resolved : env.files.IsResolved s p)
    (given : given? q.folder = some text) (means : userPath? env s text = .ok (some p))
    (last : ∀ ch ∈ p.toString.toList.getLast?, Text.isBlank ch = false) (run : String) :
    folderOf env s run c = do
      let path ← env.files.resolve s (p.child run)
      return .ofRoot (← env.files.resolve s path) := by
  obtain ⟨folder, -⟩ := settings_of_given (g := "report") (n := "out_dir") keeps settable holds rfl
    given (pathSetting_eq means)
  have again : userPath? env s p.toString = .ok (some p) :=
    FileSystem.userPath?_toString resolved last env.cwd
  have text : (Datum.text p.toString).toText = .ok p.toString := rfl
  rw [folderOf, folder]
  dsimp only [bind, Except.bind]
  rw [text]
  dsimp only
  rw [again]
  dsimp only
  rw [Option.getD_some, RunFolder.pathOf_of_isClean env.home resolved.clean]

theorem workersOf_of_workers {count : Int} (given : q.workers = some count)
    (counted : workersOf env.libraries c = .ok workers) : workers = some count := by
  obtain ⟨-, option⟩ := settings_of_given (g := "batch") (n := "max_workers") keeps settable holds
    rfl given rfl
  rw [workersOf, option] at counted
  change (if count < 1 then Except.error (Fault.configuredWorkers count) else .ok (some count)) = _
    at counted
  split at counted
  · cases counted
  · exact (Except.ok.inj counted).symm

theorem limit_of_limit {count : Int} (given : q.limit = some count) :
    env.libraries.setting c "report" "top_k" >>= Datum.toInt = .ok count := by
  obtain ⟨option, -⟩ := settings_of_given (g := "report") (n := "top_k") keeps settable holds rfl
    given rfl
  rw [option]
  rfl

end Uses

/-! ## Runs -/

theorem usesOptions_of_configure (keeps : env.libraries.KeepsSettings held)
    (steady : env.files.IsSteady) (clean : env.cwd.IsClean) {workers : Option Int}
    (changed : env.libraries.compose q.changes = .ok base)
    (settable : AreSettable held base (optionSettings env s q))
    (configured : configure env s q = .ok (c, workers)) :
    UsesOptions env held s q base c workers := by
  obtain ⟨counted, holds⟩ := held_configure keeps changed settable configured
  have resolved {text p} (means : userPath? env s text = .ok (some p)) :
      env.files.IsResolved s p := steady.isResolved_of_userPath? clean means
  exact {
    symbolMap := fun _ _ given means =>
      symbolsOf_of_symbols keeps settable holds (resolved means).clean given means
    program := fun _ _ _ noMap given means before literal =>
      symbolsOf_of_program keeps settable holds (resolved means).clean noMap given means before
        literal
    noSource := fun noMap noProgram file program =>
      symbolsOf_of_none keeps holds noMap noProgram file program
    layout := fun _ given order width =>
      layoutOf_of_layout keeps settable holds given order width
    noLayout := fun none name order width => layoutOf_of_none keeps holds none name order width
    folder := fun _ _ given means last =>
      folderOf_of_folder keeps settable holds (resolved means) given means last
    noFolder := fun none literal => folderOf_of_none keeps holds none literal
    shared := fun _ given => workersOf_of_workers keeps settable holds given counted
    unshared := fun none literal => (workersOf_of_none keeps holds none literal).symm.trans counted
    limit := fun _ given => limit_of_limit keeps settable holds given
    noLimit := fun none literal =>
      (settings_of_none keeps holds (optionFor_of_none rfl none) literal).1
    others := fun g n none => by rw [holds, none, Option.none_or] }

/-- Whatever changes were made to a configuration, a run uses the options that it is given, and a
    run that comes to its end was made with them. Only a program gives way to a symbol map that the
    configuration names. The settings of the options have to be there, and what is given for them
    must not refer to other settings. -/
theorem runs_use_options (keeps : env.libraries.KeepsSettings held) (steady : env.files.IsSteady)
    (clean : env.cwd.IsClean) (changed : env.libraries.compose q.changes = .ok base)
    (settable : AreSettable held base (optionSettings env s q)) :
    (∀ c workers, configure env s q = .ok (c, workers) →
      UsesOptions env held s q base c workers) ∧
      ∀ arguments, Command.read arguments = .ok (.report q) →
        (run env s arguments).code = .ok 0 →
          ∃ done : Completion env s q,
            UsesOptions env held s q base done.config done.workers := by
  refine ⟨fun c workers configured => ?_, fun arguments asked ended => ?_⟩
  · exact usesOptions_of_configure keeps steady clean changed settable configured
  · obtain ⟨done, -⟩ := exists_completion steady (ends_of_code asked ended)
    exact ⟨done, usesOptions_of_configure keeps steady clean changed settable done.configured⟩

/-! ## A run with options and changes -/

/-- Arguments that give an option for every setting that they change. -/
def optionArguments : List String :=
  ["fast.out", "--binary", "prog", "--layout", "gnu-v1", "--out-dir", "out/new", "--workers", "2",
    "--top-k", "3", "--run-id", "r", "--override", "symbols.binary=other", "--override",
    "layout.name=none", "--override", "report.out_dir=old", "--override", "batch.max_workers=7",
    "--override", "report.top_k=9"]

def optionRequest : Request where
  inputs := ["fast.out"]
  symbols := none
  program := some "prog"
  layout := some "gnu-v1"
  runName := some "r"
  folder := some "out/new"
  workers := some 2
  limit := some 3
  changes := ["symbols.binary=other", "layout.name=none", "report.out_dir=old",
    "batch.max_workers=7", "report.top_k=9"]

theorem code_optionArguments : (run bareSurroundings threeFiles optionArguments).code = .ok 0 := by
  rw [← toOption_eq_some_iff]
  decide +kernel

/-- What the changes of the request make of the packaged configuration. -/
def changedConfig : StandIn.Config :=
  (StandIn.Config.ofChanges optionRequest.changes).toOption.getD ⟨[]⟩

theorem areSettable_optionRequest : AreSettable StandIn.Config.held changedConfig
    (optionSettings bareSurroundings threeFiles optionRequest) :=
  ⟨by decide +kernel, by decide +kernel⟩

theorem runs_use_options_optionArguments :
    bareSurroundings.libraries.compose optionRequest.changes = .ok changedConfig ∧
      (∃ c workers, UsesOptions bareSurroundings StandIn.Config.held threeFiles optionRequest
        changedConfig c workers) ∧
      ∃ done : Completion bareSurroundings threeFiles optionRequest,
        UsesOptions bareSurroundings StandIn.Config.held threeFiles optionRequest changedConfig
          done.config done.workers := by
  have changed : bareSurroundings.libraries.compose optionRequest.changes = .ok changedConfig :=
    eq_ok_getD (by decide +kernel) _
  obtain ⟨⟨c, workers⟩, configured⟩ :=
    exists_of_isOk (x := configure bareSurroundings threeFiles optionRequest) (by decide +kernel)
  have keeps : bareSurroundings.libraries.KeepsSettings StandIn.Config.held :=
    StandIn.Config.keepsSettings
  have uses := runs_use_options keeps Workspace.isSteady isClean_cwd changed
    areSettable_optionRequest
  exact ⟨changed, ⟨c, workers, uses.1 c workers configured⟩,
    uses.2 optionArguments rfl code_optionArguments⟩

/-! ## A program and a configured symbol map -/

/-- Arguments that give a program and no symbol map. -/
def programArguments : List String :=
  ["fast.out", "--binary", "prog", "--run-id", "r"]

def mappedArguments : List String :=
  programArguments ++ ["--override", "symbols.file=map.json"]

def mappedRequest : Request where
  inputs := ["fast.out"]
  symbols := none
  program := some "prog"
  layout := none
  runName := some "r"
  folder := none
  workers := none
  limit := none
  changes := ["symbols.file=map.json"]

/-- A configured symbol map is asked for, which need not even be there, and the given program is
    not. -/
theorem map_wins_over_program :
    Command.read mappedArguments = .ok (.report mappedRequest) ∧
      (∃ c workers, configure bareSurroundings threeFiles mappedRequest = .ok (c, workers) ∧
        ∃ fault, symbolsOf bareSurroundings threeFiles c = .error fault) ∧
      (∃ table, tableOfProgram bareSurroundings "/work/prog" = .ok table) ∧
      (run bareSurroundings threeFiles mappedArguments).code = .ok 1 ∧
      (run bareSurroundings threeFiles programArguments).code = .ok 0 := by
  refine ⟨rfl, ?_, exists_of_isOk (by decide +kernel), ?_, ?_⟩
  · have fails : (configure bareSurroundings threeFiles mappedRequest).toOption.map
        (fun configured => (symbolsOf bareSurroundings threeFiles configured.1).isOk) =
          some false := by
      decide +kernel
    obtain ⟨⟨c, workers⟩, configured, fails⟩ := Option.map_eq_some_iff.1 fails
    refine ⟨c, workers, toOption_eq_some_iff.1 configured, ?_⟩
    cases result : symbolsOf bareSurroundings threeFiles c with
    | error fault => exact ⟨fault, rfl⟩
    | ok table =>
        rw [result] at fails
        cases fails
  · rw [← toOption_eq_some_iff]
    decide +kernel
  · rw [← toOption_eq_some_iff]
    decide +kernel

end CallProfile.Command
