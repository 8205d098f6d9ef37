import CallProfile.Proofs.Documents
import CallProfile.Proofs.Runs
import CallProfile.Proofs.Units
import CallProfile.Proofs.Workspaces
import CallProfile.StandIn.Libraries

/-! # Records of inputs

A run records of every input whether it is part of the results. It looks for the path of the input
among the names of those that are, and not for its place among the inputs. That tells the truth, as
a path has one spelling by then, and as inputs that hold the same are all part of the results or all
left out.
-/

namespace CallProfile

open Text

namespace Batch

variable {layout : Layout} {table : SymbolTable} {inputs before : List Input} {input : Input}
  {rate : Nat}

/-! ## Inputs that hold the same -/

/-- Whether an input can be decoded, and has no rate or a given one. -/
def agreesWith (layout : Layout) (rate : Nat) (input : Input) : Bool :=
  match input.recording layout with
  | .error _ => false
  | .ok r => r.sampleRate = 0 ∨ r.sampleRate = rate

theorem isMerged_eq_agreesWith (layout : Layout) (before : List Input) (input : Input) :
    isMerged layout before input =
      agreesWith layout (firstRate (decodedRates layout (before ++ [input]))) input :=
  rfl

theorem agreesWith_append (member : input ∈ inputs) (more : List Input) :
    agreesWith layout (firstRate (decodedRates layout (inputs ++ more))) input =
      agreesWith layout (firstRate (decodedRates layout inputs)) input := by
  cases read : input.recording layout with
  | error fault => rw [agreesWith, agreesWith, read]
  | ok r =>
      have listed : r.sampleRate ∈ decodedRates layout inputs :=
        List.mem_filterMap.2 ⟨input, member, by rw [read]; rfl⟩
      have append : decodedRates layout (inputs ++ more) =
          decodedRates layout inputs ++ decodedRates layout more := List.filterMap_append
      rw [agreesWith, agreesWith, read, append, firstRate_append]
      by_cases none : firstRate (decodedRates layout inputs) = 0
      · have idle : r.sampleRate = 0 := firstRate_eq_zero_iff.1 none _ listed
        simp [idle]
      · rw [if_neg none]

/-- An input is merged when it agrees with the first rate of all inputs, wherever it stands. -/
theorem isMerged_of_withBefore : ∀ x ∈ withBefore inputs,
    isMerged layout x.1 x.2 = agreesWith layout (firstRate (decodedRates layout inputs)) x.2 := by
  induction inputs using List.reverseRecOn with
  | nil => nofun
  | append_singleton inputs input ih =>
      intro x member
      rw [withBefore_append_singleton] at member
      rcases List.mem_append.1 member with earlier | last
      · have among : x.2 ∈ inputs := by
          obtain ⟨y, place, rfl⟩ := List.mem_map.1 earlier
          exact List.fst_mem_of_mem_zipIdx place
        rw [ih x earlier, agreesWith_append among]
      · rw [List.mem_singleton.1 last]
        exact isMerged_eq_agreesWith layout inputs input

theorem map_withBefore (inputs : List Input) : (withBefore inputs).map (·.2) = inputs := by
  rw [withBefore, List.map_map]
  exact List.zipIdx_map_fst ..

theorem mem_mergedInputs_iff : input ∈ mergedInputs layout inputs ↔
    input ∈ inputs ∧ agreesWith layout (firstRate (decodedRates layout inputs)) input = true := by
  rw [mergedInputs, List.filter_congr isMerged_of_withBefore]
  constructor
  · intro member
    obtain ⟨x, chosen, rfl⟩ := List.mem_map.1 member
    obtain ⟨listed, agrees⟩ := List.mem_filter.1 chosen
    refine ⟨?_, agrees⟩
    rw [← map_withBefore inputs]
    exact List.mem_map_of_mem listed
  · rintro ⟨member, agrees⟩
    rw [← map_withBefore inputs] at member
    obtain ⟨x, listed, rfl⟩ := List.mem_map.1 member
    exact List.mem_map_of_mem (List.mem_filter.2 ⟨listed, agrees⟩)

/-- Whether inputs are read from files that stay as they are, and have names of their own where they
    can be read. -/
structure AreNamed (inputs : List Input) : Prop where
  same : ∀ x ∈ inputs, ∀ y ∈ inputs, x.source = y.source → x.content = y.content
  named : ∀ x ∈ inputs, x.source = x.path ∨
    (∃ fault, x.content = .error fault) ∧ ∀ y ∈ inputs, y.source ≠ x.path

theorem agreesWith_congr {other : Input} (same : input.content = other.content) :
    agreesWith layout rate input = agreesWith layout rate other := by
  rw [agreesWith, agreesWith, Input.recording, Input.recording, same]

theorem not_agreesWith {fault : Fault} (unread : input.content = .error fault) :
    agreesWith layout rate input = false := by
  rw [agreesWith, Input.recording, unread]
  rfl

theorem contains_mergedInputs (layout : Layout) (named : AreNamed inputs) :
    ∀ x ∈ withBefore inputs, ((mergedInputs layout inputs).map (·.source)).contains x.2.path =
      isMerged layout x.1 x.2 := by
  intro x listed
  have member : x.2 ∈ inputs := by
    rw [← map_withBefore inputs]
    exact List.mem_map_of_mem listed
  rw [isMerged_of_withBefore x listed, Bool.eq_iff_iff, List.contains_iff_mem, List.mem_map]
  constructor
  · rintro ⟨y, merged, path⟩
    obtain ⟨among, agrees⟩ := mem_mergedInputs_iff.1 merged
    rcases named.named x.2 member with own | ⟨-, other⟩
    · rw [agreesWith_congr (named.same x.2 member y among (own.trans path.symm)), agrees]
    · exact absurd path (other y among)
  · intro agrees
    rcases named.named x.2 member with own | ⟨⟨fault, unread⟩, -⟩
    · exact ⟨x.2, mem_mergedInputs_iff.2 ⟨member, agrees⟩, own⟩
    · rw [not_agreesWith unread] at agrees
      cases agrees

section Results

variable {α : Type} [Times α] {workers : Option Int} {b : Batch α}

theorem failures_eq (made : analyze layout table workers inputs = .ok b) :
    b.failures = failuresOf layout inputs := by
  obtain ⟨_, -, made⟩ := bind_eq_ok_iff.1 made
  obtain ⟨outcomes, listed, made⟩ := bind_eq_ok_iff.1 made
  obtain ⟨graph, -, made⟩ := bind_eq_ok_iff.1 made
  obtain ⟨tree, -, made⟩ := bind_eq_ok_iff.1 made
  cases made
  obtain ⟨partials, -, collected⟩ := collect_eq listed
  rw [collected]

/-- Whether records tell of every input of a batch, in its place, if it is part of the results: the
    results are the sum of the inputs that are, and the others are the failures. -/
structure TellTruth (layout : Layout) (table : SymbolTable) (inputs : List Input) (b : Batch α)
    (records : List (String × Bool)) : Prop where
  length : records.length = inputs.length
  record : ∀ i input, inputs[i]? = some input →
    records[i]? = some (input.path, isMerged layout (inputs.take i) input)
  merged : ∃ partials, (mergedInputs layout inputs).mapM (profileOf layout table) = .ok partials ∧
    b.merged = Profile.sumOf partials
  failures : b.failures = failuresOf layout inputs

end Results

theorem getElem?_withBefore {i : Nat} (place : inputs[i]? = some input) :
    (withBefore inputs)[i]? = some (inputs.take i, input) := by
  rw [withBefore, List.getElem?_map, List.getElem?_zipIdx, place]
  simp

end Batch

/-! ## Records of inputs -/

namespace RunFolder

theorem told?_record (path : String) (ok : Bool) : told? (record path ok) = some (path, ok) :=
  rfl

theorem allTold?_listing (inputs : List (String × Bool)) :
    allTold? (listing inputs) = some inputs := by
  have records : allTold? (listing inputs) =
      (inputs.map fun input => record input.1 input.2).mapM told? := rfl
  rw [records]
  induction inputs with
  | nil => rfl
  | cons input inputs ih =>
      rw [List.map_cons, List.mapM_cons, told?_record, ih rfl]
      rfl

end RunFolder

namespace Command

variable {read : String → Except Fault (List UInt8)} {paths : List String}

/-- Whether an input is looked for under its own path, or has the path of no file. -/
def IsInputPath (path : String) : Prop :=
  (Path.ofString path).toString = path ∨ path = ""

/-- Inputs at such paths are named, unless the working directory could be read as a file. -/
theorem areNamed (unread : ∃ fault, read "." = .error fault)
    (each : ∀ path ∈ paths, IsInputPath path) :
    Batch.AreNamed (paths.map (Batch.inputFrom read)) where
  same := by
    intro x first y second name
    obtain ⟨path, -, rfl⟩ := List.mem_map.1 first
    obtain ⟨other, -, rfl⟩ := List.mem_map.1 second
    exact congrArg read name
  named := by
    intro x member
    obtain ⟨path, listed, rfl⟩ := List.mem_map.1 member
    rcases each path listed with own | empty
    · exact .inl own
    · subst empty
      refine .inr ⟨unread, fun y other => ?_⟩
      obtain ⟨path, -, rfl⟩ := List.mem_map.1 other
      exact Path.toString_ofString_ne_empty path

theorem tellTruth_of_areNamed {layout : Layout} {table : SymbolTable} {workers : Option Int}
    {b : Batch Rounded} (named : Batch.AreNamed (paths.map (Batch.inputFrom read)))
    (made : Batch.analyze layout table workers (paths.map (Batch.inputFrom read)) = .ok b) :
    Batch.TellTruth layout table (paths.map (Batch.inputFrom read)) b
      (paths.map (inputRecord b)) where
  length := by rw [List.length_map, List.length_map]
  record := by
    intro i input place
    have listed := List.mem_of_getElem? (Batch.getElem?_withBefore place)
    have told := Batch.contains_mergedInputs layout named _ listed
    rw [List.getElem?_map] at place
    obtain ⟨path, here, rfl⟩ := Option.map_eq_some_iff.1 place
    rw [List.getElem?_map, here, Option.map_some, inputRecord, Batch.succeeded_eq made]
    exact congrArg (fun ok => some (path, ok)) told
  merged := by
    obtain ⟨partials, collects, merged⟩ := Batch.collects_of_analyze made
    exact ⟨partials, collects.listed, merged⟩
  failures := Batch.failures_eq made

variable {σ κ : Type} {env : Surroundings σ κ} {w s : σ} {q : Request}

theorem isInputPath_of_inputPath (steady : env.files.IsSteady) (clean : env.cwd.IsClean)
    {text path : String} (means : inputPath env s text = .ok path) : IsInputPath path := by
  obtain ⟨p?, found, made⟩ := bind_eq_ok_iff.1 means
  cases made
  cases p? with
  | some p =>
      have resolved := steady.isResolved_of_userPath? clean found
      exact .inl (congrArg Path.toString (Path.ofString_toString resolved.clean))
  | none =>
      obtain ⟨free, word⟩ := Path.ofUser?_eq_none (FileSystem.userPath?_eq_none found)
      by_cases empty : text = ""
      · exact .inr empty
      · exact .inl (Path.toString_ofString ⟨empty, word, free⟩)

/-- A run that comes to its end has written down which of its inputs are part of the results, and
    what is read of it tells the truth. The record of an input stands in the place of the input. -/
theorem input_records_tell_truth (steady : env.files.IsSteady) (clean : env.cwd.IsClean)
    {load : String → Except Fault Datum} (loads : RunFolder.IsReadBack env.libraries load)
    {arguments : List String} (asked : Command.read arguments = .ok (.report q))
    (ended : (run env w arguments).code = .ok 0) :
    ∃ (done : Completion env w q) (path : Path) (text : String) (list : Datum)
      (records : List (String × Bool)),
      done.folder.file RunFolder.inputsName = .ok path ∧
        env.files.read (run env w arguments).scene.files path.toString =
          .ok text.toUTF8.toList ∧
        load text = .ok list ∧ RunFolder.allTold? list = some records ∧
        Batch.TellTruth done.layout done.table done.inputs done.batch records := by
  obtain ⟨done, path, text, named, shown, written⟩ :=
    exists_completion steady (ends_of_code asked ended)
  refine ⟨done, path, text, _, _, named, written, loads _ _ shown,
    RunFolder.allTold?_listing _, ?_⟩
  refine tellTruth_of_areNamed (areNamed ?_ fun path listed => ?_) done.analyzed
  · obtain ⟨problem, unread⟩ := steady.here done.seen
    exact ⟨.file problem ".", by rw [FileSystem.bytes, unread]; rfl⟩
  · obtain ⟨text, -, means⟩ := exists_of_mem_mapM done.located listed
    exact isInputPath_of_inputPath steady clean means

/-! ## A run over one file in three spellings -/

/-- Surroundings with a tool that lists no symbols. -/
def bareSurroundings : Surroundings Workspace StandIn.Config where
  files := Workspace.fileSystem
  libraries := StandIn.libraries
  tool := some { path := "nm", run := fun _ => { text := "", status := 0 } }
  now := { year := 2020, month := 1, day := 1, hour := 0, minute := 0, second := 0 }
  home := { root := "/", names := ["home"] }
  cwd := { root := "/", names := ["work"] }

theorem isClean_cwd : bareSurroundings.cwd.IsClean :=
  ⟨rfl, by decide⟩

/-- A file, one of another rate, and one that is cut off. -/
def threeFiles : Workspace where
  cwd := ["work"]
  entries :=
    [(["work", "fast.out"], .file (Batch.unitFile 100 [])),
      (["work", "slow.out"], .file (Batch.unitFile 50 [])), (["work", "cut.out"], .file [0])]

/-- Inputs that are spelled differently, that are missing, or that mean no path. -/
def spellings : List String :=
  ["fast.out", "slow.out", "sub/../fast.out", "cut.out", "none.out", "/work//fast.out", "null"]

def spelledRequest : Request where
  inputs := spellings
  symbols := none
  program := some "prog"
  layout := none
  runName := some "r"
  folder := none
  workers := none
  limit := none
  changes := []

def spelledArguments : List String :=
  spellings ++ ["--binary", "prog", "--run-id", "r"]

/-- What the run records: the file is merged wherever it stands, and the others are not. -/
def spelledListing : Datum :=
  RunFolder.listing
    [("/work/fast.out", true), ("/work/slow.out", false), ("/work/fast.out", true),
      ("/work/cut.out", false), ("/work/none.out", false), ("/work/fast.out", true),
      ("null", false)]

/-- Data as a document: what the run records stands in lines, everything else in JSON. -/
def recordsText (d : Datum) : Except Fault String :=
  if !d.isShort then .error .longNumber
  else if Json.write none d = Json.write none spelledListing then
    .ok (StandIn.Yaml.write spelledListing)
  else .ok (Json.write none d)

/-- The data in such a document. -/
def recordsOf (text : String) : Except Fault Datum :=
  if text = StandIn.Yaml.write spelledListing then .ok spelledListing else readJson text

def spelledSurroundings : Surroundings Workspace StandIn.Config :=
  { bareSurroundings with libraries := { StandIn.libraries with dataText := recordsText } }

theorem plain_listing {inputs : List (String × Bool)}
    (short : (RunFolder.listing inputs).isShort = true) :
    Json.Plain (RunFolder.listing inputs) := by
  let records := inputs.map fun input => RunFolder.record input.1 input.2
  have members : RunFolder.listing inputs =
      .map (Json.named [("count", .int records.length), ("inputs", .list records)]) := rfl
  have record (x : String × Bool) : Json.Plain (RunFolder.record x.1 x.2) := by
    have members : RunFolder.record x.1 x.2 =
        .map (Json.named [("path", .text x.1), ("ok", .bool x.2)]) := rfl
    rw [members]
    refine .map (by simp) (List.forall_mem_cons.2 ⟨.text x.1, ?_⟩)
    exact List.forall_mem_singleton.2 (.bool x.2)
  rw [members] at short ⊢
  have count := Json.areShortEntries_named.1 short _ List.mem_cons_self
  refine .map (by simp) (List.forall_mem_cons.2 ⟨.int (Json.isShort_int_iff.1 count), ?_⟩)
  exact List.forall_mem_singleton.2 (.list (List.forall_mem_map.2 fun x _ => record x))

theorem plain_spelledListing : Json.Plain spelledListing :=
  plain_listing (by decide +kernel)

theorem isReadBack_recordsOf : RunFolder.IsReadBack spelledSurroundings.libraries recordsOf := by
  intro inputs text written
  have written : recordsText (RunFolder.listing inputs) = .ok text := written
  rw [recordsText] at written
  split at written
  · cases written
  next short =>
  have plain := plain_listing (by simpa using short)
  split at written
  · next same =>
      rw [Json.eq_of_write plain plain_spelledListing same, ← Except.ok.inj written]
      exact if_pos rfl
  · cases written
    have read : readJson (Json.write none (RunFolder.listing inputs)) =
        .ok (RunFolder.listing inputs) := by
      rw [readJson, Json.read_of_plain none plain]
    have other : (readJson (StandIn.Yaml.write spelledListing)).isOk = false := by decide +kernel
    rw [recordsOf, if_neg, read]
    intro same
    rw [← same, read] at other
    cases other

theorem code_spelled : (run spelledSurroundings threeFiles spelledArguments).code = .ok 0 := by
  rw [← toOption_eq_some_iff]
  decide +kernel

theorem input_records_tell_truth_spelled :
    Command.read spelledArguments = .ok (.report spelledRequest) ∧
      (run spelledSurroundings threeFiles spelledArguments).code = .ok 0 ∧
      ∃ (done : Completion spelledSurroundings threeFiles spelledRequest) (path : Path)
        (text : String) (list : Datum) (records : List (String × Bool)),
        done.folder.file RunFolder.inputsName = .ok path ∧
          spelledSurroundings.files.read
            (run spelledSurroundings threeFiles spelledArguments).scene.files path.toString =
              .ok text.toUTF8.toList ∧
          recordsOf text = .ok list ∧ RunFolder.allTold? list = some records ∧
          Batch.TellTruth done.layout done.table done.inputs done.batch records := by
  have steady : spelledSurroundings.files.IsSteady := Workspace.isSteady
  have clean : spelledSurroundings.cwd.IsClean := isClean_cwd
  exact ⟨rfl, code_spelled,
    input_records_tell_truth steady clean isReadBack_recordsOf rfl code_spelled⟩

/-- The run writes its records in lines. -/
example :
    ((run spelledSurroundings threeFiles spelledArguments).scene.files.read
      "/work/tmp/gmon-report/r/inputs.yaml").toOption =
        some (StandIn.Yaml.write spelledListing).toUTF8.toList := by
  decide +kernel

end Command

end CallProfile
