import CallProfile.Proofs.Paths
import CallProfile.Proofs.Outcomes
import CallProfile.Workspace

/-! # Workspaces as files

What is written is read back. Writing a file and making directories leave every directory where it
is; making directories leaves the files as well. So a run can rely on a workspace.
-/

namespace CallProfile.Workspace

variable {w w' w'' : Workspace} {place names : List String} {entry : Entry} {path : String}
  {bytes : List UInt8}

theorem lookup_cons_eq (key other : List String) (entry : Entry)
    (entries : List (List String × Entry)) :
    ((key, entry) :: entries).lookup other =
      if other = key then some entry else entries.lookup other := by
  by_cases same : other = key
  · rw [if_pos same, same, List.lookup_cons_self]
  · rw [if_neg same, List.lookup_cons, beq_false_of_ne same]

theorem lookup_put (entries : List (List String × Entry)) (place other : List String)
    (entry : Entry) :
    (entries.filter (·.1 ≠ place) ++ [(place, entry)]).lookup other =
      if other = place then some entry else entries.lookup other := by
  induction entries with
  | nil => exact lookup_cons_eq place other entry []
  | cons e entries ih =>
      obtain ⟨key, value⟩ := e
      rw [lookup_cons_eq]
      by_cases removed : key = place
      · rw [List.filter_cons_of_neg (by simpa using removed), ih, removed]
        split <;> rfl
      · rw [List.filter_cons_of_pos (by simpa using removed), List.cons_append, lookup_cons_eq, ih]
        by_cases found : other = key
        · have apart : other ≠ place := by rwa [found]
          rw [if_pos found, if_neg apart, if_pos found]
        · rw [if_neg found, if_neg found]

/-- An entry is found where it has been put, and nothing changes elsewhere. The root stays, and so
    does the directory that relative paths start from. -/
theorem entry?_put (w : Workspace) (place other : List String) (entry : Entry) :
    entry? (w.put place entry) other =
      if other = [] ∨ other = w.cwd then some .directory
      else if other = place then some entry else w.entry? other := by
  rw [ entry?, entry?, put, lookup_put]
  by_cases top : other = [] ∨ other = w.cwd
  · rw [if_pos top, if_pos top]
  · rw [if_neg top, if_neg top, if_neg top]

/-- Whether every directory of a workspace is one in another. -/
def KeepsDirectories (w w' : Workspace) : Prop :=
  w'.cwd = w.cwd ∧ ∀ place, w.entry? place = some .directory → w'.entry? place = some .directory

theorem follow_of_keeps (keeps : w.KeepsDirectories w') {goal : List String}
    (leads : w.follow place names = .ok goal) : w'.follow place names = .ok goal := by
  induction names generalizing place with
  | nil => exact leads
  | cons name names ih =>
      rw [follow] at leads ⊢
      cases found : w.entry? place with
      | none => simp [found] at leads
      | some entry =>
          cases entry with
          | file bytes => simp [found] at leads
          | directory =>
              rw [found] at leads
              rw [keeps.2 place found]
              exact ih leads

theorem locate_of_keeps (keeps : w.KeepsDirectories w') {p : Path} {goal : List String}
    (leads : w.locate p = .ok goal) : w'.locate p = .ok goal := by
  rw [locate] at leads ⊢
  rw [keeps.1]
  exact follow_of_keeps keeps leads

theorem read_eq_ok_iff : w.read path = .ok bytes ↔
    ∃ place, w.locate (Path.ofString path) = .ok place ∧
      w.entry? place = some (.file bytes) := by
  rw [read]
  cases found : w.locate (Path.ofString path) with
  | error problem => exact iff_of_false nofun (by rintro ⟨_, ⟨⟩, -⟩)
  | ok place =>
      simp only [bind, Except.bind, Except.ok.injEq, exists_eq_left']
      cases w.entry? place with
      | none => exact iff_of_false nofun nofun
      | some entry =>
          cases entry with
          | directory => exact iff_of_false nofun nofun
          | file bytes' =>
              rw [Option.some.injEq, Entry.file.injEq]
              exact ⟨Except.ok.inj, congrArg _⟩

theorem write_eq_ok (writes : w.write path bytes = .ok w') :
    ∃ place, w.locate (Path.ofString path) = .ok place ∧ w.entry? place ≠ some .directory ∧
      w' = w.put place (.file bytes) := by
  obtain ⟨place, found, writes⟩ := bind_eq_ok_iff.1 writes
  split at writes
  · cases writes
  · next file =>
      cases writes
      exact ⟨place, found, file, rfl⟩

theorem keeps_put (file : w.entry? place ≠ some .directory) :
    w.KeepsDirectories (w.put place entry) := by
  refine ⟨rfl, fun other directory => ?_⟩
  rw [entry?_put]
  split
  · rfl
  · have apart : other ≠ place := by
      rintro rfl
      exact file directory
    rw [if_neg apart, directory]

theorem read_of_write (writes : w.write path bytes = .ok w') : w'.read path = .ok bytes := by
  obtain ⟨place, leads, file, rfl⟩ := write_eq_ok writes
  have below : ¬ (place = [] ∨ place = w.cwd) := fun top => file (if_pos top)
  refine read_eq_ok_iff.2 ⟨place, locate_of_keeps (keeps_put file) leads, ?_⟩
  rw [entry?_put, if_neg below, if_pos rfl]

/-! ## Preparing a workspace -/

/-- Whether a workspace has all that another one has, and beyond that only directories and empty
    files. -/
structure IsPrepared (w w' : Workspace) : Prop where
  cwd : w'.cwd = w.cwd
  kept : ∀ place entry, w.entry? place = some entry → w'.entry? place = some entry
  fresh : ∀ place bytes, w'.entry? place = some (.file bytes) →
    w.entry? place = some (.file bytes) ∨ w.entry? place = none ∧ bytes = []

theorem IsPrepared.refl (w : Workspace) : w.IsPrepared w :=
  ⟨rfl, fun _ _ => id, fun _ _ => .inl⟩

theorem IsPrepared.trans (first : w.IsPrepared w') (next : w'.IsPrepared w'') :
    w.IsPrepared w'' where
  cwd := next.cwd.trans first.cwd
  kept place entry stands := next.kept place entry (first.kept place entry stands)
  fresh place bytes stands := by
    rcases next.fresh place bytes stands with old | ⟨absent, empty⟩
    · exact first.fresh place bytes old
    · refine .inr ⟨?_, empty⟩
      cases found : w.entry? place with
      | none => rfl
      | some entry => exact absurd ((first.kept place entry found).symm.trans absent) nofun

theorem IsPrepared.keeps (prepared : w.IsPrepared w') : w.KeepsDirectories w' :=
  ⟨prepared.cwd, fun place => prepared.kept place .directory⟩

theorem IsPrepared.read (prepared : w.IsPrepared w') (reads : w.read path = .ok bytes) :
    w'.read path = .ok bytes := by
  obtain ⟨place, leads, stands⟩ := read_eq_ok_iff.1 reads
  exact read_eq_ok_iff.2 ⟨place, locate_of_keeps prepared.keeps leads,
    prepared.kept place _ stands⟩

theorem isPrepared_put (absent : w.entry? place = none)
    (fresh : ∀ bytes, entry = .file bytes → bytes = []) : w.IsPrepared (w.put place entry) where
  cwd := rfl
  kept other stood stands := by
    have apart : other ≠ place := by
      rintro rfl
      rw [absent] at stands
      cases stands
    rw [entry?_put, if_neg apart]
    split
    · next top =>
        rw [ entry?, if_pos top] at stands
        exact stands
    · exact stands
  fresh other bytes stands := by
    rw [entry?_put] at stands
    split at stands
    · cases stands
    split at stands
    · next same =>
        rw [same]
        exact .inr ⟨absent, fresh bytes (Option.some.inj stands)⟩
    · exact .inl stands

theorem isPrepared_makeOne (w : Workspace) (place : List String) :
    w.IsPrepared (w.makeOne place) := by
  rw [makeOne]
  cases found : w.entry? place with
  | none => exact isPrepared_put found nofun
  | some entry => exact .refl w

theorem isPrepared_foldl_makeOne (places : List (List String)) (w : Workspace) :
    w.IsPrepared (places.foldl makeOne w) := by
  induction places generalizing w with
  | nil => exact .refl w
  | cons place places ih => exact (isPrepared_makeOne w place).trans (ih _)

theorem makeDirectories_eq_ok {p : Path} (makes : w.makeDirectories p = .ok w') :
    (∀ place ∈ way p.names, w.isFile place = false) ∧ w' = (way p.names).foldl makeOne w := by
  rw [makeDirectories] at makes
  split at makes
  · cases makes
  split at makes
  · cases makes
  · next free =>
      cases makes
      refine ⟨fun place member => ?_, rfl⟩
      rw [Bool.not_eq_true, List.any_eq_false] at free
      exact Bool.eq_false_iff.2 (free place member)

theorem isPrepared_makeDirectories {p : Path} (makes : w.makeDirectories p = .ok w') :
    w.IsPrepared w' := by
  obtain ⟨-, rfl⟩ := makeDirectories_eq_ok makes
  exact isPrepared_foldl_makeOne _ w

/-- An empty file is all that is new when a log is opened. -/
theorem isPrepared_openLog (opens : w.openLog path = .ok w') : w.IsPrepared w' := by
  rw [openLog] at opens
  split at opens
  · cases opens
    exact .refl w
  next unread =>
  obtain ⟨place, leads, file, rfl⟩ := write_eq_ok opens
  have absent : w.entry? place = none := by
    cases found : w.entry? place with
    | none => rfl
    | some entry =>
        cases entry with
        | directory => exact absurd found file
        | file bytes =>
            rw [read_eq_ok_iff.2 ⟨place, leads, found⟩] at unread
            cases unread
  exact isPrepared_put absent fun bytes same => (Entry.file.inj same).symm

/-! ## Workspaces as the states of files -/

theorem isClean_root : ({ root := "/", names := [] } : Path).IsClean :=
  ⟨rfl, fun _ none => (List.not_mem_nil none).elim⟩

theorem isSteady : fileSystem.IsSteady where
  clean := by
    rintro _ p _ isName ⟨⟩
    exact ⟨Path.isClean_resolve isClean_root isName, Path.up_not_mem_resolve _ p⟩
  settled := by
    rintro _ p _ isName ⟨⟩
    have clean := Path.isClean_resolve isClean_root isName
    exact congrArg Except.ok (Path.resolve_of_not_mem clean (Path.up_not_mem_resolve _ p))
  written := read_of_write
  here w := by
    refine ⟨.directory, ?_⟩
    have stands : w.entry? w.cwd = some .directory := if_pos (.inr rfl)
    have leads : w.locate (Path.ofString ".") = .ok w.cwd := rfl
    show w.read "." = _
    rw [read, leads]
    simp only [bind, Except.bind, stands]
    rfl
  kept_directories makes reads := (isPrepared_makeDirectories makes).read reads
  kept_log opens reads := (isPrepared_openLog opens).read reads

end CallProfile.Workspace
