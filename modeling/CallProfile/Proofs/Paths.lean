import CallProfile.Path
import CallProfile.Proofs.Words

/-! # Paths as texts

The text of an absolute path without idle names spells that path again. So a path that a user gives
has one text from then on, however it was spelled; a text that means no path has no slash in it.
-/

namespace CallProfile.Path

open Text

variable {cwd p : Path} {name text : String} {names : List String} {s : List Char}

/-! ## Names between slashes -/

theorem not_mem_of_mem_splitOn {piece : List Char} (member : piece ∈ s.splitOn '/') :
    '/' ∉ piece := by
  induction s generalizing piece with
  | nil =>
      rw [List.splitOn_nil, List.mem_singleton] at member
      subst member
      exact List.not_mem_nil
  | cons c s ih =>
      rw [List.splitOn_cons_eq_if_modifyHead] at member
      split at member
      · rcases List.mem_cons.1 member with rfl | later
        · exact List.not_mem_nil
        · exact ih later
      · next other =>
          obtain ⟨first, rest, split⟩ := List.exists_cons_of_ne_nil (List.splitOn_ne_nil '/' s)
          rw [split, List.modifyHead_cons] at member
          rcases List.mem_cons.1 member with rfl | later
          · have apart : c ≠ '/' := by simpa using other
            have free : '/' ∉ first := ih (by rw [split]; exact List.mem_cons_self)
            rw [List.mem_cons, not_or]
            exact ⟨apart.symm, free⟩
          · exact ih (by rw [split]; exact List.mem_cons_of_mem first later)

theorem isName_of_mem_namesOf (member : name ∈ namesOf s) : IsName name := by
  rw [namesOf, List.mem_filter, List.mem_map] at member
  obtain ⟨⟨piece, split, rfl⟩, kept⟩ := member
  rw [Bool.and_eq_true, decide_eq_true_eq, decide_eq_true_eq] at kept
  rw [IsName, String.toList_ofList]
  exact ⟨kept.1, kept.2, not_mem_of_mem_splitOn split⟩

theorem isName_ofString (text : String) : ∀ name ∈ (ofString text).names, IsName name :=
  fun _ => isName_of_mem_namesOf (s := text.toList)

theorem namesOf_cons_slash (s : List Char) : namesOf ('/' :: s) = namesOf s := by
  have split := List.splitOn_append_cons_self_of_not_mem (List.not_mem_nil (a := '/')) s
  rw [List.nil_append] at split
  rw [namesOf, split]
  rfl

theorem namesOf_intercalate (isName : ∀ name ∈ names, IsName name) :
    namesOf ("/".intercalate names).toList = names := by
  by_cases empty : names = []
  · subst empty
    rfl
  have free : ∀ piece ∈ names.map String.toList, '/' ∉ piece := by
    intro piece member
    obtain ⟨name, listed, rfl⟩ := List.mem_map.1 member
    exact (isName name listed).2.2
  have split : ("/".intercalate names).toList.splitOn '/' = names.map String.toList := by
    rw [String.toList_intercalate]
    exact List.splitOn_intercalate '/' free (by simpa using empty)
  have same : (names.map String.toList).map String.ofList = names := by
    simp [Function.comp_def]
  rw [namesOf, split, same, List.filter_eq_self]
  intro name member
  obtain ⟨some, word, -⟩ := isName name member
  simp [some, word]

/-! ## Texts of paths -/

theorem toList_toString (clean : p.IsClean) :
    p.toString.toList = '/' :: ("/".intercalate p.names).toList := by
  rw [toString, clean.root]
  simp

/-- The text of names, which starts with the first of them. -/
theorem exists_intercalate (name : String) (names : List String) :
    ∃ rest, ("/".intercalate (name :: names)).toList = name.toList ++ rest := by
  rw [String.toList_intercalate]
  cases names with
  | nil => exact ⟨[], by simp⟩
  | cons next names =>
      rw [List.map_cons, List.map_cons, List.intercalate_cons_cons, List.append_assoc]
      exact ⟨_, rfl⟩

theorem takeWhile_slash (isName : IsName name) (rest : List Char) :
    (name.toList ++ rest).takeWhile (· = '/') = [] := by
  obtain ⟨some, -, free⟩ := isName
  obtain ⟨c, more, spelled⟩ := List.exists_cons_of_ne_nil (mt String.toList_eq_nil_iff.1 some)
  have apart : c ≠ '/' := by
    rintro rfl
    exact free (by rw [spelled]; exact List.mem_cons_self)
  rw [spelled]
  simp [apart]

theorem ofString_toString (clean : p.IsClean) : ofString p.toString = p := by
  have first : ("/".intercalate p.names).toList.takeWhile (· = '/') = [] := by
    cases names : p.names with
    | nil => rfl
    | cons name others =>
        obtain ⟨rest, spelled⟩ := exists_intercalate name others
        rw [spelled]
        exact takeWhile_slash (clean.isName name (by rw [names]; exact List.mem_cons_self)) rest
  have slashes : (p.toString.toList.takeWhile (· = '/')).length = 1 := by
    rw [toList_toString clean, List.takeWhile_cons_of_pos (by simp), first]
    rfl
  have names : namesOf p.toString.toList = p.names := by
    rw [toList_toString clean, namesOf_cons_slash, namesOf_intercalate clean.isName]
  rw [ofString, slashes, names]
  simp [← clean.root]

theorem toString_ofString (isName : IsName text) : (ofString text).toString = text := by
  have start := takeWhile_slash isName []
  rw [List.append_nil] at start
  obtain ⟨some, word, free⟩ := isName
  have names : namesOf text.toList = [text] := by
    rw [namesOf, List.splitOn_eq_singleton free]
    simp [some, word]
  rw [ofString, start, names]
  simp [toString]

theorem toString_ofString_ne_empty (text : String) : (ofString text).toString ≠ "" := by
  intro empty
  rw [← String.toList_eq_nil_iff, toString] at empty
  split at empty
  · cases empty
  · next named =>
      rw [String.toList_append, List.append_eq_nil_iff] at empty
      cases names : (ofString text).names with
      | nil => simp [names, String.toList_eq_nil_iff.1 empty.1] at named
      | cons name others =>
          obtain ⟨rest, spelled⟩ := exists_intercalate name others
          rw [names, spelled, List.append_eq_nil_iff] at empty
          have isName := isName_ofString text name (by rw [names]; exact List.mem_cons_self)
          exact isName.1 (String.toList_eq_nil_iff.1 empty.2.1)

/-! ## What a user's text means -/

theorem isName_foldl_step {before : List String} (isName : ∀ name ∈ names, IsName name)
    (known : ∀ name ∈ before, IsName name) : ∀ name ∈ names.foldl step before, IsName name := by
  induction names generalizing before with
  | nil => exact known
  | cons next names ih =>
      refine ih (fun name later => isName name (List.mem_cons_of_mem next later)) ?_
      intro name member
      rw [step] at member
      split at member
      · exact known name (List.dropLast_subset _ member)
      · rcases List.mem_append.1 member with old | new
        · exact known name old
        · rw [List.mem_singleton.1 new]
          exact isName next List.mem_cons_self

theorem isName_join (clean : cwd.IsClean) (isName : ∀ name ∈ p.names, IsName name) :
    ∀ name ∈ (cwd.join p).names, IsName name := by
  intro name member
  rw [join] at member
  split at member
  · exact isName name member
  · exact (List.mem_append.1 member).elim (clean.isName name) (isName name)

/-- A text that means no path has no slash in it. -/
theorem ofUser?_eq_none (none : ofUser? text = none) : '/' ∉ text.toList ∧ text ≠ "." := by
  rw [ofUser?] at none
  split at none
  · next idle =>
      refine ⟨fun slash => ?_, ?_⟩
      · have kept := mem_trim slash rfl
        rw [Bool.or_eq_true, List.isEmpty_iff, decide_eq_true_eq] at idle
        rcases idle with empty | null
        · rw [empty] at kept
          cases kept
        · have shown := List.mem_map_of_mem (f := Char.toLower) kept
          rw [null] at shown
          revert shown
          decide
      · rintro rfl
        revert idle
        decide
  · cases none

theorem isName_of_ofUser? (means : ofUser? text = some p) : ∀ name ∈ p.names, IsName name := by
  rw [ofUser?] at means
  split at means
  · cases means
  · rw [← Option.some.inj means]
    exact isName_ofString _

/-- The text of a clean path means a path, and the same one unless it ends with a blank. -/
theorem ofUser?_toString (clean : p.IsClean) : ∃ again, ofUser? p.toString = some again ∧
    ((∀ c ∈ p.toString.toList.getLast?, isBlank c = false) → again = p) := by
  have spelled := toList_toString clean
  cases means : ofUser? p.toString with
  | none =>
      have free := (ofUser?_eq_none means).1
      rw [spelled] at free
      exact absurd List.mem_cons_self free
  | some again =>
      refine ⟨again, rfl, fun last => ?_⟩
      have whole : trim p.toString.toList = p.toString.toList := by
        refine trim_of_ends ?_ last
        intro c first
        rw [spelled, List.head?_cons] at first
        rw [← Option.some.inj first]
        rfl
      rw [ofUser?, whole, String.ofList_toList, ofString_toString clean] at means
      split at means
      · cases means
      · exact (Option.some.inj means).symm

/-! ## Paths without steps up -/

theorem up_not_mem_foldl_step {before : List String} (free : ".." ∉ before) :
    ".." ∉ names.foldl step before := by
  induction names generalizing before with
  | nil => exact free
  | cons name names ih =>
      refine ih ?_
      rw [step]
      split
      · exact fun member => free (List.dropLast_subset _ member)
      · next other =>
          rw [List.mem_append, List.mem_singleton, not_or]
          exact ⟨free, Ne.symm other⟩

theorem foldl_step_of_not_mem (free : ".." ∉ names) (before : List String) :
    names.foldl step before = before ++ names := by
  induction names generalizing before with
  | nil => exact (List.append_nil before).symm
  | cons name names ih =>
      rw [List.mem_cons, not_or] at free
      rw [List.foldl_cons, ih free.2, step, if_neg (Ne.symm free.1), List.append_assoc]
      rfl

theorem isAbsolute_of_isClean (clean : p.IsClean) : p.isAbsolute = true := by
  rw [isAbsolute, clean.root]
  rfl

theorem join_of_isClean (cwd : Path) (clean : p.IsClean) : cwd.join p = p :=
  if_pos (isAbsolute_of_isClean clean)

theorem isClean_resolve (clean : cwd.IsClean) (isName : ∀ name ∈ p.names, IsName name) :
    (resolve cwd p).IsClean where
  root := rfl
  isName := isName_foldl_step (isName_join clean isName) fun _ none =>
    (List.not_mem_nil none).elim

theorem up_not_mem_resolve (cwd p : Path) : ".." ∉ (resolve cwd p).names :=
  up_not_mem_foldl_step List.not_mem_nil

theorem resolve_of_not_mem (clean : p.IsClean) (free : ".." ∉ p.names) : resolve cwd p = p := by
  rw [resolve, join_of_isClean cwd clean, foldl_step_of_not_mem free, List.nil_append,
    ← clean.root]

end CallProfile.Path
