import CallProfile.Command.Run
import CallProfile.Proofs.Outcomes
import CallProfile.Proofs.Paths
import CallProfile.Proofs.Workspaces

/-! # Where runs read and write

The paths that a run reads at are those that its user means, and the files that it writes lie in the
folder that it has made. Once a folder is made in a workspace, a file can be written in it unless a
directory has its name.
-/

namespace CallProfile

namespace Path

variable {p : Path} {name : String}

end Path

namespace Workspace

variable {v w w' : Workspace} {path : String} {place names : List String} {name : String}
  {root : Path} {bytes : List UInt8}

end Workspace

/-! ## Paths that users give -/

namespace FileSystem

variable {σ : Type} {fs : FileSystem σ} {s : σ} {cwd p : Path} {text : String}

theorem named_eq_ok_iff {α : Type} {path : String} {x : Except FileProblem α} {a : α} :
    named path x = .ok a ↔ x = .ok a := by
  cases x with
  | ok b => exact ⟨fun same => congrArg Except.ok (Except.ok.inj same),
      fun same => congrArg Except.ok (Except.ok.inj same)⟩
  | error problem => exact iff_of_false (by rintro ⟨⟩) (by rintro ⟨⟩)

/-- Whether a path has been resolved. -/
structure IsResolved (fs : FileSystem σ) (s : σ) (p : Path) : Prop where
  clean : p.IsClean
  down : ".." ∉ p.names
  settled : fs.resolve s p = .ok p

theorem IsSteady.isResolved (steady : fs.IsSteady) {q : Path}
    (isName : ∀ name ∈ p.names, Path.IsName name) (resolves : fs.resolve s p = .ok q) :
    fs.IsResolved s q where
  clean := (steady.clean isName resolves).1
  down := (steady.clean isName resolves).2
  settled := steady.settled isName resolves

theorem userPath?_eq_some (means : fs.userPath? s cwd text = .ok (some p)) :
    ∃ given, Path.ofUser? text = some given ∧ fs.resolve s (cwd.join given) = .ok p := by
  rw [userPath?] at means
  split at means
  · cases means
  · next given spelled =>
      obtain ⟨q, resolves, same⟩ := map_eq_ok_iff.1 means
      exact ⟨given, spelled, resolves.trans (congrArg Except.ok (Option.some.inj same))⟩

theorem userPath?_eq_none (means : fs.userPath? s cwd text = .ok none) :
    Path.ofUser? text = none := by
  rw [userPath?] at means
  split at means
  · next none => exact none
  · obtain ⟨q, -, same⟩ := map_eq_ok_iff.1 means
    cases same

theorem IsSteady.isResolved_of_userPath? (steady : fs.IsSteady) (clean : cwd.IsClean)
    (means : fs.userPath? s cwd text = .ok (some p)) : fs.IsResolved s p := by
  obtain ⟨given, spelled, resolves⟩ := userPath?_eq_some means
  exact steady.isResolved (Path.isName_join clean (Path.isName_of_ofUser? spelled)) resolves

theorem userPath?_toString (resolved : fs.IsResolved s p)
    (last : ∀ c ∈ p.toString.toList.getLast?, Text.isBlank c = false) (cwd : Path) :
    fs.userPath? s cwd p.toString = .ok (some p) := by
  obtain ⟨again, spelled, same⟩ := Path.ofUser?_toString resolved.clean
  rw [userPath?, spelled, same last]
  dsimp only
  rw [Path.join_of_isClean cwd resolved.clean, resolved.settled]
  rfl

end FileSystem

/-! ## Folders -/

namespace Path

variable {p : Path}

theorem child_of_isClean (clean : p.IsClean) (text : String) :
    (p.child text).isAbsolute = true ∧ ∀ name ∈ (p.child text).names, IsName name := by
  rw [child, join]
  split
  · next absolute => exact ⟨absolute, isName_ofString text⟩
  · have absolute : ({ p with names := p.names ++ (ofString text).names } : Path).isAbsolute =
        p.isAbsolute := rfl
    refine ⟨absolute.trans (isAbsolute_of_isClean clean), fun name member => ?_⟩
    exact (List.mem_append.1 member).elim (clean.isName name) (isName_ofString text name)

end Path

namespace RunFolder

/-- The folder of a run below an absolute base does not depend on where the project lies. -/
theorem pathOf_of_isClean (home : Path) {base : Path} (clean : base.IsClean) (run : String) :
    pathOf home (some base.toString) run = base.child run := by
  have named : base.toString ≠ "" := by
    intro empty
    have spelled := Path.toList_toString clean
    rw [empty] at spelled
    cases spelled
  rw [pathOf, if_neg named, Path.ofString_toString clean, Path.join,
    if_pos (Path.child_of_isClean clean run).1]

end RunFolder

/-! ## Names of documents -/

namespace Report

end Report

end CallProfile
