import CallProfile.Proofs.Outcomes
import CallProfile.StandIn.Libraries

/-! # Settings that are held

A setting that is set holds its new value from then on, and every other setting stays as it was.
What a configuration answers for a literal depends on what it holds and on nothing else.
-/

namespace CallProfile.StandIn.Config

variable {c c' : Config} {group name g n : String} {value : Datum}

/-- What a configuration holds for a setting of a group; it need not hold anything. -/
def held (c : Config) (group name : String) : Option Datum :=
  match c.group group with
  | .ok settings => Datum.lookup? name settings
  | .error _ => none

theorem group_of_held (holds : c.held group name = some value) :
    ∃ settings, c.group group = .ok settings ∧ Datum.lookup? name settings = some value := by
  rw [held] at holds
  split at holds
  · next settings grouped => exact ⟨settings, grouped, holds⟩
  · cases holds

theorem of_isLiteral (literal : value.isLiteral = true) :
    value.isText missingMark = false ∧ isReference value = false := by
  cases value with
  | text s =>
      rw [Datum.isLiteral, Bool.and_eq_true, decide_eq_true_eq, Bool.not_eq_true'] at literal
      exact ⟨decide_eq_false literal.1, literal.2⟩
  | _ => exact ⟨rfl, rfl⟩

theorem setting_of_held (holds : c.held group name = some value)
    (literal : value.isLiteral = true) : c.setting group name = .ok value := by
  obtain ⟨settings, grouped, found⟩ := group_of_held holds
  obtain ⟨known, plain⟩ := of_isLiteral literal
  simp only [setting, grouped, found, known, plain, bind, Except.bind]
  rfl

theorem settingOrNull_of_held (holds : c.held group name = some value)
    (literal : value.isLiteral = true) : c.settingOrNull group name = .ok value := by
  obtain ⟨settings, grouped, found⟩ := group_of_held holds
  obtain ⟨known, plain⟩ := of_isLiteral literal
  simp only [settingOrNull, grouped, found, known, plain, bind, Except.bind]
  rfl

theorem lay_of_isLiteral (literal : value.isLiteral = true) (lower : Datum) :
    Settings.lay false value lower = some value := by
  cases value with
  | list _ => cases literal
  | tuple _ => cases literal
  | map _ => cases literal
  | other => cases literal
  | _ => cases lower <;> rfl

/-- Setting a setting of a group puts its value in the place of the one that is there. -/
theorem alter_setting (f : Option Datum → Option Datum) (settings : Settings) :
    settings.alter false f [group, name] =
      match Datum.lookup? group settings with
      | some (.map inner) => (f (Datum.lookup? name inner)).map fun value =>
          Datum.put group (.map (Datum.put name value inner)) settings
      | _ => none := by
  rw [Settings.alter]
  · cases Datum.lookup? group settings with
    | none => rfl
    | some held =>
        cases held with
        | map inner =>
            dsimp only
            rw [Settings.alter, Option.map_map]
            rfl
        | _ => rfl
  · nofun

theorem set_eq_ok (literal : value.isLiteral = true) (made : c.set group name value = .ok c') :
    ∃ inner, Datum.lookup? group c.settings = some (.map inner) ∧
      c'.settings = Datum.put group (.map (Datum.put name value inner)) c.settings := by
  rw [set, Settings.set?, alter_setting] at made
  cases found : Datum.lookup? group c.settings with
  | none => simp [found] at made
  | some held =>
      cases held with
      | map inner =>
          rw [found] at made
          dsimp only at made
          cases there : Datum.lookup? name inner with
          | none => simp [there] at made
          | some old =>
              rw [there, Option.bind_some, lay_of_isLiteral literal] at made
              cases made
              exact ⟨inner, rfl, rfl⟩
      | _ => simp [found] at made

/-- A setting that is set holds its value, and every other one what it held. -/
theorem held_set (literal : value.isLiteral = true) (made : c.set group name value = .ok c')
    (g n : String) :
    c'.held g n = if g = group ∧ n = name then some value else c.held g n := by
  obtain ⟨inner, found, settings⟩ := set_eq_ok literal made
  have now : c'.group g = if g = group then .ok (Datum.put name value inner) else c.group g := by
    rw [Config.group, Config.group, settings, Datum.lookup?_put]
    by_cases same : g = group
    · rw [if_pos same, if_pos same]
    · rw [if_neg same, if_neg same]
  have before : c.group group = .ok inner := by
    rw [Config.group, found]
  rw [held, held, now]
  by_cases same : g = group
  · subst same
    rw [if_pos rfl, before]
    dsimp only
    rw [Datum.lookup?_put]
    by_cases here : n = name
    · rw [if_pos here, if_pos ⟨rfl, here⟩]
    · rw [if_neg here, if_neg fun both => here both.2]
  · rw [if_neg same, if_neg fun both => same both.1]

theorem keepsSettings : libraries.KeepsSettings held where
  setting := setting_of_held
  settingOrNull := settingOrNull_of_held
  update _ literal made g n := held_set literal made g n

end CallProfile.StandIn.Config
