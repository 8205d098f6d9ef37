import CallProfile.Proofs.Division

/-! # Charging components

Each component is charged from those that are finished before it. As callees come first,
these hold all that it calls outside itself, so what a symbol is charged does not depend on
the moment: it can be read from all components together.
-/

namespace CallProfile.CallGraph

open Arc

variable {α : Type} [Times α] {arcs : List Arc} {times : Symbol → Int}

/-- Components, callees first, each of them charged from those before it. -/
structure IsCharged (arcs : List Arc) (times : Symbol → Int) (components : List (Component α)) :
    Prop where
  division : IsDivision arcs (components.map (·.members))
  calleesFirst : CallersFirst arcs (components.map (·.members)).reverse
  charged : ∀ before c after, components = before ++ c :: after →
    c = chargedComponent (merge arcs) times before c.members

theorem members_foldl_finish (arcs : ArcTally) (times : Symbol → Int) (parts : List (List Symbol))
    (finished : List (Component α)) :
    (parts.foldl (finish arcs times) finished).map (·.members) =
      finished.map (·.members) ++ parts := by
  induction parts generalizing finished with
  | nil => simp
  | cons c parts ih =>
      rw [List.foldl_cons, ih, finish]
      simp [chargedComponent]

theorem charged_foldl_finish {arcs : ArcTally} (parts : List (List Symbol))
    {finished : List (Component α)}
    (charged : ∀ before c after, finished = before ++ c :: after →
      c = chargedComponent arcs times before c.members) :
    ∀ before c after, parts.foldl (finish arcs times) finished = before ++ c :: after →
      c = chargedComponent arcs times before c.members := by
  induction parts generalizing finished with
  | nil => exact charged
  | cons members parts ih =>
      refine ih fun before c after split => ?_
      rcases List.eq_nil_or_concat after with rfl | ⟨rest, last, rfl⟩
      · obtain ⟨rfl, same⟩ := List.append_inj' split rfl
        rw [← (List.cons.inj same).1]
        rfl
      · have longer : finished ++ [chargedComponent arcs times finished members] =
            (before ++ c :: rest) ++ [last] := by simpa [finish] using split
        exact charged before c rest (List.append_inj' longer rfl).1

/-- Every list of arcs has charged components, and the call graph is made of them. -/
theorem ofArcs_eq (arcs : List Arc) (times : Symbol → Int) :
    ∃ components : List (Component α), IsCharged arcs times components ∧
      ofArcs arcs times =
        if (ofComponents (merge arcs) times components).fits then
          .ok (ofComponents (merge arcs) times components)
        else .error .overflow := by
  obtain ⟨ordered, found, division, forward⟩ :=
    inCallOrder_ok (isDivision_componentsOf arcs) (calleesFirst_componentsOf arcs)
  have members : ((ordered.reverse.foldl (finish (merge arcs) times) [] :
      List (Component α)).map (·.members)) = ordered.reverse :=
    members_foldl_finish (merge arcs) times ordered.reverse []
  refine ⟨ordered.reverse.foldl (finish (merge arcs) times) [], ⟨?_, ?_, ?_⟩, ?_⟩
  · rw [members]
    exact division.perm ordered.reverse_perm
  · rw [members, List.reverse_reverse]
    exact forward
  · exact charged_foldl_finish ordered.reverse (by simp)
  · unfold ofArcs ofTally
    rw [found]
    rfl

theorem exists_components {g : CallGraph α} (made : ofArcs arcs times = .ok g) :
    ∃ components, IsCharged arcs times components ∧
      g = ofComponents (merge arcs) times components := by
  obtain ⟨components, charged, graph⟩ := ofArcs_eq (α := α) arcs times
  rw [graph] at made
  split at made
  · cases made
    exact ⟨components, charged, rfl⟩
  · cases made

namespace IsCharged

variable {components before after : List (Component α)} {c : Component α} {s v : Symbol}

theorem component_unique (charged : IsCharged arcs times components) {d : Component α}
    (first : c ∈ components) (second : d ∈ components) (here : s ∈ c.members)
    (there : s ∈ d.members) : c = d := by
  obtain ⟨i, place⟩ := List.getElem?_of_mem first
  obtain ⟨j, place'⟩ := List.getElem?_of_mem second
  have same : i = j := charged.division.place_unique (c := c.members) (d := d.members)
    (by simp [place]) (by simp [place']) here there
  rw [same, place'] at place
  exact (Option.some.inj place).symm

theorem exists_component (charged : IsCharged arcs times components) (inside : s ∈ symbols arcs) :
    ∃ c ∈ components, s ∈ c.members := by
  obtain ⟨members, listed, here⟩ := charged.division.exists_part inside
  obtain ⟨c, member, rfl⟩ := List.mem_map.1 listed
  exact ⟨c, member, here⟩

theorem same_iff (charged : IsCharged arcs times components) (member : c ∈ components)
    (inside : s ∈ c.members) : v ∈ c.members ↔ Together arcs s v :=
  charged.division.same_iff c.members (List.mem_map_of_mem member) s inside v

theorem callsIn_eq (charged : IsCharged arcs times components) (member : c ∈ components) :
    c.callsIn = entering arcs c.members.toFinset := by
  obtain ⟨before, after, split⟩ := List.append_of_mem member
  rw [← callsInto_merge, charged.charged before c after split]
  rfl

/-- What a component calls outside itself is in a component before it. -/
theorem callee_before (charged : IsCharged arcs times components)
    (split : components = before ++ c :: after) (inside : s ∈ c.members)
    (joins : Joins arcs s v) (apart : v ∉ c.members) : ∃ d ∈ before, v ∈ d.members := by
  have reversed : (components.map (·.members)).reverse =
      (after.map (·.members)).reverse ++ c.members :: (before.map (·.members)).reverse := by
    simp [split]
  obtain ⟨members, member, here⟩ := (charged.division.perm (List.reverse_perm _)).callee_after
    charged.calleesFirst reversed inside joins apart
  obtain ⟨d, earlier, rfl⟩ := List.mem_map.1 (List.mem_reverse.1 member)
  exact ⟨d, earlier, here⟩

theorem absent_before (charged : IsCharged arcs times components)
    (split : components = before ++ c :: after) (inside : s ∈ c.members) :
    ∀ d ∈ before, s ∉ d.members := by
  intro d member here
  have apart := (List.nodup_flatten.1 charged.division.distinct).2
  rw [split, List.map_append, List.pairwise_append] at apart
  exact apart.2.2 d.members (List.mem_map_of_mem member) c.members (by simp) here inside

theorem find?_component (charged : IsCharged arcs times components) (member : c ∈ components)
    (inside : s ∈ c.members) : components.find? (·.members.contains s) = some c := by
  refine find?_of_unique member (by simpa using inside) fun d other here => ?_
  exact charged.component_unique other member (by simpa using here) inside

theorem find?_outside_of_together (charged : IsCharged arcs times components)
    (together : Together arcs s v) :
    (outside components s).find? (·.members.contains v) = none := by
  rw [List.find?_eq_none]
  intro d member here
  obtain ⟨listed, other⟩ := List.mem_filter.1 member
  have back := (charged.same_iff listed (by simpa using here)).2 together.symm
  simp [back] at other

theorem find?_outside_of_apart (charged : IsCharged arcs times components)
    (member : c ∈ components) (inside : v ∈ c.members) (apart : ¬ Together arcs s v) :
    (outside components s).find? (·.members.contains v) = some c := by
  have absent : s ∉ c.members := fun here => apart ((charged.same_iff member here).1 inside)
  refine find?_of_unique ?_ (by simpa using inside) fun d other here => ?_
  · simpa [outside, absent] using member
  · exact charged.component_unique (List.mem_of_mem_filter other) member
      (by simpa using here) inside

/-- What a symbol is charged does not depend on what is finished after its component. -/
theorem charges_before (charged : IsCharged arcs times components)
    (split : components = before ++ c :: after) (inside : s ∈ c.members) :
    charges (merge arcs) before s = charges (merge arcs) (outside components s) s := by
  have member : c ∈ components := by simp [split]
  unfold charges
  refine List.filterMap_congr fun e callee => ?_
  have joins := (mem_calleesOf.1 callee).1
  -- A callee of the own component is in neither list, and any other one is in both.
  by_cases together : Together arcs s e.1
  · have here := (charged.same_iff member inside).2 together
    have missing : before.find? (·.members.contains e.1) = none := by
      rw [List.find?_eq_none]
      intro d earlier there
      exact charged.absent_before split here d earlier (by simpa using there)
    rw [missing, charged.find?_outside_of_together together]
  · have apart := fun here => together ((charged.same_iff member inside).1 here)
    obtain ⟨d, earlier, there⟩ := charged.callee_before split inside joins apart
    have listed : d ∈ components := by simp [split, earlier]
    have found : before.find? (·.members.contains e.1) = some d := by
      refine find?_of_unique earlier (by simpa using there) fun b other here => ?_
      exact charged.component_unique (by simp [split, other]) listed (by simpa using here) there
    rw [found, charged.find?_outside_of_apart listed there together]

theorem cumulative_eq (charged : IsCharged arcs times components) (member : c ∈ components) :
    c.cumulative = (c.members.flatMap fun s =>
      (charges (merge arcs) (outside components s) s).map (·.2)).foldl Times.add
        (Times.ofInt (selfTimeOf times c.members)) := by
  obtain ⟨before, after, split⟩ := List.append_of_mem member
  have same : (c.members.flatMap fun s => (charges (merge arcs) before s).map (·.2)) =
      c.members.flatMap fun s =>
        (charges (merge arcs) (outside components s) s).map (·.2) := by
    refine List.flatMap_congr fun s inside => ?_
    rw [charged.charges_before split inside]
  rw [← same]
  exact congrArg (·.cumulative) (charged.charged before c after split)

/-- A symbol is charged for each callee outside its component, and for no other. -/
theorem mem_charges (charged : IsCharged arcs times components) {x : α} :
    (v, x) ∈ charges (merge arcs) (outside components s) s ↔
      Joins arcs s v ∧ ¬ Together arcs s v ∧
        ∃ d ∈ components, v ∈ d.members ∧ x = Component.share d (calls arcs s v) := by
  rw [charges, List.mem_filterMap]
  constructor
  · rintro ⟨⟨w, n⟩, callee, charge⟩
    obtain ⟨joins, _, count⟩ := mem_calleesOf.1 callee
    obtain ⟨d, found, same⟩ := Option.map_eq_some_iff.1 charge
    cases same
    have apart : ¬ Together arcs s w := by
      intro together
      rw [charged.find?_outside_of_together together] at found
      cases found
    refine ⟨joins, apart, d, ?_, by simpa using List.find?_some found, by rw [count]⟩
    exact List.mem_of_mem_filter (List.mem_of_find?_eq_some found)
  · rintro ⟨joins, apart, d, member, inside, rfl⟩
    refine ⟨(v, calls arcs s v), mem_calleesOf.2 ⟨joins, ?_, rfl⟩, ?_⟩
    · intro same
      exact apart (same ▸ .refl arcs s)
    · simp only [charged.find?_outside_of_apart member inside apart]
      rfl

end IsCharged

theorem nodup_charges (arcs : ArcTally) (finished : List (Component α)) (s : Symbol) :
    ((charges arcs finished s).map (·.1)).Nodup := by
  rw [List.Nodup, List.pairwise_map, charges, List.pairwise_filterMap]
  refine (List.pairwise_map.1 (nodup_calleesOf arcs s)).imp ?_
  intro a b differ x first y second same
  obtain ⟨_, _, rfl⟩ := Option.map_eq_some_iff.1 first
  obtain ⟨_, _, rfl⟩ := Option.map_eq_some_iff.1 second
  exact differ same

end CallProfile.CallGraph
