import CallProfile.CallGraph.Build
import CallProfile.Proofs.Keys
import Mathlib.Data.Finset.Dedup
import Mathlib.Data.List.Dedup
import Mathlib.Logic.Relation

/-! # Calls between symbols

What a list of arcs says, whatever the order and the number of its arcs: which symbols call
which, how often, and which of them call each other in a circle. A call graph sees the arcs
merged; what it reads from them is stated here of the list.
-/

namespace CallProfile

open scoped Whole

namespace Arc

/-- Whether there is an arc from one symbol to another, be it with a count of zero. -/
def Joins (arcs : List Arc) (u v : Symbol) : Prop :=
  ∃ a ∈ arcs, a.caller = u ∧ a.callee = v

instance (arcs : List Arc) (u v : Symbol) : Decidable (Joins arcs u v) :=
  inferInstanceAs (Decidable (∃ a ∈ arcs, a.caller = u ∧ a.callee = v))

/-- The calls from one symbol to another. -/
def calls (arcs : List Arc) (u v : Symbol) : Nat :=
  ((arcs.filter fun a => a.caller = u ∧ a.callee = v).map (·.count)).sum

/-- The symbols at the ends of arcs. -/
def symbols (arcs : List Arc) : Finset Symbol :=
  (arcs.flatMap fun a => [a.caller, a.callee]).toFinset

/-- The calls that enter a set of symbols from outside. -/
def entering (arcs : List Arc) (members : Finset Symbol) : Nat :=
  ((arcs.filter fun a => a.callee ∈ members ∧ a.caller ∉ members).map (·.count)).sum

/-- Whether arcs lead from one symbol to another, in any number. -/
abbrev Reaches (arcs : List Arc) : Symbol → Symbol → Prop :=
  Relation.ReflTransGen (Joins arcs)

/-- Whether two symbols call each other in a circle, or are the same. -/
def Together (arcs : List Arc) (u v : Symbol) : Prop :=
  Reaches arcs u v ∧ Reaches arcs v u

variable {arcs : List Arc} {u v w : Symbol}

namespace Together

theorem refl (arcs : List Arc) (u : Symbol) : Together arcs u u :=
  ⟨.refl, .refl⟩

theorem symm (together : Together arcs u v) : Together arcs v u :=
  ⟨together.2, together.1⟩

theorem trans (first : Together arcs u v) (second : Together arcs v w) : Together arcs u w :=
  ⟨first.1.trans second.1, second.2.trans first.2⟩

end Together

theorem mem_symbols {s : Symbol} :
    s ∈ symbols arcs ↔ ∃ a ∈ arcs, s = a.caller ∨ s = a.callee := by
  simp [symbols]

theorem Joins.mem_symbols (joins : Joins arcs u v) : u ∈ symbols arcs ∧ v ∈ symbols arcs := by
  obtain ⟨a, member, rfl, rfl⟩ := joins
  exact ⟨Arc.mem_symbols.2 ⟨a, member, .inl rfl⟩, Arc.mem_symbols.2 ⟨a, member, .inr rfl⟩⟩

theorem Reaches.mem_symbols (path : Reaches arcs u v) (inside : u ∈ symbols arcs) :
    v ∈ symbols arcs := by
  induction path with
  | refl => exact inside
  | tail _ joins _ => exact joins.mem_symbols.2

theorem Together.mem_symbols (together : Together arcs u v) (differ : u ≠ v) :
    u ∈ symbols arcs := by
  rcases together.1.cases_head with same | ⟨w, joins, _⟩
  · exact absurd same differ
  · exact joins.mem_symbols.1

theorem calls_eq_zero (apart : ¬ Joins arcs u v) : calls arcs u v = 0 := by
  have none : arcs.filter (fun a => a.caller = u ∧ a.callee = v) = [] := by
    rw [List.filter_eq_nil_iff]
    intro a member ends
    exact apart ⟨a, member, by simpa using ends⟩
  rw [calls, none]
  rfl

theorem mem_keys_merge : (u, v) ∈ (merge arcs).keys ↔ Joins arcs u v := by
  rw [merge, Tally.mem_keys_ofList]
  simp [Joins, ends]

theorem amountOf_merge (arcs : List Arc) (p : Symbol × Symbol → Bool) :
    Tally.amountOf (merge arcs).entries p =
      ((arcs.filter fun a => p a.ends).map (·.count)).sum := by
  rw [merge, Tally.amountOf_ofList]
  simp [Tally.amountOf, List.filter_map, Function.comp_def]

theorem count_merge (arcs : List Arc) (u v : Symbol) :
    (merge arcs).count (u, v) = calls arcs u v := by
  rw [merge, Tally.count_ofList]
  simp [Tally.amountOf, calls, ends, List.filter_map, Function.comp_def]

theorem merge_ofTally (t : ArcTally) : merge (ofTally t) = t := by
  have entries : (ofTally t).map (fun a => (a.ends, a.count)) = t.entries := by
    rw [ofTally, List.map_map]
    exact List.map_id _
  rw [merge, entries]
  exact Tally.empty_merge t

theorem merge_append (first second : List Arc) :
    merge (first ++ second) = (merge first).merge (merge second) := by
  rw [merge, List.map_append, Tally.ofList_append]
  rfl

end Arc

namespace CallGraph

open Arc

variable {arcs : List Arc} {s : Symbol}

theorem mem_verticesOf : s ∈ verticesOf (merge arcs) ↔ s ∈ symbols arcs := by
  rw [verticesOf, List.mem_mergeSort, List.mem_eraseDups, List.mem_flatMap, mem_symbols]
  constructor
  · rintro ⟨⟨u, v⟩, present, ends⟩
    obtain ⟨a, member, rfl, rfl⟩ := mem_keys_merge.1 present
    exact ⟨a, member, by simpa using ends⟩
  · rintro ⟨a, member, ends⟩
    exact ⟨(a.caller, a.callee), mem_keys_merge.2 ⟨a, member, rfl, rfl⟩, by simpa using ends⟩

theorem nodup_verticesOf (arcs : ArcTally) : (verticesOf arcs).Nodup := by
  rw [verticesOf, (List.mergeSort_perm _ _).nodup_iff]
  exact nodup_eraseDups _

/-! ## Neighbours -/

section Neighbours

variable {tally : ArcTally} {here there : Symbol × Symbol → Symbol}

theorem mem_neighbours {x : Symbol × Nat} :
    x ∈ tally.entries.filterMap (fun e =>
        if here e.1 = s && there e.1 ≠ s then some (there e.1, e.2) else none) ↔
      ∃ e ∈ tally.entries, here e.1 = s ∧ there e.1 ≠ s ∧ (there e.1, e.2) = x := by
  rw [List.mem_filterMap]
  refine exists_congr fun e => and_congr_right fun _ => ?_
  by_cases chosen : here e.1 = s ∧ there e.1 ≠ s
  · simp [chosen]
  · rw [if_neg (by simpa using chosen)]
    grind

theorem nodup_neighbours (ends : ∀ a b, here a = here b → there a = there b → a = b) :
    ((tally.entries.filterMap fun e =>
      if here e.1 = s && there e.1 ≠ s then some (there e.1, e.2) else none).map (·.1)).Nodup := by
  rw [List.Nodup, List.pairwise_map, List.pairwise_filterMap]
  apply (List.pairwise_map.1 tally.nodup).imp
  intro a b differ x first y second same
  split at first
  · next one =>
      split at second
      · next two =>
          cases first
          cases second
          simp only [Bool.and_eq_true, decide_eq_true_eq] at one two
          exact differ (ends a.1 b.1 (one.1.trans two.1.symm) same)
      · cases second
  · cases first

end Neighbours

theorem mem_calleesOf {e : Symbol × Nat} :
    e ∈ calleesOf (merge arcs) s ↔ Joins arcs s e.1 ∧ e.1 ≠ s ∧ e.2 = calls arcs s e.1 := by
  apply mem_neighbours.trans
  constructor
  · rintro ⟨⟨⟨u, v⟩, n⟩, present, rfl, differ, rfl⟩
    obtain ⟨key, amount⟩ := Tally.mem_entries_iff.1 present
    exact ⟨mem_keys_merge.1 key, differ, by rw [← amount, count_merge]⟩
  · rintro ⟨joins, differ, amount⟩
    refine ⟨((s, e.1), e.2), ?_, rfl, differ, rfl⟩
    exact Tally.mem_entries_iff.2 ⟨mem_keys_merge.2 joins, by rw [amount, count_merge]⟩

theorem mem_callersOf {e : Symbol × Nat} :
    e ∈ callersOf (merge arcs) s ↔ Joins arcs e.1 s ∧ e.1 ≠ s ∧ e.2 = calls arcs e.1 s := by
  apply mem_neighbours.trans
  constructor
  · rintro ⟨⟨⟨u, v⟩, n⟩, present, rfl, differ, rfl⟩
    obtain ⟨key, amount⟩ := Tally.mem_entries_iff.1 present
    exact ⟨mem_keys_merge.1 key, differ, by rw [← amount, count_merge]⟩
  · rintro ⟨joins, differ, amount⟩
    refine ⟨((e.1, s), e.2), ?_, rfl, differ, rfl⟩
    exact Tally.mem_entries_iff.2 ⟨mem_keys_merge.2 joins, by rw [amount, count_merge]⟩

theorem nodup_calleesOf (arcs : ArcTally) (s : Symbol) :
    ((calleesOf arcs s).map (·.1)).Nodup :=
  nodup_neighbours fun _ _ => Prod.ext

theorem nodup_callersOf (arcs : ArcTally) (s : Symbol) :
    ((callersOf arcs s).map (·.1)).Nodup :=
  nodup_neighbours fun _ _ callee caller => Prod.ext caller callee

theorem callsInto_merge (arcs : List Arc) (members : List Symbol) :
    callsInto (merge arcs) members = entering arcs members.toFinset := by
  have total := amountOf_merge arcs fun k => members.contains k.2 && !members.contains k.1
  rw [callsInto, entering]
  simpa [Tally.amountOf, ends] using total

theorem selfCallsOf_merge (arcs : List Arc) (s : Symbol) :
    selfCallsOf (merge arcs) s = calls arcs s s :=
  count_merge arcs s s

end CallGraph

end CallProfile
