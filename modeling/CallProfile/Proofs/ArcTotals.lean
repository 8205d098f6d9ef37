import CallProfile.Proofs.Exact
import CallProfile.Proofs.Rearranged
import Mathlib.Data.Set.Function

/-! # Arcs with the same calls

The calls of one symbol to another may come in one arc or in several. A call graph sees the arcs
merged, and merged arcs of the same calls are the same but for their order.
-/

namespace CallProfile

open scoped Whole

namespace Arc

variable {arcs other : List Arc} {u v : Symbol}

/-- Whether arcs join the same symbols and tell of as many calls from each one to each other one. -/
structure SameCalls (arcs other : List Arc) : Prop where
  joins : ∀ u v, Joins arcs u v ↔ Joins other u v
  calls : ∀ u v, calls arcs u v = calls other u v

theorem joins_merged : Joins (ofTally (merge arcs)) u v ↔ Joins arcs u v := by
  rw [← mem_keys_merge, merge_ofTally, mem_keys_merge]

theorem mem_symbols_iff_joins : u ∈ symbols arcs ↔ ∃ v, Joins arcs u v ∨ Joins arcs v u := by
  rw [mem_symbols]
  constructor
  · rintro ⟨a, member, rfl | rfl⟩
    · exact ⟨a.callee, .inl ⟨a, member, rfl, rfl⟩⟩
    · exact ⟨a.caller, .inr ⟨a, member, rfl, rfl⟩⟩
  · rintro ⟨v, ⟨a, member, rfl, -⟩ | ⟨a, member, -, rfl⟩⟩
    · exact ⟨a, member, .inl rfl⟩
    · exact ⟨a, member, .inr rfl⟩

theorem symbols_merged (arcs : List Arc) : symbols (ofTally (merge arcs)) = symbols arcs := by
  ext s
  simp only [mem_symbols_iff_joins, joins_merged]

/-- Merging leaves nothing but the calls and the order in which they come. -/
theorem SameCalls.merged_perm (same : SameCalls arcs other) :
    (ofTally (merge arcs)).Perm (ofTally (merge other)) := by
  have reordered : (merge arcs).Reordered (merge other) := by
    constructor
    · refine (List.perm_ext_iff_of_nodup (merge arcs).nodup (merge other).nodup).2 ?_
      rintro ⟨u, v⟩
      exact mem_keys_merge.trans ((same.joins u v).trans mem_keys_merge.symm)
    · rintro ⟨u, v⟩
      rw [count_merge, count_merge, same.calls]
  exact reordered.entries.map _

end Arc

namespace CallGraph

open Arc

variable {α : Type} {arcs other : List Arc} {times : Symbol → Int} {g g' : CallGraph α}

theorem Alike.bijOn {exact : Prop} {number : Nat → Nat} (alike : g.Alike exact number g')
    (distinct : (g'.cycles.map (·.number)).Nodup) :
    Set.BijOn number {k | ∃ c ∈ g.cycles, c.number = k} {k | ∃ c ∈ g'.cycles, c.number = k} := by
  have numbers : (g.cycles.map fun c => number c.number).Perm (g'.cycles.map (·.number)) :=
    alike.cycles.map_perm fun _ _ same => same.number.symm
  refine ⟨?_, ?_, ?_⟩
  · rintro _ ⟨c, member, rfl⟩
    exact List.mem_map.1 (numbers.mem_iff.1 (List.mem_map_of_mem member))
  · rintro _ ⟨c, member, rfl⟩ _ ⟨d, member', rfl⟩ same
    exact congrArg _ (List.inj_on_of_nodup_map (numbers.nodup_iff.2 distinct) member member' same)
  · rintro _ ⟨d, member, rfl⟩
    obtain ⟨c, member', same⟩ :=
      List.mem_map.1 (numbers.mem_iff.2 (List.mem_map_of_mem member))
    exact ⟨c.number, ⟨c, member', rfl⟩, same⟩

variable [Times α]

theorem ofArcs_merged (arcs : List Arc) (times : Symbol → Int) :
    (ofArcs (Arc.ofTally (merge arcs)) times : Except Fault (CallGraph α)) = ofArcs arcs times := by
  rw [ofArcs, merge_ofTally, ofArcs]

theorem alike_of_sameCalls {exact : Prop} (same : SameCalls arcs other)
    (separated : Separated (· ∈ symbols arcs)) (solved : exact → UniqueTimes α)
    (made : ofArcs arcs times = .ok g) (made' : ofArcs other times = .ok g') :
    ∃ number,
      Set.BijOn number {k | ∃ c ∈ g.cycles, c.number = k} {k | ∃ c ∈ g'.cycles, c.number = k} ∧
      g.Alike exact number g' := by
  -- the graphs are those of the merged arcs, which are the same in another order
  rw [← ofArcs_merged] at made made'
  obtain ⟨components, charged, rfl⟩ := exists_components made
  obtain ⟨components', charged', rfl⟩ := exists_components made'
  rw [← symbols_merged] at separated
  have rearranged : Rearranged _ _ times components components' :=
    { perm := same.merged_perm, separated, first := charged, second := charged' }
  have graphs := rearranged.alike fun isExact => solved isExact rearranged
  exact ⟨_, graphs.bijOn charged'.hasCycles.numbers_nodup, graphs⟩

/-- A call graph depends on nothing but the symbols that arcs join and the calls from each one to
    each other one. Whatever the arcs are, in whatever order and with the calls of two symbols in
    one arc or in several, the nodes are the same, the callers, callees and charges of each in any
    order, and the cycles are the same but for their order and numbers. With exact fractions this
    holds of the times too. -/
theorem graph_of_calls (times : Symbol → Int) (same : SameCalls arcs other)
    (separated : Separated (· ∈ symbols arcs)) :
    (∃ g g' : CallGraph Rat, ofArcs arcs times = .ok g ∧ ofArcs other times = .ok g' ∧
      ∃ number,
        Set.BijOn number {k | ∃ c ∈ g.cycles, c.number = k} {k | ∃ c ∈ g'.cycles, c.number = k} ∧
        g.Alike True number g') ∧
    ∀ (α : Type) [Times α] (g g' : CallGraph α), ofArcs arcs times = .ok g →
      ofArcs other times = .ok g' →
      ∃ number,
        Set.BijOn number {k | ∃ c ∈ g.cycles, c.number = k} {k | ∃ c ∈ g'.cycles, c.number = k} ∧
        g.Alike False number g' := by
  constructor
  · obtain ⟨components, -, made⟩ := ofArcs_exact arcs times
    obtain ⟨components', -, made'⟩ := ofArcs_exact other times
    exact ⟨_, _, made, made',
      alike_of_sameCalls same separated (fun _ => uniqueTimes_exact) made made'⟩
  · intro α _ g g' made made'
    exact alike_of_sameCalls same separated False.elim made made'

/-- Two symbols in a circle, one of which is called from outside and calls another one outside. -/
def circleArcs : List Arc :=
  let main : Symbol := ⟨"main", 4, 6, none, by decide⟩
  let ping : Symbol := ⟨"ping", 8, 12, none, by decide⟩
  let pong : Symbol := ⟨"pong", 8, 10, some "pong.c", by decide⟩
  let leaf : Symbol := ⟨"leaf", 20, 20, none, by decide⟩
  [⟨main, ping, 3⟩, ⟨ping, pong, 2⟩, ⟨pong, ping, 1⟩, ⟨pong, leaf, 0⟩, ⟨ping, ping, 1⟩]

/-- The same calls, some in more than one arc and one of these with none. -/
def splitArcs : List Arc :=
  circleArcs.reverse.map (fun a => { a with count := a.count / 2 }) ++
    circleArcs.map fun a => { a with count := a.count - a.count / 2 }

theorem graph_of_calls_circle :
    SameCalls circleArcs splitArcs ∧ Separated (· ∈ symbols circleArcs) ∧
    ∃ g g' : CallGraph Rat, ofArcs circleArcs (fun _ => 1) = .ok g ∧
      ofArcs splitArcs (fun _ => 1) = .ok g' ∧ ∃ number, g.Alike True number g' := by
  have entries : (merge circleArcs).entries.Perm (merge splitArcs).entries := by decide
  have same : SameCalls circleArcs splitArcs := by
    constructor
    · intro u v
      rw [← mem_keys_merge, ← mem_keys_merge]
      exact (entries.map _).mem_iff
    · intro u v
      rw [← count_merge, ← count_merge, Tally.count_eq_amountOf, Tally.count_eq_amountOf]
      exact ((entries.filter _).map _).sum_eq
  have separated : Separated (· ∈ symbols circleArcs) := by
    have all : ∀ s ∈ symbols circleArcs, ∀ t ∈ symbols circleArcs,
        s.name = t.name → s.start = t.start → s = t := by decide
    intro s t first second
    exact all s first t second
  obtain ⟨⟨g, g', made, made', number, -, alike⟩, -⟩ := graph_of_calls (fun _ => 1) same separated
  exact ⟨same, separated, g, g', made, made', number, alike⟩

end CallGraph

end CallProfile
