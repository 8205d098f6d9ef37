import CallProfile.Proofs.Keys
import CallProfile.Proofs.Matches
import CallProfile.Proofs.Propagation
import CallProfile.Proofs.Sorting

/-! # Rearranged arcs

The order of arcs decides in which order the search for components meets the symbols, how the
components come to lie and how the cycles are numbered. What symbols call, the components as sets
and, with exact fractions, the times do not depend on it.
-/

namespace CallProfile

open scoped Whole

namespace Arc

variable {arcs other : List Arc} {times : Symbol → Int} {s : Symbol}

theorem joins_perm (rearranged : arcs.Perm other) : Joins arcs = Joins other := by
  funext u v
  simp only [Joins, rearranged.mem_iff]

theorem together_perm (rearranged : arcs.Perm other) : Together arcs = Together other := by
  funext u v
  rw [Together, Together, Reaches, Reaches, joins_perm rearranged]

theorem calls_perm (rearranged : arcs.Perm other) : calls arcs = calls other := by
  funext u v
  exact ((rearranged.filter _).map _).sum_eq

theorem entering_perm (rearranged : arcs.Perm other) : entering arcs = entering other := by
  funext members
  exact ((rearranged.filter _).map _).sum_eq

theorem symbols_perm (rearranged : arcs.Perm other) : symbols arcs = symbols other :=
  List.toFinset_eq_of_perm _ _ (rearranged.flatMap_right _)

theorem componentOf_perm (rearranged : arcs.Perm other) : componentOf arcs = componentOf other := by
  funext s
  ext t
  rw [mem_componentOf, mem_componentOf, symbols_perm rearranged, together_perm rearranged]

theorem isCircle_perm (rearranged : arcs.Perm other) : IsCircle arcs = IsCircle other := by
  funext members
  rw [IsCircle, IsCircle, together_perm rearranged, calls_perm rearranged]

theorem IsSharing.perm {charge : Symbol → Symbol → Rat} {whole : Symbol → Rat}
    (sharing : IsSharing arcs times charge whole) (rearranged : arcs.Perm other) :
    IsSharing other times charge whole := by
  refine ⟨?_, ?_, ?_⟩
  · rw [← together_perm rearranged]
    exact sharing.together
  · rw [← together_perm rearranged, ← calls_perm rearranged, ← entering_perm rearranged,
      ← componentOf_perm rearranged]
    exact sharing.apart
  · rw [← symbols_perm rearranged, ← componentOf_perm rearranged]
    exact sharing.whole_eq

end Arc

/-- Whether two cycles are the same but for their numbers, and but for their times unless these
    are exact. -/
structure Cycle.Alike {α : Type} (exact : Prop) (number : Nat → Nat) (c d : Cycle α) : Prop where
  number : d.number = number c.number
  members : c.members = d.members
  selfTime : c.selfTime = d.selfTime
  callsIn : c.callsIn = d.callsIn
  head : exact → c.head = d.head
  cumulative : exact → c.cumulative = d.cumulative

/-- Whether two nodes are the same but for the number of their cycle and the order of their
    callers and callees, and but for their times unless these are exact. -/
structure CallNode.Alike {α : Type} (exact : Prop) (number : Nat → Nat) (n m : CallNode α) :
    Prop where
  symbol : n.symbol = m.symbol
  selfTime : n.selfTime = m.selfTime
  callers : n.callers.Perm m.callers
  callees : n.callees.Perm m.callees
  selfCalls : n.selfCalls = m.selfCalls
  cycle : m.cycle = n.cycle.map number
  cumulative : exact → n.cumulative = m.cumulative
  childTime_nodup : (n.childTime.map (·.1)).Nodup
  childTime : exact → n.childTime.Perm m.childTime

theorem CallNode.Alike.enterCycle {α : Type} {exact : Prop} {number : Nat → Nat}
    {cycles cycles' : List (Cycle α)} {n m : CallNode α} (alike : n.Alike exact number m)
    (found : Option.Rel (Cycle.Alike exact number) (cycles.find? (·.contains n.symbol))
      (cycles'.find? (·.contains m.symbol))) :
    (CallGraph.enterCycle cycles n).Alike exact number (CallGraph.enterCycle cycles' m) := by
  unfold CallGraph.enterCycle
  generalize cycles.find? (·.contains n.symbol) = first at found
  generalize cycles'.find? (·.contains m.symbol) = second at found
  cases found with
  | none => exact alike
  | @some c d same =>
      have number : some d.number = (some c.number).map number := congrArg some same.number
      refine { alike with cycle := number, cumulative := fun isExact => ?_ }
      simp only [same.head isExact, same.cumulative isExact, alike.symbol,
        alike.cumulative isExact]

/-- Whether two call graphs are the same in this sense, in any order of their cycles. -/
structure CallGraph.Alike {α : Type} (exact : Prop) (number : Nat → Nat) (g g' : CallGraph α) :
    Prop where
  nodes : List.Forall₂ (CallNode.Alike exact number) g.nodes g'.nodes
  cycles : Matches (Cycle.Alike exact number) g.cycles g'.cycles

namespace CallGraph

open Arc

variable {α : Type} [Times α] {arcs other : List Arc} {times : Symbol → Int}
  {components components' : List (Component α)} {c d : Component α} {s : Symbol}

/-! ## Symbols and calls -/

theorem entries_merge_perm (rearranged : arcs.Perm other) :
    (merge arcs).entries.Perm (merge other).entries :=
  (Tally.reordered_ofList (rearranged.map _)).entries

theorem verticesOf_perm (rearranged : arcs.Perm other) (separated : Separated (· ∈ symbols arcs)) :
    verticesOf (merge arcs) = verticesOf (merge other) := by
  have keys := (entries_merge_perm rearranged).map (·.1)
  refine orderedBy_inOrder.mergeSort_eq (perm_eraseDups (keys.flatMap_right _)) ?_
  intro s first t second same
  simp only [EmbeddingLike.apply_eq_iff_eq, Prod.mk.injEq] at same
  exact separated s t (mem_verticesOf.1 (List.mem_mergeSort.2 first))
    (mem_verticesOf.1 (List.mem_mergeSort.2 second)) same.2.1 same.1

theorem calleesOf_perm (rearranged : arcs.Perm other) (s : Symbol) :
    (calleesOf (merge arcs) s).Perm (calleesOf (merge other) s) :=
  (entries_merge_perm rearranged).filterMap _

theorem callersOf_perm (rearranged : arcs.Perm other) (s : Symbol) :
    (callersOf (merge arcs) s).Perm (callersOf (merge other) s) :=
  (entries_merge_perm rearranged).filterMap _

theorem selfCallsOf_perm (rearranged : arcs.Perm other) (s : Symbol) :
    selfCallsOf (merge arcs) s = selfCallsOf (merge other) s := by
  rw [selfCallsOf_merge, selfCallsOf_merge, calls_perm rearranged]

/-! ## Components -/

/-- The components of arcs, and those of the same arcs rearranged. -/
structure Rearranged (arcs other : List Arc) (times : Symbol → Int)
    (components components' : List (Component α)) : Prop where
  perm : arcs.Perm other
  separated : Separated (· ∈ symbols arcs)
  first : IsCharged arcs times components
  second : IsCharged other times components'

/-- Whether rearranged arcs give every symbol and every component the same times. -/
structure SameTimes (arcs other : List Arc) (times : Symbol → Int)
    (components components' : List (Component α)) : Prop where
  childTime : ∀ s, (nodeOf (merge arcs) times components s).childTime.Perm
    (nodeOf (merge other) times components' s).childTime
  own : ∀ s, (nodeOf (merge arcs) times components s).cumulative =
    (nodeOf (merge other) times components' s).cumulative
  whole : ∀ c ∈ components, ∀ d ∈ components', ∀ s ∈ c.members, s ∈ d.members →
    c.cumulative = d.cumulative

namespace Rearranged

theorem symm (rearranged : Rearranged arcs other times components components') :
    Rearranged other arcs times components' components where
  perm := rearranged.perm.symm
  separated := symbols_perm rearranged.perm ▸ rearranged.separated
  first := rearranged.second
  second := rearranged.first

/-- Components that share a symbol have the same members, by start and name. -/
theorem sortedMembers (rearranged : Rearranged arcs other times components components')
    (listed : c ∈ components) (listed' : d ∈ components') (here : s ∈ c.members)
    (there : s ∈ d.members) : c.members.mergeSort byStart = d.members.mergeSort byStart := by
  have members : c.members.Perm d.members := by
    rw [List.perm_ext_iff_of_nodup (rearranged.first.members_nodup listed)
      (rearranged.second.members_nodup listed')]
    intro t
    rw [rearranged.first.same_iff listed here, rearranged.second.same_iff listed' there,
      together_perm rearranged.perm]
  refine orderedBy_byStart.mergeSort_eq members ?_
  intro u one v two same
  simp only [EmbeddingLike.apply_eq_iff_eq, Prod.mk.injEq] at same
  exact rearranged.separated u v (rearranged.first.mem_symbols listed one)
    (rearranged.first.mem_symbols listed two) same.2 same.1

end Rearranged

/-- Whether times are such that rearranged arcs always get the same ones. -/
def UniqueTimes (α : Type) [Times α] : Prop :=
  ∀ {arcs other : List Arc} {times : Symbol → Int} {components components' : List (Component α)},
    Rearranged arcs other times components components' →
      SameTimes arcs other times components components'

/-- With exact fractions the times are the same, as the equations have one solution. -/
theorem uniqueTimes_exact : UniqueTimes Rat := by
  intro arcs other times components components' rearranged
  have sharing := rearranged.first.isSharing.perm rearranged.perm
  have sharing' := rearranged.second.isSharing
  have childTime : ∀ s, (charges (merge arcs) (outside components s) s).Perm
      (charges (merge other) (outside components' s) s) := by
    intro s
    rw [List.perm_ext_iff_of_nodup (nodup_charges ..).of_map (nodup_charges ..).of_map]
    rintro ⟨v, x⟩
    rw [rearranged.first.mem_charges_exact, rearranged.second.mem_charges_exact,
      joins_perm rearranged.perm, together_perm rearranged.perm, sharing.charge_unique sharing']
  refine ⟨childTime, fun s => ?_, fun c listed d listed' s here there => ?_⟩
  · have amounts := ((childTime s).map (·.2)).sum_eq
    simp only [nodeOf, (childTime s).isEmpty_eq, Times.sum_exact, amounts]
  · rw [← rearranged.first.wholeIn_eq listed here, ← rearranged.second.wholeIn_eq listed' there]
    refine sharing.whole_unique sharing' ?_
    rw [← symbols_perm rearranged.perm]
    exact rearranged.first.mem_symbols listed here

/-! ## Cycles -/

theorem headOf_map (f f' : Symbol → CallNode α) (symbol : ∀ s, (f s).symbol = (f' s).symbol)
    (selfTime : ∀ s, (f s).selfTime = (f' s).selfTime)
    (cumulative : ∀ s, (f s).cumulative = (f' s).cumulative) (members : List Symbol) :
    (headOf (members.map f)).map (·.symbol) = (headOf (members.map f')).map (·.symbol) := by
  have better : ∀ s t, isBetterHead (f s) (f t) = isBetterHead (f' s) (f' t) := by
    intro s t
    simp only [isBetterHead, symbol, selfTime, cumulative]
  cases members with
  | nil => rfl
  | cons s members =>
      simp only [List.map_cons, headOf, Option.map_some, Option.some.injEq]
      -- on the members, with the best one so far left open
      induction members generalizing s with
      | nil => exact symbol s
      | cons t members ih =>
          rw [List.map_cons, List.map_cons, List.foldl_cons, List.foldl_cons, better]
          cases isBetterHead (f' t) (f' s) with
          | false => exact ih s
          | true => exact ih t

/-- The numbers that the cycles of one list have in another one. -/
def renumber (cycles cycles' : List (Cycle α)) (number : Nat) : Nat :=
  (((cycles.find? (·.number = number)).bind fun c => cycles'.find? (·.members = c.members)).map
    (·.number)).getD 0

theorem nodes_ofComponents (arcs : List Arc) (times : Symbol → Int)
    (components : List (Component α)) :
    (ofComponents (merge arcs) times components).nodes = (verticesOf (merge arcs)).map fun s =>
      enterCycle (cyclesIn arcs times components) (nodeOf (merge arcs) times components s) :=
  List.map_map

variable {cycle cycle' : Cycle α}

namespace IsCharged

theorem head_mem_nodes (charged : IsCharged arcs times components) :
    ∀ c ∈ (ofComponents (merge arcs) times components).cycles,
      c.head ∈ (ofComponents (merge arcs) times components).nodes.map (·.symbol) := by
  intro cycle member
  obtain ⟨c, listed, k, made⟩ := component_of_mem_cyclesIn member
  have inside := charged.mem_symbols listed ((mem_of_cycle made).1 (charged.head_mem member))
  exact (charged.hasCycles.mem_symbols _).2 inside

theorem component_of_cycle (charged : IsCharged arcs times components)
    (member : cycle ∈ cyclesIn arcs times components) :
    ∃ c ∈ components, cycle.members = c.members.mergeSort byStart ∧
      cycle.cumulative = c.cumulative ∧
      (headOf (cycle.members.map (nodeOf (merge arcs) times components))).map (·.symbol) =
        some cycle.head := by
  obtain ⟨c, listed, k, made⟩ := component_of_mem_cyclesIn member
  obtain ⟨-, head, found, rfl⟩ := cycleOfComponent_eq_some.1 made
  rw [charged.ownNodes_eq listed] at found
  exact ⟨c, listed, rfl, rfl, congrArg (Option.map (·.symbol)) found⟩

theorem cycles_members_nodup (charged : IsCharged arcs times components) :
    ((cyclesIn arcs times components).map (·.members)).Nodup := by
  rw [List.Nodup, List.pairwise_map]
  refine charged.cycles_apart.imp_of_mem fun member _ apart same => ?_
  have inside := charged.head_mem member
  exact apart _ inside _ (same ▸ inside) rfl

/-- The number of a cycle is taken to the number of the one with the same members. -/
theorem renumber_eq (charged : IsCharged other times components')
    (member : cycle ∈ cyclesIn arcs times components)
    (member' : cycle' ∈ cyclesIn other times components')
    (members : cycle.members = cycle'.members) :
    renumber (cyclesIn arcs times components) (cyclesIn other times components') cycle.number =
      cycle'.number := by
  have numbers : ((cyclesIn arcs times components).map (·.number)).Nodup := by
    rw [map_number_cyclesOf]
    exact List.nodup_range'
  have first : (cyclesIn arcs times components).find? (·.number = cycle.number) =
      some cycle := by
    refine find?_of_unique member (decide_eq_true rfl) fun d listed same => ?_
    exact List.inj_on_of_nodup_map numbers listed member (of_decide_eq_true same)
  have second : (cyclesIn other times components').find? (·.members = cycle.members) =
      some cycle' := by
    refine find?_of_unique member' (decide_eq_true members.symm) fun d listed same => ?_
    exact List.inj_on_of_nodup_map charged.cycles_members_nodup listed member'
      ((of_decide_eq_true same).trans members)
  rw [renumber, first, Option.bind_some, second]
  rfl

end IsCharged

namespace Rearranged

theorem exists_cycle (rearranged : Rearranged arcs other times components components')
    (member : cycle ∈ cyclesIn arcs times components) :
    ∃ d ∈ cyclesIn other times components', cycle.members = d.members := by
  have circle := (rearranged.first.circles_iff cycle.members.toFinset).1 ⟨cycle, member, rfl⟩
  rw [isCircle_perm rearranged.perm, ← rearranged.second.circles_iff] at circle
  obtain ⟨d, member', same⟩ := circle
  have inside := rearranged.first.head_mem member
  have inside' : cycle.head ∈ d.members := by rwa [← List.mem_toFinset, same, List.mem_toFinset]
  obtain ⟨c, listed, sorted, -⟩ := rearranged.first.component_of_cycle member
  obtain ⟨c', listed', sorted', -⟩ := rearranged.second.component_of_cycle member'
  rw [sorted, List.mem_mergeSort] at inside
  rw [sorted', List.mem_mergeSort] at inside'
  refine ⟨d, member', ?_⟩
  rw [sorted, sorted']
  exact rearranged.sortedMembers listed listed' inside inside'

variable {exact : Prop}

theorem alike_cycle (rearranged : Rearranged arcs other times components components')
    (same : exact → SameTimes arcs other times components components')
    (member : cycle ∈ cyclesIn arcs times components)
    (member' : cycle' ∈ cyclesIn other times components')
    (members : cycle.members = cycle'.members) :
    cycle.Alike exact
      (renumber (cyclesIn arcs times components) (cyclesIn other times components')) cycle' where
  number := (rearranged.second.renumber_eq member member' members).symm
  members := members
  selfTime := by
    rw [rearranged.first.selfTime_eq member, rearranged.second.selfTime_eq member', members]
  callsIn := by
    rw [rearranged.first.callsIn_of_cycle member, rearranged.second.callsIn_of_cycle member',
      members, entering_perm rearranged.perm]
  head isExact := by
    -- the members are sorted, so both ways the same nodes are compared in the same order
    have heads := headOf_map (nodeOf (merge arcs) times components)
      (nodeOf (merge other) times components') (fun _ => rfl) (fun _ => rfl) (same isExact).own
      cycle.members
    obtain ⟨-, -, -, -, first⟩ := rearranged.first.component_of_cycle member
    obtain ⟨-, -, -, -, second⟩ := rearranged.second.component_of_cycle member'
    rw [first, members, second] at heads
    exact Option.some.inj heads
  cumulative isExact := by
    have inside := rearranged.first.head_mem member
    have inside' := members ▸ inside
    obtain ⟨c, listed, sorted, whole, -⟩ := rearranged.first.component_of_cycle member
    obtain ⟨c', listed', sorted', whole', -⟩ := rearranged.second.component_of_cycle member'
    rw [sorted, List.mem_mergeSort] at inside
    rw [sorted', List.mem_mergeSort] at inside'
    rw [whole, whole']
    exact (same isExact).whole c listed c' listed' cycle.head inside inside'

/-! ## The call graph -/

theorem alike_nodeOf (rearranged : Rearranged arcs other times components components')
    (same : exact → SameTimes arcs other times components components') (number : Nat → Nat)
    (s : Symbol) :
    (nodeOf (merge arcs) times components s).Alike exact number
      (nodeOf (merge other) times components' s) where
  symbol := rfl
  selfTime := rfl
  callers := callersOf_perm rearranged.perm s
  callees := calleesOf_perm rearranged.perm s
  selfCalls := selfCallsOf_perm rearranged.perm s
  cycle := rfl
  cumulative isExact := (same isExact).own s
  childTime_nodup := nodup_charges (merge arcs) (outside components s) s
  childTime isExact := (same isExact).childTime s

/-- Both ways a symbol is in the same cycle, or in none. -/
theorem alike_find? (rearranged : Rearranged arcs other times components components')
    (same : exact → SameTimes arcs other times components components') (s : Symbol) :
    Option.Rel (Cycle.Alike exact
        (renumber (cyclesIn arcs times components) (cyclesIn other times components')))
      ((cyclesIn arcs times components).find? (·.contains s))
      ((cyclesIn other times components').find? (·.contains s)) := by
  cases found : (cyclesIn arcs times components).find? (·.contains s) with
  | some cycle =>
      have member := List.mem_of_find?_eq_some found
      have holds := List.find?_some found
      have inside : s ∈ cycle.members := List.contains_iff_mem.1 holds
      obtain ⟨cycle', member', members⟩ := rearranged.exists_cycle member
      rw [rearranged.second.find?_cycle member' (members ▸ inside)]
      exact .some (rearranged.alike_cycle same member member' members)
  | none =>
      cases found' : (cyclesIn other times components').find? (·.contains s) with
      | none => exact .none
      | some cycle' =>
          -- what is in a cycle after rearranging was in one before
          obtain ⟨cycle, member, members⟩ :=
            rearranged.symm.exists_cycle (List.mem_of_find?_eq_some found')
          have holds := List.find?_some found'
          have inside : s ∈ cycle'.members := List.contains_iff_mem.1 holds
          rw [members, ← List.contains_iff_mem] at inside
          exact absurd inside (List.find?_eq_none.1 found cycle member)

/-- The call graphs of rearranged arcs are the same but for the numbers of the cycles. -/
theorem alike (rearranged : Rearranged arcs other times components components')
    (same : exact → SameTimes arcs other times components components') :
    (ofComponents (merge arcs) times components).Alike exact
      (renumber (cyclesIn arcs times components) (cyclesIn other times components'))
      (ofComponents (merge other) times components') where
  nodes := by
    rw [nodes_ofComponents, nodes_ofComponents,
      ← verticesOf_perm rearranged.perm rearranged.separated, List.forall₂_map_left_iff,
      List.forall₂_map_right_iff, List.forall₂_same]
    intro s _
    exact (rearranged.alike_nodeOf same _ s).enterCycle (rearranged.alike_find? same s)
  cycles := by
    refine .of_keys (f := (·.members)) (g := (·.members)) ?_ fun c member d member' =>
      rearranged.alike_cycle same member member'
    refine (List.perm_ext_iff_of_nodup rearranged.first.cycles_members_nodup
      rearranged.second.cycles_members_nodup).2 fun members => ?_
    rw [List.mem_map, List.mem_map]
    constructor
    · rintro ⟨c, member, rfl⟩
      obtain ⟨d, member', same⟩ := rearranged.exists_cycle member
      exact ⟨d, member', same.symm⟩
    · rintro ⟨d, member', rfl⟩
      obtain ⟨c, member, same⟩ := rearranged.symm.exists_cycle member'
      exact ⟨c, member, same.symm⟩

end Rearranged

end CallGraph

end CallProfile
