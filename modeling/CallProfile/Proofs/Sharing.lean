import CallProfile.Proofs.Division
import Mathlib.Algebra.BigOperators.Field
import Mathlib.Algebra.BigOperators.Group.Finset.Sigma
import Mathlib.Algebra.Order.Ring.Rat

/-! # Sharing out times

The rule for sharing out the times of callees, as equations between the charges and the
times of the components. The equations have one solution, and it loses no time: what is
charged for a component that is entered adds up to the time of the component.
-/

namespace CallProfile.Arc

variable {arcs : List Arc} {times : Symbol → Int} {s t u v : Symbol}

/-! ## Components -/

open Classical in
/-- All symbols that call each other in a circle with one, itself with them. -/
noncomputable def componentOf (arcs : List Arc) (s : Symbol) : Finset Symbol :=
  (symbols arcs).filter (Together arcs s)

theorem mem_componentOf : t ∈ componentOf arcs s ↔ t ∈ symbols arcs ∧ Together arcs s t := by
  simp [componentOf]

theorem componentOf_congr (together : Together arcs s t) :
    componentOf arcs s = componentOf arcs t := by
  ext v
  rw [mem_componentOf, mem_componentOf]
  exact and_congr_right fun _ => ⟨together.symm.trans, together.trans⟩

theorem not_together (inside : u ∈ symbols arcs) (outside : u ∉ componentOf arcs s)
    (member : v ∈ componentOf arcs s) : ¬ Together arcs u v := by
  intro together
  have back := (mem_componentOf.1 member).2.trans together.symm
  exact outside (mem_componentOf.2 ⟨inside, back⟩)

end CallProfile.Arc

namespace CallProfile.CallGraph.IsDivision

open Arc

variable {arcs : List Arc} {parts : List (List Symbol)}

theorem componentOf_eq (division : IsDivision arcs parts) {c : List Symbol} (member : c ∈ parts)
    {s : Symbol} (inside : s ∈ c) : componentOf arcs s = c.toFinset := by
  ext t
  rw [mem_componentOf, List.mem_toFinset, division.same_iff c member s inside]
  refine and_iff_right_of_imp fun together => ?_
  exact together.1.mem_symbols (division.mem_symbols member inside)

theorem sum_eq (division : IsDivision arcs parts) (f : Symbol → Rat) :
    (parts.map fun c => ∑ s ∈ c.toFinset, f s).sum = ∑ s ∈ symbols arcs, f s := by
  have part : ∀ c ∈ parts, ∑ s ∈ c.toFinset, f s = (c.map f).sum :=
    fun c member => List.sum_toFinset f ((List.nodup_flatten.1 division.distinct).1 c member)
  have whole : parts.flatten.toFinset = symbols arcs := by
    ext s
    rw [List.mem_toFinset, division.mem_iff]
  rw [List.map_congr_left part, ← whole, List.sum_toFinset f division.distinct, List.map_flatten,
    List.sum_flatten, List.map_map]
  rfl

end CallProfile.CallGraph.IsDivision

namespace CallProfile.Arc

variable {arcs : List Arc} {times : Symbol → Int} {s t u v : Symbol}

theorem callees_induction {P : Symbol → Prop}
    (step : ∀ s ∈ symbols arcs,
      (∀ u v, Together arcs s u → Joins arcs u v → ¬ Together arcs u v → P v) → P s) :
    ∀ s ∈ symbols arcs, P s := by
  obtain ⟨parts, _, division, order⟩ := CallGraph.inCallOrder_ok
    (CallGraph.isDivision_componentsOf arcs) (CallGraph.calleesFirst_componentsOf arcs)
  -- By induction from the last part: what a part calls is in the parts after it.
  have all : ∀ callees callers, parts = callers ++ callees → ∀ c ∈ callees, ∀ s ∈ c, P s := by
    intro callees
    induction callees with
    | nil => simp
    | cons c callees ih =>
        intro callers split
        have rest := ih (callers ++ [c]) (by simpa using split)
        intro d member s here
        rcases List.mem_cons.1 member with rfl | later
        · have listed : d ∈ parts := by simp [split]
          have same := division.same_iff d listed s here
          refine step s (division.mem_symbols listed here) fun u v together joins apart => ?_
          have away : v ∉ d := fun there => apart (together.symm.trans ((same v).1 there))
          obtain ⟨b, last, there⟩ :=
            division.callee_after order split ((same u).2 together) joins away
          exact rest b last v there
        · exact rest d later s here
  intro s inside
  obtain ⟨c, listed, here⟩ := division.exists_part inside
  exact all parts [] rfl c listed s here

/-! ## Counting calls -/

theorem calls_cons (a : Arc) (arcs : List Arc) (u v : Symbol) :
    calls (a :: arcs) u v = (if a.caller = u ∧ a.callee = v then a.count else 0) +
      calls arcs u v := by
  unfold calls
  by_cases ends : a.caller = u ∧ a.callee = v
  · simp [ends]
  · simp [ends]

theorem sum_calls (arcs : List Arc) (callers callees : Finset Symbol) :
    ∑ u ∈ callers, ∑ v ∈ callees, calls arcs u v =
      ((arcs.filter fun a => a.caller ∈ callers ∧ a.callee ∈ callees).map (·.count)).sum := by
  induction arcs with
  | nil => simp [calls]
  | cons a arcs ih =>
      have first : ∑ u ∈ callers, ∑ v ∈ callees,
          (if a.caller = u ∧ a.callee = v then a.count else 0) =
            if a.caller ∈ callers ∧ a.callee ∈ callees then a.count else 0 := by
        simp only [ite_and, Finset.sum_ite_eq, Finset.sum_ite_irrel, Finset.sum_const_zero]
      simp only [calls_cons, Finset.sum_add_distrib, first, ih]
      by_cases chosen : a.caller ∈ callers ∧ a.callee ∈ callees
      · simp [chosen]
      · simp [chosen]

theorem sum_calls_entering (arcs : List Arc) (members : Finset Symbol) :
    ∑ u ∈ symbols arcs \ members, ∑ v ∈ members, calls arcs u v = entering arcs members := by
  rw [sum_calls, entering]
  congr 2
  refine List.filter_congr fun a member => ?_
  have inside : a.caller ∈ symbols arcs := mem_symbols.2 ⟨a, member, .inl rfl⟩
  simp [inside, and_comm]

/-! ## The equations -/

/-- The charges of symbols for others, and the times of the symbols' components, when
    times are shared out in proportion to calls. -/
structure IsSharing (arcs : List Arc) (times : Symbol → Int) (charge : Symbol → Symbol → Rat)
    (whole : Symbol → Rat) : Prop where
  /-- No symbol is charged for one of its own component. -/
  together : ∀ u v, Together arcs u v → charge u v = 0
  /-- Calls from outside are charged their part of a component's time. -/
  apart : ∀ u v, ¬ Together arcs u v → charge u v =
    if entering arcs (componentOf arcs v) = 0 then 0
    else whole v * calls arcs u v / entering arcs (componentOf arcs v)
  /-- A component has its members' own times and all that these are charged. -/
  whole_eq : ∀ s ∈ symbols arcs,
    whole s = ∑ u ∈ componentOf arcs s, (times u + ∑ v ∈ symbols arcs, charge u v)

namespace IsSharing

variable {charge charge' : Symbol → Symbol → Rat} {whole whole' : Symbol → Rat}

theorem whole_congr (sharing : IsSharing arcs times charge whole) (inside : s ∈ symbols arcs)
    (together : Together arcs s t) : whole s = whole t := by
  rw [sharing.whole_eq s inside, sharing.whole_eq t (together.1.mem_symbols inside),
    componentOf_congr together]

theorem charge_of_not_joins (sharing : IsSharing arcs times charge whole)
    (none : ¬ Joins arcs u v) : charge u v = 0 := by
  by_cases together : Together arcs u v
  · exact sharing.together u v together
  · rw [sharing.apart u v together, calls_eq_zero none]
    simp

/-- What is charged for a component adds up to its time, if any call enters it. -/
theorem sum_charges (sharing : IsSharing arcs times charge whole) (inside : s ∈ symbols arcs) :
    ∑ u ∈ symbols arcs \ componentOf arcs s, ∑ v ∈ componentOf arcs s, charge u v =
      if entering arcs (componentOf arcs s) = 0 then 0 else whole s := by
  have part : ∀ u ∈ symbols arcs \ componentOf arcs s, ∀ v ∈ componentOf arcs s,
      charge u v = if entering arcs (componentOf arcs s) = 0 then 0
        else whole s * calls arcs u v / entering arcs (componentOf arcs s) := by
    intro u outside v member
    obtain ⟨present, absent⟩ := Finset.mem_sdiff.1 outside
    have together := (mem_componentOf.1 member).2
    rw [sharing.apart u v (not_together present absent member), ← componentOf_congr together,
      sharing.whole_congr inside together]
  rw [Finset.sum_congr rfl fun u outside => Finset.sum_congr rfl (part u outside)]
  by_cases entered : entering arcs (componentOf arcs s) = 0
  · simp [entered]
  · have total : ∑ u ∈ symbols arcs \ componentOf arcs s, ∑ v ∈ componentOf arcs s,
        (calls arcs u v : Rat) = entering arcs (componentOf arcs s) := by
      exact_mod_cast sum_calls_entering arcs (componentOf arcs s)
    simp only [if_neg entered, ← Finset.sum_div, ← Finset.mul_sum]
    rw [total]
    have positive : (entering arcs (componentOf arcs s) : Rat) ≠ 0 := by exact_mod_cast entered
    exact mul_div_cancel_right₀ (whole s) positive

theorem sum_all_charges (sharing : IsSharing arcs times charge whole)
    (inside : s ∈ symbols arcs) :
    ∑ v ∈ componentOf arcs s, ∑ u ∈ symbols arcs, charge u v =
      if entering arcs (componentOf arcs s) = 0 then 0 else whole s := by
  -- The callers inside add nothing, so all callers may be summed over.
  rw [← sharing.sum_charges inside, Finset.sum_comm]
  refine (Finset.sum_subset Finset.sdiff_subset fun u present inner => ?_).symm
  have member : u ∈ componentOf arcs s := by simpa [present] using inner
  refine Finset.sum_eq_zero fun v other => sharing.together u v ?_
  exact (mem_componentOf.1 member).2.symm.trans (mem_componentOf.1 other).2

/-- A component's time depends on the times of those that it calls only. -/
theorem whole_eq_of_callees (first : IsSharing arcs times charge whole)
    (second : IsSharing arcs times charge' whole') (inside : s ∈ symbols arcs)
    (agree : ∀ u v, Together arcs s u → Joins arcs u v → ¬ Together arcs u v →
      whole v = whole' v) : whole s = whole' s := by
  rw [first.whole_eq s inside, second.whole_eq s inside]
  refine Finset.sum_congr rfl fun u member => ?_
  congr 1
  refine Finset.sum_congr rfl fun v _ => ?_
  by_cases together : Together arcs u v
  · rw [first.together u v together, second.together u v together]
  · by_cases joins : Joins arcs u v
    · rw [first.apart u v together, second.apart u v together,
        agree u v (mem_componentOf.1 member).2 joins together]
    · rw [first.charge_of_not_joins joins, second.charge_of_not_joins joins]

theorem whole_unique (first : IsSharing arcs times charge whole)
    (second : IsSharing arcs times charge' whole') (inside : s ∈ symbols arcs) :
    whole s = whole' s :=
  callees_induction (fun _ => first.whole_eq_of_callees second) s inside

/-- The equations have one solution. -/
theorem charge_unique (first : IsSharing arcs times charge whole)
    (second : IsSharing arcs times charge' whole') (u v : Symbol) :
    charge u v = charge' u v := by
  by_cases joins : Joins arcs u v
  · by_cases together : Together arcs u v
    · rw [first.together u v together, second.together u v together]
    · rw [first.apart u v together, second.apart u v together,
        first.whole_unique second joins.mem_symbols.2]
  · rw [first.charge_of_not_joins joins, second.charge_of_not_joins joins]

end IsSharing

end CallProfile.Arc
