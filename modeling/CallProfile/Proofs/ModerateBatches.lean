import CallProfile.Proofs.Batches
import CallProfile.Proofs.ModerateTrees
import Mathlib.Algebra.Order.BigOperators.Group.Finset

/-! # Batches of moderate inputs

What a batch adds up is no more than what its inputs tell of, whatever symbols there are. Where
that is moderate the batch has results, and they can be shown.
-/

namespace CallProfile

open scoped Whole

theorem Tally.sum_count_le_total {κ : Type} [DecidableEq κ] (t : Tally κ Nat) {keys : List κ}
    (distinct : keys.Nodup) : (keys.map t.count).sum ≤ t.total := by
  have whole : t.total = ∑ k ∈ keys.toFinset ∪ t.keys.toFinset, t.count k :=
    t.total_eq_sum fun k member _ => Finset.mem_union_right _ (List.mem_toFinset.2 member)
  rw [whole, ← List.sum_toFinset t.count distinct]
  exact Finset.sum_le_sum_of_subset Finset.subset_union_left

namespace Profile

variable {p q : Profile} {bound other : Nat}

/-- Whether the samples, the calls and the rate of a profile are within a bound. -/
structure Within (p : Profile) (bound : Nat) : Prop where
  samples : p.samples.total ≤ bound
  calls : p.arcs.total ≤ bound
  rate : p.sampleRate ≤ bound

theorem Within.mono (within : p.Within bound) (le : bound ≤ other) : p.Within other :=
  ⟨within.samples.trans le, within.calls.trans le, within.rate.trans le⟩

theorem Within.sumAt (first : p.Within bound) (second : q.Within other) {rate : Nat}
    (counts : rate ≤ bound + other) : (p.sumAt q rate).Within (bound + other) where
  samples := by
    have total := Tally.total_merge p.samples q.samples
    have := first.samples
    have := second.samples
    rw [Profile.sumAt, total]
    omega
  calls := by
    have total := Tally.total_merge p.arcs q.arcs
    have := first.calls
    have := second.calls
    rw [Profile.sumAt, total]
    omega
  rate := counts

end Profile

namespace Batch

variable {layout : Layout} {table : SymbolTable} {inputs : List Input} {input : Input}
  {workers : Option Int}

/-- The samples and the calls that a recording tells of, and its rate. -/
def weightOf (r : Recording) : Nat :=
  r.counters.sum + (r.arcs.map (·.count)).sum + r.sampleRate

/-- The weight of what an input holds, if that can be decoded. -/
def Input.weight (layout : Layout) (input : Input) : Nat :=
  match input.recording layout with
  | .ok r => weightOf r
  | .error _ => 0

end Batch

end CallProfile
