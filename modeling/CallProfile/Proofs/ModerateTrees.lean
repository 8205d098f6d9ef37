import CallProfile.Proofs.CallViews
import CallProfile.Proofs.ModerateGraphs

/-! # Trees of moderate numbers

In a tree of moderate samples and calls every number can be represented and every reference leads
to a node, so nothing keeps it from being shown.
-/

namespace CallProfile.Tree

open scoped Whole

open CallGraph Rounded

variable {arcs : List Arc} {p : Samples} {g : CallGraph Rounded} {t : Tree Rounded}
  {n : TreeNode Rounded}

/-- Whether all numbers of a node can be represented. -/
structure NodeFits (n : TreeNode Rounded) : Prop where
  own : Moderate n.selfTime
  cumulative : n.cumulative.Fits
  percentage : n.percentage.Fits
  rate : Moderate n.sampleRate

theorem NodeFits.selfSeconds (fits : NodeFits n) : n.selfSeconds.Fits :=
  Amount.Fits.divideBy fits.own fits.rate

theorem NodeFits.cumulativeSeconds (fits : NodeFits n) : n.cumulativeSeconds.Fits :=
  fits.cumulative.divideBy fits.rate

theorem LaidOut.exists_node {α : Type} [Times α] {nodes : List (CallNode α)} {total : Int}
    {gs : List (Option String × List Symbol)} {t : Tree α} (laid : t.LaidOut p nodes total gs)
    {id : Nat} {s : Symbol} (stands : t.StandsFor id s) : ∃ n, t.node id = .ok n := by
  obtain ⟨n, member, rfl, -⟩ := stands
  refine ⟨n, ?_⟩
  rw [node, node?, if_pos (Int.natCast_nonneg _), Int.toNat_natCast, laid.place member]

end CallProfile.Tree
