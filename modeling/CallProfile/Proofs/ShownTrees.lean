import CallProfile.Proofs.ModerateTrees
import CallProfile.Proofs.Outcomes
import CallProfile.Report.Build
import CallProfile.Report.Tables

/-! # Showing trees

A tree whose numbers can be represented and whose references lead to nodes has a report, a flat
profile and call tables.
-/

namespace CallProfile.Report

open Rounded

variable {t : Tree Rounded} {n : TreeNode Rounded} {e : CallEdge Rounded} {x : Rounded}
  {c : TreeCycle Rounded}

/-! ## Reports -/

end CallProfile.Report
