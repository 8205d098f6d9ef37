import CallProfile.Command.Setup
import CallProfile.Proofs.Grammar

/-! # Layouts in configurations

A configuration can replace the byte order of a layout and the width of its addresses, and nothing
else. What it leaves is a regular layout.
-/

namespace CallProfile

namespace Layout

variable {l layout : Layout} {fields : List (String × Datum)}

end Layout

namespace Command

variable {κ : Type} {lib : Libraries κ} {c : κ} {layout : Layout}

end Command

end CallProfile
