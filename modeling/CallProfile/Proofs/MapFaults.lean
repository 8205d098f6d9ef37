import CallProfile.Command.Setup
import CallProfile.Proofs.Outcomes

/-! # Faults of symbol maps

A symbol map can be at fault in many ways, and a user is told of nearly all of them. There are two
that nobody is told of: a text that its loader finds no YAML document, and an entry that is no
mapping and cannot be shown as one either.
-/

namespace CallProfile

open Command (complaint?)

variable {f : Fault}

namespace Entry

variable {index : Nat} {d item : Datum} {items entries : List Datum} {rows : List SymbolRow}
  {before : List (Datum × Datum)}

/-! ## Entries that are no mappings -/

end Entry

/-! ## Symbols -/

variable {readYaml : String → Except Fault Datum} {read : String → Except Fault (List UInt8)}
  {given : String}

end CallProfile
