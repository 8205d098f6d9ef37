import CallProfile.Proofs.Notations
import CallProfile.Proofs.Ranges
import CallProfile.Symbol.File

/-! # Symbol maps that have symbols

A symbol map has symbols when its text holds a list of entries, each of which has a name, a start
that is no negative address, and no end and no size but addresses. The names and the files have to
be such that they can be written out.
-/

namespace CallProfile

namespace Entry

variable {d : Datum} {entries : List (Datum × Datum)} {listed : List Datum}

end Entry

section

variable {readYaml : String → Except Fault Datum} {read : String → Except Fault (List UInt8)}
  {given : String}

end

end CallProfile
