/-! # Whole numbers

Sums and powers of whole numbers are those of the numbers themselves, also where more is
known of the numbers.
-/

namespace CallProfile.Whole

scoped instance (priority := high) zeroNat : Zero Nat := Zero.ofOfNat0

scoped instance (priority := high) zeroInt : Zero Int := Zero.ofOfNat0

scoped instance (priority := high) powNat : Pow Nat Nat := instPowNat

scoped instance (priority := high) powInt : Pow Int Nat := instPowNat

end CallProfile.Whole
