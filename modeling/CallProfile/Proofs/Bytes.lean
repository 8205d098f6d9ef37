import CallProfile.Recording.Written

/-! # Numbers as bytes

Reading a number inverts writing it, and bytes of a width are those of one number. So bytes that
are long enough for some fields are the bytes of numbers in these fields.
-/

namespace CallProfile

open scoped Whole

variable {order : ByteOrder} {w : Width} {n : Nat} {bs rest : List UInt8}

@[simp] theorem length_littleBytes (count n : Nat) : (littleBytes count n).length = count := by
  induction count generalizing n with
  | zero => rfl
  | succ count ih => simp [littleBytes, ih]

theorem littleValue_lt (bs : List UInt8) : littleValue bs < 256 ^ bs.length := by
  induction bs with
  | nil => decide
  | cons b bs ih =>
      have byte := b.toNat_lt
      rw [littleValue, List.length_cons, Nat.pow_succ]
      omega

theorem littleValue_littleBytes {count n : Nat} (small : n < 256 ^ count) :
    littleValue (littleBytes count n) = n := by
  induction count generalizing n with
  | zero =>
      rw [Nat.pow_zero] at small
      simp only [littleBytes, littleValue]
      omega
  | succ count ih =>
      rw [Nat.pow_succ] at small
      have byte : (UInt8.ofNat (n % 256)).toNat = n % 256 := by simp
      rw [littleBytes, littleValue, ih (by omega), byte]
      omega

theorem littleBytes_littleValue (bs : List UInt8) :
    littleBytes bs.length (littleValue bs) = bs := by
  induction bs with
  | nil => rfl
  | cons b bs ih =>
      have byte := b.toNat_lt
      have low : (b.toNat + 256 * littleValue bs) % 256 = b.toNat := by omega
      have high : (b.toNat + 256 * littleValue bs) / 256 = littleValue bs := by omega
      rw [List.length_cons, littleValue, littleBytes, low, high, ih, UInt8.ofNat_toNat]

@[simp] theorem length_bytesOf (order : ByteOrder) (w : Width) (n : Nat) :
    (bytesOf order w n).length = w.bytes := by
  cases order <;> simp [bytesOf]

theorem numberOf_bytesOf (holds : w.Holds n) : numberOf order (bytesOf order w n) = n := by
  cases order <;> simp [numberOf, bytesOf, littleValue_littleBytes holds]

theorem bytesOf_numberOf (order : ByteOrder) (size : bs.length = w.bytes) :
    bytesOf order w (numberOf order bs) = bs := by
  have little := littleBytes_littleValue bs
  have big := littleBytes_littleValue bs.reverse
  rw [List.length_reverse] at big
  cases order <;> simp [numberOf, bytesOf, ← size, little, big]

theorem holds_numberOf (order : ByteOrder) (size : bs.length = w.bytes) :
    w.Holds (numberOf order bs) := by
  have little := littleValue_lt bs
  have big := littleValue_lt bs.reverse
  rw [List.length_reverse] at big
  cases order <;> simpa [Width.Holds, numberOf, ← size]

theorem numberOf_eq_iff (size : bs.length = w.bytes) :
    numberOf order bs = n ↔ w.Holds n ∧ bs = bytesOf order w n := by
  constructor
  · rintro rfl
    exact ⟨holds_numberOf order size, (bytesOf_numberOf order size).symm⟩
  · rintro ⟨holds, rfl⟩
    exact numberOf_bytesOf holds

/-! ## Fields -/

theorem fieldOf_bytesOf (holds : w.Holds n) (rest : List UInt8) :
    fieldOf order (bytesOf order w n ++ rest) 0 w = n := by
  rw [fieldOf, List.drop_zero, List.take_left' (length_bytesOf order w n), numberOf_bytesOf holds]

theorem fieldOf_bytesOf_last (holds : w.Holds n) : fieldOf order (bytesOf order w n) 0 w = n := by
  have field := @fieldOf_bytesOf order _ _ holds []
  rwa [List.append_nil] at field

theorem fieldOf_skip {v : Width} {m start k : Nat} (place : start = v.bytes + k)
    (rest : List UInt8) :
    fieldOf order (bytesOf order v m ++ rest) start w = fieldOf order rest k w := by
  subst place
  have gone : (bytesOf order v m).drop (v.bytes + k) = [] := List.drop_eq_nil_of_le (by simp)
  simp [fieldOf, List.drop_append, gone]

theorem exists_bytesOf (order : ByteOrder) {k : Nat} (size : bs.length = w.bytes + k) :
    ∃ n rest, w.Holds n ∧ bs = bytesOf order w n ++ rest ∧ rest.length = k := by
  have first : (bs.take w.bytes).length = w.bytes := by simp [size]
  refine ⟨numberOf order (bs.take w.bytes), bs.drop w.bytes, holds_numberOf order first, ?_, ?_⟩
  · rw [bytesOf_numberOf order first, List.take_append_drop]
  · simp [size]

theorem exists_bytesOf_last (order : ByteOrder) (size : bs.length = w.bytes) :
    ∃ n, w.Holds n ∧ bs = bytesOf order w n :=
  ⟨numberOf order bs, holds_numberOf order size, (bytesOf_numberOf order size).symm⟩

/-! ## Numbers that follow each other -/

@[simp] theorem length_bytesOfAll (order : ByteOrder) (w : Width) (ns : List Nat) :
    (bytesOfAll order w ns).length = w.bytes * ns.length := by
  induction ns with
  | nil => rfl
  | cons n ns ih =>
      rw [bytesOfAll, List.flatMap_cons, List.length_append, length_bytesOf, ← bytesOfAll, ih,
        List.length_cons, Nat.mul_succ, Nat.add_comm]

theorem numbersOf_bytesOfAll {ns : List Nat} (holds : ∀ n ∈ ns, w.Holds n) :
    numbersOf order w ns.length (bytesOfAll order w ns) = ns := by
  induction ns with
  | nil => rfl
  | cons n ns ih =>
      have first : numberOf order (bytesOf order w n) = n :=
        numberOf_bytesOf (holds n List.mem_cons_self)
      have rest := ih fun m member => holds m (List.mem_cons_of_mem n member)
      rw [bytesOfAll] at rest ⊢
      have length := length_bytesOf order w n
      rw [List.flatMap_cons, List.length_cons, numbersOf, List.take_left' length,
        List.drop_left' length, first, rest]

theorem exists_bytesOfAll (order : ByteOrder) {count : Nat}
    (size : bs.length = w.bytes * count) :
    ∃ ns : List Nat, ns.length = count ∧ (∀ n ∈ ns, w.Holds n) ∧ bs = bytesOfAll order w ns := by
  induction count generalizing bs with
  | zero => exact ⟨[], rfl, by simp, List.eq_nil_of_length_eq_zero size⟩
  | succ count ih =>
      rw [Nat.mul_succ, Nat.add_comm] at size
      obtain ⟨n, rest, holds, rfl, short⟩ := exists_bytesOf order size
      obtain ⟨ns, length, all, rfl⟩ := ih short
      exact ⟨n :: ns, by simp [length], by simpa [holds] using all, rfl⟩

/-! ## Pairs of numbers -/

theorem blockCounts_pairs (counts : List BlockCount) :
    blockCounts (counts.flatMap fun c => [c.address, c.count]) = counts := by
  induction counts with
  | nil => rfl
  | cons c counts ih =>
      simp only [List.flatMap_cons, List.cons_append, List.nil_append, blockCounts, ih]

theorem length_pairs (counts : List BlockCount) :
    (counts.flatMap fun c => [c.address, c.count]).length = 2 * counts.length := by
  induction counts with
  | nil => rfl
  | cons c counts ih => simp only [List.flatMap_cons, List.length_append, List.length_cons, ih,
      List.length_nil]; omega

theorem holds_pairs_iff {counts : List BlockCount} :
    (∀ n ∈ counts.flatMap fun c => [c.address, c.count], w.Holds n) ↔
      ∀ c ∈ counts, w.Holds c.address ∧ w.Holds c.count := by
  simp only [List.mem_flatMap, List.mem_cons, List.not_mem_nil, or_false]
  constructor
  · exact fun all c member => ⟨all _ ⟨c, member, .inl rfl⟩, all _ ⟨c, member, .inr rfl⟩⟩
  · rintro all n ⟨c, member, rfl | rfl⟩
    · exact (all c member).1
    · exact (all c member).2

theorem exists_pairs {ns : List Nat} {count : Nat} (size : ns.length = 2 * count) :
    ∃ counts : List BlockCount, counts.length = count ∧
      ns = counts.flatMap fun c => [c.address, c.count] := by
  induction count generalizing ns with
  | zero => exact ⟨[], rfl, List.eq_nil_of_length_eq_zero size⟩
  | succ count ih =>
      match ns with
      | [] => simp at size
      | [_] => simp at size; omega
      | address :: n :: ns =>
          have short : ns.length = 2 * count := by simp at size; omega
          obtain ⟨counts, length, rfl⟩ := ih short
          exact ⟨{ address, count := n } :: counts, by simp [length], rfl⟩

end CallProfile
