import CallProfile.Recording.Record
import Mathlib.Order.Basic
import Mathlib.Tactic.Linarith

/-! # Buckets tile a range

The first address of a bucket is the highest one that lies no further into the range than the
bucket among all buckets. So buckets begin in their order, the first one at the start of the range
and one after the last at its end, and a bucket is as long as the average up to rounding. Where
buckets are more than addresses some of them are empty, but no two share an address.
-/

namespace CallProfile.Histogram

open scoped Whole

/-- Whether an address is one of those of bucket `i`. -/
def InBucket (h : Histogram) (i address : Int) : Prop :=
  (h.bucketRange i).1 ≤ address ∧ address < (h.bucketRange i).2

/-- The number of addresses of bucket `i`. -/
def bucketSize (h : Histogram) (i : Int) : Int :=
  (h.bucketRange i).2 - (h.bucketRange i).1

variable {h : Histogram}

/-- A bucket starts at or after an address when it is at least as far among the buckets as the
    address is in the range. -/
theorem le_bucketAddress_iff (positive : 0 < h.bucketCount) (a i : Int) :
    a ≤ h.bucketAddress i ↔ (a - h.low) * h.bucketCount ≤ i * ((h.high : Int) - h.low) := by
  have count : (0 : Int) < h.bucketCount := Int.natCast_pos.2 positive
  rw [bucketAddress, if_neg (by omega), Int.fdiv_eq_ediv_of_nonneg _ count.le,
    ← Int.le_ediv_iff_mul_le count]
  omega

theorem bucketAddress_zero (h : Histogram) : h.bucketAddress 0 = h.low := by
  simp [bucketAddress]

theorem bucketAddress_count (positive : 0 < h.bucketCount) :
    h.bucketAddress h.bucketCount = h.high := by
  have count : (0 : Int) < h.bucketCount := Int.natCast_pos.2 positive
  rw [bucketAddress, if_neg (by omega), Int.fdiv_eq_ediv_of_nonneg _ count.le,
    Int.mul_ediv_cancel_left _ count.ne']
  omega

theorem bucketAddress_mono (range : h.low ≤ h.high) (positive : 0 < h.bucketCount) {i j : Int}
    (before : i ≤ j) : h.bucketAddress i ≤ h.bucketAddress j := by
  have span : (0 : Int) ≤ (h.high : Int) - h.low := by omega
  rw [le_bucketAddress_iff positive]
  calc (h.bucketAddress i - h.low) * h.bucketCount
      ≤ i * ((h.high : Int) - h.low) := (le_bucketAddress_iff positive _ i).1 le_rfl
    _ ≤ j * ((h.high : Int) - h.low) := Int.mul_le_mul_of_nonneg_right before span

/-! ## Sizes -/

/-- No bucket is longer or shorter than the average by a whole address. -/
theorem bucketSize_bounds (positive : 0 < h.bucketCount) (i : Int) :
    (h.bucketSize i - 1) * h.bucketCount < (h.high : Int) - h.low ∧
      (h.high : Int) - h.low < (h.bucketSize i + 1) * h.bucketCount := by
  -- either end of the bucket is what its place rounds down to: it is not beyond it, and the
  -- address after it is
  have first := (le_bucketAddress_iff positive _ i).1 le_rfl
  have next := (le_bucketAddress_iff positive _ (i + 1)).1 le_rfl
  have beyond := (not_congr (le_bucketAddress_iff positive (h.bucketAddress i + 1) i)).1 (by omega)
  have beyond' :=
    (not_congr (le_bucketAddress_iff positive (h.bucketAddress (i + 1) + 1) (i + 1))).1 (by omega)
  rw [bucketSize, bucketRange]
  constructor <;> linarith

theorem bucketSize_le (positive : 0 < h.bucketCount) (i j : Int) :
    h.bucketSize i ≤ h.bucketSize j + 1 := by
  have count : (0 : Int) ≤ h.bucketCount := Int.natCast_nonneg _
  have between := (bucketSize_bounds positive i).1.trans (bucketSize_bounds positive j).2
  have less := Int.lt_of_mul_lt_mul_right between count
  omega

/-! ## Addresses -/

/-- An address between the starts of two buckets is in one from the first of them on. -/
theorem exists_inBucket {address : Int} {n : Nat} (start : h.bucketAddress 0 ≤ address)
    (stop : address < h.bucketAddress n) : ∃ i < n, h.InBucket i address := by
  induction n with
  | zero => exact absurd stop (not_lt.2 start)
  | succ n ih =>
      by_cases earlier : address < h.bucketAddress n
      · obtain ⟨i, below, inside⟩ := ih earlier
        exact ⟨i, below.trans n.lt_succ_self, inside⟩
      · exact ⟨n, n.lt_succ_self, not_lt.1 earlier, by simpa [bucketRange] using stop⟩

/-- No address is in two buckets. -/
theorem InBucket.unique (range : h.low ≤ h.high) (positive : 0 < h.bucketCount) {i j address : Int}
    (first : h.InBucket i address) (second : h.InBucket j address) : i = j := by
  rcases lt_trichotomy i j with before | same | after
  · have apart : (h.bucketRange i).2 ≤ (h.bucketRange j).1 :=
      bucketAddress_mono range positive before
    exact absurd (first.2.trans_le apart) (not_lt.2 second.1)
  · exact same
  · have apart : (h.bucketRange j).2 ≤ (h.bucketRange i).1 :=
      bucketAddress_mono range positive after
    exact absurd (second.2.trans_le apart) (not_lt.2 first.1)

/-- The buckets of a range cut it into pieces without a gap. They begin at its start and end at
    its end, each where the one before it ends, and none before an earlier one. Every address of
    the range, and no other, is in one bucket and in one only, and the sizes of any two buckets
    differ by one address at most. -/
theorem buckets_tile (range : h.low ≤ h.high) (positive : 1 ≤ h.bucketCount) :
    (h.bucketRange 0).1 = h.low ∧ (h.bucketRange (h.bucketCount - 1)).2 = h.high ∧
    (∀ i, (h.bucketRange (i + 1)).1 = (h.bucketRange i).2) ∧
    (∀ i j, i ≤ j → h.bucketAddress i ≤ h.bucketAddress j) ∧
    (∀ address : Int, (h.low ≤ address ∧ address < h.high) ↔
      ∃! i : Nat, i < h.bucketCount ∧ h.InBucket i address) ∧
    ∀ i j, |h.bucketSize i - h.bucketSize j| ≤ 1 := by
  refine ⟨bucketAddress_zero h, ?_, fun _ => rfl, fun _ _ => bucketAddress_mono range positive,
    fun address => ⟨?_, ?_⟩, fun i j => ?_⟩
  · rw [bucketRange, Int.sub_add_cancel]
    exact bucketAddress_count positive
  · rintro ⟨low, high⟩
    rw [← bucketAddress_zero h] at low
    rw [← bucketAddress_count positive] at high
    obtain ⟨i, below, inside⟩ := exists_inBucket low high
    refine ⟨i, ⟨below, inside⟩, fun j ⟨_, inside'⟩ => ?_⟩
    exact Int.natCast_inj.1 (inside'.unique range positive inside)
  · rintro ⟨i, ⟨below, start, stop⟩, -⟩
    have low : h.bucketAddress 0 ≤ h.bucketAddress i := bucketAddress_mono range positive (by omega)
    have high : h.bucketAddress (i + 1) ≤ h.bucketAddress h.bucketCount :=
      bucketAddress_mono range positive (by omega)
    rw [bucketAddress_zero] at low
    rw [bucketAddress_count positive] at high
    exact ⟨low.trans start, stop.trans_le high⟩
  · have longer := bucketSize_le positive i j
    have shorter := bucketSize_le positive j i
    rw [abs_le]
    omega

/-- More buckets than addresses, so that some buckets are empty. -/
def sparse : Histogram where
  low := 16
  high := 19
  bucketCount := 5
  sampleRate := 100
  dimension := "seconds"
  abbreviation := "s"

theorem buckets_tile_sparse :
    sparse.low ≤ sparse.high ∧ 1 ≤ sparse.bucketCount ∧
      (sparse.bucketRange 0).1 = 16 ∧ (sparse.bucketRange 4).2 = 19 ∧
      (∃! i : Nat, i < 5 ∧ sparse.InBucket i 18) ∧
      ¬ (∃! i : Nat, i < 5 ∧ sparse.InBucket i 19) ∧
      |sparse.bucketSize 0 - sparse.bucketSize 1| ≤ 1 := by
  obtain ⟨start, stop, -, -, inside, sizes⟩ := buckets_tile (h := sparse) (by decide) (by decide)
  exact ⟨by decide, by decide, start, stop, (inside 18).1 (by decide),
    mt (inside 19).2 (by decide), sizes 0 1⟩

end CallProfile.Histogram
