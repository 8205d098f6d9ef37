import CallProfile.Proofs.Cuts

/-! # Progress through a file

A record that is read moves the cursor by its tag and the fields of its kind, whatever the layout.
Some widths of a layout may be below zero, though. Where a histogram without counters still takes
some bytes, every record does, and the end of the file is reached after at most as many records as
it has bytes. Where it takes none, there are files that never come to an end.
-/

namespace CallProfile

open scoped Whole

variable {l : Layout} {order : ByteOrder} {first : Option Histogram} {c c' rest : Cursor}
  {bytes : List UInt8} {record : String} {fault : Fault}

namespace Cursor

/-- Whether a cursor has moved by some bytes, and not beyond the last one. -/
structure Moved (c rest : Cursor) (size : Int) : Prop where
  data : rest.data = c.data
  offset : rest.offset = c.offset + size
  inside : rest.offset ≤ c.data.length

/-- Whether a cursor stands in its bytes or right behind them. -/
structure IsInside (c : Cursor) : Prop where
  nonneg : 0 ≤ c.offset
  le_length : c.offset ≤ c.data.length

variable {size size' : Int}

theorem Moved.trans (moved : c.Moved c' size) (moved' : c'.Moved rest size') :
    c.Moved rest (size + size') where
  data := moved'.data.trans moved.data
  offset := by rw [moved'.offset, moved.offset, Int.add_assoc]
  inside := by simpa only [moved.data] using moved'.inside

theorem Moved.isInside (moved : c.Moved rest size) (nonneg : 0 ≤ c.offset + size) :
    rest.IsInside where
  nonneg := by rw [moved.offset]; exact nonneg
  le_length := by rw [moved.data]; exact moved.inside

theorem IsInside.move (inside : c.IsInside) (moved : c.Moved rest size) (forward : 0 ≤ size) :
    rest.IsInside :=
  moved.isInside (Int.add_nonneg inside.nonneg forward)

theorem IsInside.remaining_nonneg (inside : c.IsInside) : 0 ≤ c.remaining :=
  Int.sub_nonneg.2 inside.le_length

theorem moved_take (reads : c.take size record = .ok (bytes, rest)) : c.Moved rest size := by
  rw [take] at reads
  split at reads
  · cases reads
  · next enough =>
      cases reads
      rw [remaining] at enough
      exact ⟨rfl, rfl, by dsimp only; omega⟩

theorem moved_takeExactly {size : Nat} (reads : c.takeExactly size record = .ok (bytes, rest)) :
    c.Moved rest size := by
  obtain ⟨⟨taken, c'⟩, takes, made⟩ := bind_eq_ok_iff.1 reads
  dsimp only at made
  split at made
  · cases made
    exact moved_take takes
  · cases made

end Cursor

/-! ## What a record takes -/

open Cursor

/-- The bytes of a record behind its tag. -/
def Record.sizeIn (l : Layout) : Record → Int
  | .histogram s => l.histogramHeaderSize + (l.counterWidth.bytes * s.histogram.bucketCount : Nat)
  | .arc _ => l.arcSize
  | .blocks counts => (l.blockCountWidth.bytes + l.blockSize * counts.length : Nat)

theorem moved_readSection {s : Section} (reads : readSection l order c = .ok (s, rest)) :
    c.Moved rest ((Record.histogram s).sizeIn l) ∧ s.offset = c.offset := by
  obtain ⟨⟨fixed, c₁⟩, takesFixed, reads⟩ := bind_eq_ok_iff.1 reads
  obtain ⟨⟨dimension, c₂⟩, takesDimension, reads⟩ := bind_eq_ok_iff.1 reads
  obtain ⟨⟨abbreviation, c₃⟩, takesAbbreviation, reads⟩ := bind_eq_ok_iff.1 reads
  have header := (moved_takeExactly takesFixed).trans
    ((moved_take takesDimension).trans (moved_take takesAbbreviation))
  dsimp only at reads
  split at reads
  · cases reads
  · obtain ⟨⟨counters, c₄⟩, takesCounters, made⟩ := bind_eq_ok_iff.1 reads
    cases made
    have moved := header.trans (moved_takeExactly takesCounters)
    rw [← Int.add_assoc] at moved
    exact ⟨moved, rfl⟩

theorem moved_readArc {a : RawArc} (reads : readArc l order c = .ok (a, rest)) :
    c.Moved rest ((Record.arc a).sizeIn l) := by
  obtain ⟨⟨fields, c'⟩, takes, made⟩ := bind_eq_ok_iff.1 reads
  cases made
  exact moved_takeExactly takes

theorem length_blockCounts (order : ByteOrder) (width : Width) (count : Nat) (bytes : List UInt8) :
    (blockCounts (numbersOf order width (2 * count) bytes)).length = count := by
  induction count generalizing bytes with
  | zero => rfl
  | succ count ih => exact congrArg (· + 1) (ih _)

theorem moved_readBlocks {counts : List BlockCount}
    (reads : readBlocks l order c = .ok (counts, rest)) :
    c.Moved rest ((Record.blocks counts).sizeIn l) := by
  obtain ⟨⟨header, c₁⟩, takesHeader, reads⟩ := bind_eq_ok_iff.1 reads
  obtain ⟨⟨numbers, c₂⟩, takesNumbers, made⟩ := bind_eq_ok_iff.1 reads
  cases made
  have moved := (moved_takeExactly takesHeader).trans (moved_takeExactly takesNumbers)
  have pairs (count : Nat) : l.addressWidth.bytes * (2 * count) = l.blockSize * count := by
    rw [Layout.blockSize, Nat.mul_left_comm, Nat.mul_assoc]
  rw [pairs, ← Int.natCast_add] at moved
  rwa [Record.sizeIn, length_blockCounts]

theorem moved_readRecord {r : Record} (reads : readRecord l order first c = .ok (r, rest)) :
    c.Moved rest (l.tagWidth.bytes + r.sizeIn l) := by
  obtain ⟨⟨tag, c₁⟩, takes, reads⟩ := bind_eq_ok_iff.1 reads
  refine (moved_takeExactly takes).trans ?_
  dsimp only at reads
  split at reads
  · obtain ⟨⟨s, c₂⟩, readsSection, reads⟩ := bind_eq_ok_iff.1 reads
    obtain ⟨_, -, made⟩ := bind_eq_ok_iff.1 reads
    cases made
    exact (moved_readSection readsSection).1
  split at reads
  · obtain ⟨⟨a, c₂⟩, readsArc, made⟩ := bind_eq_ok_iff.1 reads
    cases made
    exact moved_readArc readsArc
  split at reads
  · obtain ⟨⟨counts, c₂⟩, readsBlocks, made⟩ := bind_eq_ok_iff.1 reads
    cases made
    exact moved_readBlocks readsBlocks
  · cases reads

/-- The bytes of records with their tags. -/
def sizeOfRecords (l : Layout) (rs : List Record) : Int :=
  (rs.map fun r => (l.tagWidth.bytes : Int) + r.sizeIn l).sum

/-- Records that are read to the end take all bytes from the cursor on. -/
theorem sizeOfRecords_eq_remaining {fuel : Nat} {rs : List Record}
    (inside : c.offset ≤ c.data.length)
    (reads : readRecords l order fuel first c = .ok rs) : sizeOfRecords l rs = c.remaining := by
  induction fuel generalizing first c rs with
  | zero => cases reads
  | succ fuel ih =>
      rw [readRecords] at reads
      split at reads
      · next ends =>
          cases reads
          rw [remaining] at ends ⊢
          simp only [sizeOfRecords, List.map_nil, List.sum_nil]
          omega
      · obtain ⟨⟨r, rest⟩, readsRecord, reads⟩ := bind_eq_ok_iff.1 reads
        obtain ⟨rs, readsRest, made⟩ := bind_eq_ok_iff.1 reads
        cases made
        have moved := moved_readRecord readsRecord
        have left := ih (by rw [moved.data]; exact moved.inside) readsRest
        rw [remaining, moved.data, moved.offset] at left
        rw [remaining]
        simp only [sizeOfRecords, List.map_cons, List.sum_cons] at left ⊢
        omega

/-! ## Faults inside a file -/

/-- Whether a fault is one of content, at a place in a file, or tells how many bytes are missing
    behind one. -/
def Fault.IsLocated (length : Nat) (fault : Fault) : Prop :=
  fault.IsMalformed 0 ∨ fault.IsTruncated 0 length

namespace Cursor

variable {size : Int}

theorem isLocated_take (inside : c.IsInside) (fails : c.take size record = .error fault) :
    fault.IsLocated c.data.length := by
  rw [take] at fails
  split at fails
  · next short =>
      cases fails
      have enough := inside.le_length
      rw [remaining] at short
      exact .inr ⟨inside.nonneg, by rw [remaining]; omega, short, by rw [remaining]; omega⟩
  · cases fails

theorem length_slice {data : List UInt8} {start count : Nat}
    (inside : start + count ≤ data.length) :
    (slice data start (start + count)).length = count := by
  rw [slice, ← Int.natCast_add, position_natCast inside, position_natCast (by omega),
    List.length_take, List.length_drop]
  omega

/-- Inside of a file there are as many bytes as are asked for, unless it ends. -/
theorem isLocated_takeExactly {size : Nat} (inside : c.IsInside)
    (fails : c.takeExactly size record = .error fault) : fault.IsLocated c.data.length := by
  rcases bind_eq_error_iff.1 fails with fails | ⟨⟨taken, c'⟩, takes, fails⟩
  · exact isLocated_take inside fails
  · have length : taken.length = size := by
      have moved := moved_take takes
      obtain ⟨start, place⟩ := Int.eq_ofNat_of_zero_le inside.nonneg
      rw [take] at takes
      split at takes
      · cases takes
      · cases takes
        have enough := moved.inside
        rw [moved.offset] at enough
        rw [place] at enough ⊢
        exact length_slice (by omega)
    dsimp only at fails
    rw [if_pos length] at fails
    cases fails

end Cursor

theorem isLocated_readArc (inside : c.IsInside) (fails : readArc l order c = .error fault) :
    fault.IsLocated c.data.length := by
  rcases bind_eq_error_iff.1 fails with fails | ⟨_, -, ⟨⟩⟩
  exact isLocated_takeExactly inside fails

theorem isLocated_readBlocks (inside : c.IsInside) (fails : readBlocks l order c = .error fault) :
    fault.IsLocated c.data.length := by
  rcases bind_eq_error_iff.1 fails with fails | ⟨⟨header, c₁⟩, takes, fails⟩
  · exact isLocated_takeExactly inside fails
  rcases bind_eq_error_iff.1 fails with fails | ⟨_, -, ⟨⟩⟩
  have moved := moved_takeExactly takes
  rw [← moved.data]
  exact isLocated_takeExactly (inside.move moved (Int.natCast_nonneg _)) fails

/-- The unit of a histogram may move the cursor back, but not before the file. -/
theorem isLocated_readSection (inside : c.IsInside)
    (behind : 0 ≤ c.offset + l.histogramFixedSize + l.dimensionWidth)
    (fails : readSection l order c = .error fault) : fault.IsLocated c.data.length := by
  rcases bind_eq_error_iff.1 fails with fails | ⟨⟨fixed, c₁⟩, takes, fails⟩
  · exact isLocated_takeExactly inside fails
  have moved := moved_takeExactly takes
  have inside₁ := inside.move moved (Int.natCast_nonneg _)
  rcases bind_eq_error_iff.1 fails with fails | ⟨⟨dimension, c₂⟩, takes, fails⟩
  · rw [← moved.data]
    exact isLocated_take inside₁ fails
  have moved := moved.trans (moved_take takes)
  have inside₂ := moved.isInside (by rwa [← Int.add_assoc])
  rcases bind_eq_error_iff.1 fails with fails | ⟨⟨abbreviation, c₃⟩, takes, fails⟩
  · rw [← moved.data]
    exact isLocated_take inside₂ fails
  have inside₃ := inside₂.move (moved_take takes) (by decide)
  have moved := moved.trans (moved_take takes)
  dsimp only at fails
  split at fails
  · cases fails
    exact .inl inside.nonneg
  rcases bind_eq_error_iff.1 fails with fails | ⟨_, -, ⟨⟩⟩
  rw [← moved.data]
  exact isLocated_takeExactly inside₃ fails

theorem isLocated_checkCompatible {s : Section} {length : Nat} (nonneg : 0 ≤ s.offset)
    (fails : checkCompatible first s = .error fault) : fault.IsLocated length := by
  cases first with
  | none => cases fails
  | some h =>
      rw [checkCompatible] at fails
      split at fails
      · cases fails
        exact .inl nonneg
      split at fails
      · cases fails
        exact .inl nonneg
      · cases fails

/-- Whether every record of a layout takes some bytes, even a histogram without counters. -/
def Layout.Advances (l : Layout) : Prop :=
  0 < l.tagWidth.bytes + l.histogramHeaderSize

instance (l : Layout) : Decidable l.Advances :=
  inferInstanceAs (Decidable (_ < _))

theorem isLocated_readRecord (advances : l.Advances) (inside : c.IsInside)
    (fails : readRecord l order first c = .error fault) : fault.IsLocated c.data.length := by
  have nonneg := inside.nonneg
  rcases bind_eq_error_iff.1 fails with fails | ⟨⟨tag, c₁⟩, takes, fails⟩
  · exact isLocated_takeExactly inside fails
  have moved := moved_takeExactly takes
  have inside₁ := inside.move moved (Int.natCast_nonneg _)
  have place := moved.offset
  rw [← moved.data]
  dsimp only at fails
  split at fails
  · rcases bind_eq_error_iff.1 fails with fails | ⟨⟨s, c₂⟩, reads, fails⟩
    · refine isLocated_readSection inside₁ ?_ fails
      rw [Layout.Advances, Layout.histogramHeaderSize] at advances
      omega
    rcases bind_eq_error_iff.1 fails with fails | ⟨_, -, ⟨⟩⟩
    refine isLocated_checkCompatible ?_ fails
    rw [(moved_readSection reads).2]
    exact inside₁.nonneg
  split at fails
  · rcases bind_eq_error_iff.1 fails with fails | ⟨_, -, ⟨⟩⟩
    exact isLocated_readArc inside₁ fails
  split at fails
  · rcases bind_eq_error_iff.1 fails with fails | ⟨_, -, ⟨⟩⟩
    exact isLocated_readBlocks inside₁ fails
  · cases fails
    exact .inl nonneg

theorem isLocated_readHeader {data : List UInt8} (fails : readHeader l data = .error fault) :
    fault.IsLocated data.length := by
  have version (found : Int) : Fault.IsLocated data.length
      (.malformed "unsupported version" l.magic.length (.int l.version) (.int found)) :=
    .inl (Int.natCast_nonneg _)
  rw [readHeader] at fails
  split at fails
  · next short =>
      cases fails
      exact .inr ⟨Int.le_refl _, Int.natCast_nonneg _, short, Int.zero_add _⟩
  dsimp only at fails
  split at fails
  · cases fails
    exact .inl (Int.le_refl _)
  split at fails
  · split at fails
    · cases fails
    · cases fails
      exact version _
  · split at fails
    · cases fails
    · cases fails
      exact version _
  · split at fails
    · cases fails
    split at fails
    · cases fails
    · cases fails
      exact version _

theorem headerSize_le_length {data : List UInt8} {found : ByteOrder × Int}
    (reads : readHeader l data = .ok found) : l.headerSize ≤ data.length := by
  by_contra short
  rw [readHeader_short (by omega)] at reads
  cases reads

/-! ## Rounds -/

theorem Record.sizeIn_pos (advances : l.Advances) (r : Record) :
    0 < l.tagWidth.bytes + r.sizeIn l := by
  have pos := l.tagWidth.bytes_pos
  rw [Layout.Advances] at advances
  cases r <;> simp only [sizeIn] <;> omega

theorem length_le_sizeOfRecords (advances : l.Advances) (rs : List Record) :
    rs.length ≤ sizeOfRecords l rs := by
  induction rs with
  | nil => exact Int.le_refl 0
  | cons r rs ih =>
      have pos := r.sizeIn_pos advances
      simp only [sizeOfRecords, List.map_cons, List.sum_cons, List.length_cons] at ih ⊢
      omega

/-- A round moves the cursor forward, and leaves it in its file. -/
theorem advances_readRecord (advances : l.Advances) {r : Record} (inside : c.IsInside)
    (reads : readRecord l order first c = .ok (r, rest)) :
    rest.data = c.data ∧ c.offset < rest.offset ∧ rest.IsInside := by
  have moved := moved_readRecord reads
  have pos := r.sizeIn_pos advances
  have forward := moved.offset
  exact ⟨moved.data, by omega, inside.move moved (Int.le_of_lt pos)⟩

/-- Records are read to the end or up to a located fault, when there is more fuel than bytes; how
    much more does not matter. -/
theorem readRecords_stops (advances : l.Advances) (order : ByteOrder) (first : Option Histogram)
    {fuel fuel' : Nat} (inside : c.IsInside) (enough : c.remaining < fuel)
    (enough' : c.remaining < fuel') :
    readRecords l order fuel first c = readRecords l order fuel' first c ∧
      ((∃ rs, readRecords l order fuel first c = .ok rs) ∨
        ∃ fault, readRecords l order fuel first c = .error fault ∧
          fault.IsLocated c.data.length) := by
  have left := inside.remaining_nonneg
  -- every round leaves fewer bytes, and one less of the fuel
  induction fuel generalizing fuel' first c with
  | zero => omega
  | succ fuel ih =>
      obtain ⟨fuel', rfl⟩ : ∃ n, fuel' = n + 1 := ⟨fuel' - 1, by omega⟩
      by_cases ends : c.remaining ≤ 0
      · rw [readRecords, readRecords, if_pos ends, if_pos ends]
        exact ⟨rfl, .inl ⟨[], rfl⟩⟩
      rw [readRecords, readRecords, if_neg ends, if_neg ends]
      cases reads : readRecord l order first c with
      | error fault => exact ⟨rfl, .inr ⟨fault, rfl, isLocated_readRecord advances inside reads⟩⟩
      | ok found =>
          obtain ⟨r, rest⟩ := found
          obtain ⟨data, forward, inside'⟩ := advances_readRecord advances inside reads
          have fewer : rest.remaining < c.remaining := by
            rw [remaining, remaining, data]
            omega
          have less : rest.remaining < fuel := by omega
          have less' : rest.remaining < fuel' := by omega
          obtain ⟨same, stops⟩ := ih (firstAfter first r) inside' less less'
            inside'.remaining_nonneg
          rw [data] at stops
          simp only [bind, Except.bind, ← same]
          refine ⟨trivial, ?_⟩
          rcases stops with ⟨rs, ends⟩ | ⟨fault, fails, located⟩
          · exact .inl ⟨r :: rs, by rw [ends]; rfl⟩
          · exact .inr ⟨fault, by rw [fails], located⟩

/-- Every byte of a file that is decoded belongs to its header or to one of its records, whatever
    the layout. -/
theorem decode_takes_all_bytes {data : List UInt8} {r : Recording} (reads : decode l data = .ok r) :
    l.headerSize + sizeOfRecords l r.records = data.length := by
  obtain ⟨⟨order, version⟩, header, reads⟩ := bind_eq_ok_iff.1 reads
  obtain ⟨records, readsRecords, made⟩ := bind_eq_ok_iff.1 reads
  cases made
  have all := sizeOfRecords_eq_remaining (headerSize_le_length header) readsRecords
  rw [remaining] at all
  dsimp only at all ⊢
  omega

/-- Decoding stops where the size of a header is not below zero and every record takes some bytes.
    Each round moves the cursor forward, so there are at most as many of them as the file has bytes,
    however many are allowed; and the answer is what the file holds, or a fault that tells its
    place. -/
theorem decode_stops (starts : 0 ≤ l.headerSize) (advances : l.Advances) (data : List UInt8) :
    (∀ order first (c rest : Cursor) r, c.IsInside →
        readRecord l order first c = .ok (r, rest) →
          rest.data = c.data ∧ c.offset < rest.offset ∧ rest.IsInside) ∧
      (∀ order (fuel : Nat), l.headerSize ≤ data.length → data.length < fuel →
        readRecords l order fuel none ⟨data, l.headerSize⟩ =
          readRecords l order (data.length + 1) none ⟨data, l.headerSize⟩) ∧
      ((∃ r, decode l data = .ok r ∧ r.records.length ≤ data.length) ∨
        ∃ fault, decode l data = .error fault ∧
          (fault.IsMalformed 0 ∨ fault.IsTruncated 0 data.length)) := by
  have left : (⟨data, l.headerSize⟩ : Cursor).remaining ≤ data.length := by
    simp only [remaining]
    omega
  have stops (order : ByteOrder) {fuel : Nat} (long : l.headerSize ≤ data.length)
      (enough : data.length < fuel) :=
    readRecords_stops advances order none ⟨starts, long⟩
      (Int.lt_of_le_of_lt left (Int.ofNat_lt.2 enough))
      (Int.lt_of_le_of_lt left (Int.ofNat_lt.2 (Nat.lt_succ_self data.length)))
  refine ⟨fun order first c rest r inside reads => advances_readRecord advances inside reads,
    fun order fuel long enough => (stops order long enough).1, ?_⟩
  cases header : readHeader l data with
  | error fault =>
      exact .inr ⟨fault, by rw [decode, header]; rfl, isLocated_readHeader header⟩
  | ok found =>
      obtain ⟨order, version⟩ := found
      have long := headerSize_le_length header
      have enough : data.length < 2 * data.length + 2 := by omega
      rcases (stops order long enough).2 with ⟨records, reads⟩ | ⟨fault, fails, located⟩
      · have made : decode l data = .ok { layout := l, version, byteOrder := order, records } := by
          rw [decode, header]
          simp only [bind, Except.bind, reads]
          rfl
        have all := decode_takes_all_bytes made
        have few := length_le_sizeOfRecords advances records
        exact .inl ⟨_, made, by dsimp only at all ⊢; omega⟩
      · exact .inr ⟨fault, by rw [decode, header]; simp only [bind, Except.bind, fails], located⟩

/-- A layout whose histograms take one byte when they are empty, as their unit gives back all others
    but one. -/
def creepingLayout : Layout :=
  { Layout.wide with dimensionWidth := -25 }

theorem decode_stops_creeping :
    0 ≤ creepingLayout.headerSize ∧ creepingLayout.Advances ∧
      ((∃ r, decode creepingLayout (wideHeader ++ List.replicate 25 0) = .ok r ∧
          r.records.length ≤ (wideHeader ++ List.replicate 25 0).length) ∨
        ∃ fault, decode creepingLayout (wideHeader ++ List.replicate 25 0) = .error fault ∧
          (fault.IsMalformed 0 ∨
            fault.IsTruncated 0 (wideHeader ++ List.replicate 25 0).length)) :=
  ⟨by decide, by decide, (decode_stops (by decide) (by decide) _).2.2⟩

/-! ## Files without end -/

theorem readRecords_endless {r : Record} (more : 0 < c.remaining)
    (reads : readRecord l order first c = .ok (r, c)) (known : firstAfter first r = first)
    (fuel : Nat) : readRecords l order fuel first c = .error .endless := by
  induction fuel with
  | zero => rfl
  | succ fuel ih =>
      rw [readRecords, if_neg (by omega), reads]
      simp only [bind, Except.bind, known, ih]

/-- A layout whose histograms take no byte when they are empty. -/
def standingLayout : Layout :=
  { Layout.wide with dimensionWidth := -26 }

/-- A file that ends behind an empty histogram. -/
def emptyHistogramFile : List UInt8 :=
  wideHeader ++ List.replicate 26 0

/-- The histogram of the file, for any unit of no bytes. -/
def emptySection : Section where
  histogram :=
    { low := 0, high := 0, bucketCount := 0, sampleRate := 0, dimension := "", abbreviation := "" }
  buckets := []
  offset := 21

/-- A layout whose unit leads back to bytes that were passed. -/
def backwardLayout : Layout :=
  { Layout.wide with
    spareWidth := 40, addressWidth := .one, bucketCountWidth := .one, rateWidth := .one,
    dimensionWidth := -20, counterWidth := .one }

/-- A file with one histogram, and bytes before it that look like another. -/
def backwardFile : List UInt8 :=
  [0x67, 0x6D, 0x6F, 0x6E, 1, 0, 0, 0] ++ List.replicate 26 0 ++ [0, 0, 0, 33, 100] ++
    List.replicate 9 0 ++ [0, 0, 0, 0, 100]

/-- Both layouts can be chosen. With one, the cursor stands still and reading has no end; with the
    other, it goes back, and counters are read out of bytes that were passed. -/
theorem decode_standing_and_backward :
    (Layout.select (.text "gnu-v1") [("dimension_width", .int (-26))] = .ok standingLayout ∧
      readRecord standingLayout .little none ⟨emptyHistogramFile, 20⟩ =
        .ok (.histogram emptySection, ⟨emptyHistogramFile, 20⟩) ∧
      (∀ fuel, readRecords standingLayout .little fuel none ⟨emptyHistogramFile, 20⟩ =
        .error .endless) ∧
      decode standingLayout emptyHistogramFile = .error .endless) ∧
    Layout.select (.text "gnu-v1")
        [("spare_width", .int 40), ("address_width", .int 1), ("hist_size_width", .int 1),
          ("hist_rate_width", .int 1), ("dimension_width", .int (-20)),
          ("counter_width", .int 1)] = .ok backwardLayout ∧
      ∃ r, decode backwardLayout backwardFile = .ok r ∧
        r.sections.map (fun s => (s.offset, s.total)) = [(49, 0), (35, 233)] := by
  have reads : readRecord standingLayout .little none ⟨emptyHistogramFile, 20⟩ =
      .ok (.histogram emptySection, ⟨emptyHistogramFile, 20⟩) := rfl
  have again : readRecord standingLayout .little (some emptySection.histogram)
      ⟨emptyHistogramFile, 20⟩ = .ok (.histogram emptySection, ⟨emptyHistogramFile, 20⟩) := rfl
  have endless : ∀ fuel, readRecords standingLayout .little fuel none ⟨emptyHistogramFile, 20⟩ =
      .error .endless := by
    intro fuel
    cases fuel with
    | zero => rfl
    | succ fuel =>
        rw [readRecords, if_neg (by decide), reads]
        simp only [bind, Except.bind, firstAfter, readRecords_endless (by decide) again rfl]
  have header : readHeader standingLayout emptyHistogramFile = .ok (.little, 1) := rfl
  have start : standingLayout.headerSize = 20 := rfl
  refine ⟨⟨rfl, reads, endless, ?_⟩, rfl, ⟨_, rfl, rfl⟩⟩
  rw [decode, header]
  simp only [bind, Except.bind, start, endless]

/-- Behind the start of the file there are no bytes for a tag. -/
example : decode { Layout.wide with dimensionWidth := -100 } emptyHistogramFile =
    .error .unevenRecord :=
  rfl

end CallProfile
