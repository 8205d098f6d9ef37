import CallProfile.Proofs.Streams

/-! # The grammar of files

The files that can be decoded are those that can be written: a header, then any records, each of
them a tag and its fields. What is decoded is what has been written.
-/

namespace CallProfile

open scoped Whole

variable {l : Layout} {t : Tags} {order : ByteOrder} {first : Option Histogram}
  {before rest : List UInt8} {rs : List Record}

namespace Written

theorem hasTag_iff (regular : l.IsRegular t) {n : Nat} {w : Written} :
    w.HasTag l n ↔ n = w.tag t := by
  have histogram := regular.histogram_iff n
  have arc := regular.arc_iff n
  have blocks := regular.blocks_iff n
  rw [Int.natCast_inj] at histogram arc blocks
  cases w with
  | histogram h => exact histogram
  | arc source target count =>
      rw [HasTag, tag, ← Bool.not_eq_true, histogram, arc]
      refine ⟨And.right, fun same => ⟨?_, same⟩⟩
      rw [same]
      exact regular.histogram_ne_arc.symm
  | blocks counts =>
      rw [HasTag, tag, ← Bool.not_eq_true, ← Bool.not_eq_true, histogram, arc, blocks]
      refine ⟨fun tags => tags.2.2, fun same => ⟨?_, ?_, same⟩⟩
      · rw [same]
        exact regular.histogram_ne_blocks.symm
      · rw [same]
        exact regular.arc_ne_blocks.symm

theorem holds_tag (regular : l.IsRegular t) (w : Written) : l.tagWidth.Holds (w.tag t) := by
  cases w with
  | histogram h => exact regular.holds_histogram
  | arc source target count => exact regular.holds_arc
  | blocks counts => exact regular.holds_blocks

theorem length_body {w : Written} (fits : w.Fits l) (order : ByteOrder) :
    ((w.body l order).length : Int) = w.size l := by
  cases w with
  | histogram h =>
      have dimension := fits.dimension
      simp only [body, WrittenHistogram.bytes, List.length_append, length_fixedBytes,
        length_bytesOfAll, List.length_singleton, size, Layout.histogramHeaderSize]
      push_cast
      omega
  | arc source target count =>
      simp only [body, List.length_append, length_bytesOf, size, Layout.arcSize]
      omega
  | blocks counts =>
      simp only [body, List.length_append, length_bytesOf, length_bytesOfAll, length_pairs, size,
        Layout.blockSize]
      push_cast
      rw [Int.mul_left_comm, Int.mul_comm (counts.length : Int), Int.mul_assoc]

/-! ## Units -/

/-- Whether all histograms of a stream count in the unit of the first one, which may stand before
    them. -/
def Agree (first : Option Histogram) (ws : List Written) : Prop :=
  ∀ f ∈ first.or ((histograms ws).head?.map fun h => (h.toSection 0).histogram),
    ∀ h ∈ histograms ws, h.rate = f.sampleRate ∧ paddedText h.dimension = f.dimension

theorem agree_none {ws : List Written} : Agree none ws ↔ SameUnits ws := by
  simp [Agree, SameUnits, WrittenHistogram.SameUnit, WrittenHistogram.toSection]

theorem agree_cons {w : Written} {ws : List Written} (offset : Int) :
    Agree first (w :: ws) ↔ w.Follows first ∧ Agree (firstAfter first (w.toRecord offset)) ws := by
  cases w with
  | histogram h =>
      cases first with
      | none => simp [Agree, Follows, histograms, firstAfter, toRecord, WrittenHistogram.toSection]
      | some f => simp [Agree, Follows, histograms, firstAfter]
  | arc source target count =>
      cases first <;> simp [Agree, Follows, histograms, firstAfter, toRecord]
  | blocks counts => cases first <;> simp [Agree, Follows, histograms, firstAfter, toRecord]

end Written

/-! ## Streams -/

theorem readAll_bytes (regular : l.IsRegular t) {ws : List Written} (fits : ∀ w ∈ ws, w.Fits l)
    (agree : Written.Agree first ws) :
    readAll l order first before (ws.flatMap (·.bytes l t order)) =
      .ok (Written.toRecords l before.length ws) := by
  induction ws generalizing first before with
  | nil => exact readAll_nil
  | cons w ws ih =>
      have fit := fits w List.mem_cons_self
      -- the place of the next record, which the layout tells without reading
      have offset : ((before ++ w.bytes l t order).length : Int) =
          before.length + l.tagWidth.bytes + w.size l := by
        rw [← Written.length_body fit order, Written.bytes]
        simp only [List.length_append, length_bytesOf]
        omega
      obtain ⟨follows, agree⟩ := (Written.agree_cons (before.length + l.tagWidth.bytes)).1 agree
      have reads := @readRecord_after l order before first _ w (Written.holds_tag regular w)
        ((Written.hasTag_iff regular).2 rfl) fit follows (ws.flatMap (·.bytes l t order))
      rw [← Written.bytes] at reads
      have some : 0 < (w.bytes l t order).length := by
        have pos := l.tagWidth.bytes_pos
        simp only [Written.bytes, List.length_append, length_bytesOf]
        omega
      rw [List.flatMap_cons, readAll_cons regular.dimension reads some,
        ih (fun v member => fits v (List.mem_cons_of_mem w member)) agree]
      rw [offset]
      rfl

theorem exists_written (regular : l.IsRegular t)
    (reads : readAll l order first before rest = .ok rs) :
    ∃ ws : List Written, (∀ w ∈ ws, w.Fits l) ∧ Written.Agree first ws ∧
      rest = ws.flatMap (·.bytes l t order) := by
  induction first, before, rest using stream_induction regular.dimension order generalizing rs with
  | nil first before => exact ⟨[], by simp, by simp [Written.Agree, Written.histograms], rfl⟩
  | cons first before r bytes rest holds again ih =>
      rw [again] at reads
      obtain ⟨rs, tail, -⟩ := map_eq_ok_iff.1 reads
      obtain ⟨ws, fits, agree, rfl⟩ := ih tail
      obtain ⟨tag, w, -, named, fit, follows, rfl, rfl⟩ := holds
      rw [Written.hasTag_iff regular] at named
      subst named
      exact ⟨w :: ws, by simpa [fit] using fits, (Written.agree_cons _).2 ⟨follows, agree⟩, rfl⟩
  | malformed first before rest fault kind stays =>
      exact absurd (error_of_stays stays) (ne_error_of_ok reads)
  | truncated first before rest fault kind fails => exact absurd fails (ne_error_of_ok reads)

/-! ## Files -/

/-- A file that is written is decoded to what it holds. -/
theorem decode_written (regular : l.IsRegular t) {f : WrittenFile} (fits : f.Fits l) :
    decode l (f.bytes l t) = .ok (f.toRecording l) := by
  rw [WrittenFile.bytes, decode_bytes regular.dimension fits.header,
    readAll_bytes regular fits.stream (Written.agree_none.2 fits.units), fits.header.length]
  rfl

/-- A file is decoded exactly when it is written so. -/
theorem decode_eq_ok_iff (regular : l.IsRegular t) {data : List UInt8} {r : Recording} :
    decode l data = .ok r ↔
      ∃ f : WrittenFile, f.Fits l ∧ data = f.bytes l t ∧ r = f.toRecording l := by
  constructor
  · intro reads
    obtain ⟨h, rest, rs, fits, rfl, stream, -⟩ :=
      stream_of_decode regular.spare regular.dimension reads
    obtain ⟨ws, fit, agree, rfl⟩ := exists_written regular stream
    have written : WrittenFile.Fits l ⟨h, ws⟩ := ⟨fits, fit, Written.agree_none.1 agree⟩
    -- the other direction tells what was decoded, with the places of the records
    have same := decode_written regular written
    rw [WrittenFile.bytes, reads] at same
    exact ⟨⟨h, ws⟩, written, rfl, Except.ok.inj same⟩
  · rintro ⟨f, fits, rfl, rfl⟩
    exact decode_written regular fits

theorem paddedText_asciiBytes {text : String} (ascii : IsAscii text) (padding : Nat) :
    paddedText (asciiBytes text ++ List.replicate padding 0) = text := by
  have value : ∀ c ∈ text.toList, (UInt8.ofNat c.toNat).toNat = c.toNat := fun c member => by
    have small := (ascii c member).2
    simp only [UInt8.toNat_ofNat']
    omega
  have kept : (asciiBytes text ++ List.replicate padding 0).takeWhile (· != 0) =
      asciiBytes text := by
    have some : ∀ b ∈ asciiBytes text, (b != 0) = true := fun b member => by
      obtain ⟨c, isChar, rfl⟩ := List.mem_map.1 member
      have pos := (ascii c isChar).1
      rw [bne_iff_ne, ne_eq, ← UInt8.toNat_inj, value c isChar]
      exact Nat.ne_of_gt pos
    rw [List.takeWhile_append_of_pos some]
    cases padding <;> simp [List.replicate_succ]
  have chars : (asciiBytes text).map (fun b =>
      if b < 0x80 then Char.ofNat b.toNat else '\uFFFD') = text.toList := by
    rw [asciiBytes, List.map_map]
    refine (List.map_congr_left fun c member => ?_).trans (List.map_id _)
    have small : UInt8.ofNat c.toNat < 0x80 := by
      rw [UInt8.lt_iff_toNat_lt, value c member]
      exact (ascii c member).2
    rw [Function.comp_apply, if_pos small, value c member, Char.ofNat_toNat, id]
  rw [paddedText, kept, chars, String.ofList_toList]

/-- The files that can be decoded are those that can be written, and what is decoded is what has
    been written. The records take as many bytes as the layout says, and their texts come back. -/
theorem decode_accepts_written (regular : l.IsRegular t) :
    (∀ data r, decode l data = .ok r ↔
      ∃ f : WrittenFile, f.Fits l ∧ data = f.bytes l t ∧ r = f.toRecording l) ∧
    (∀ w : Written, w.Fits l → ∀ order, ((w.body l order).length : Int) = w.size l) ∧
    (∀ text padding, IsAscii text →
      paddedText (asciiBytes text ++ List.replicate padding 0) = text) :=
  ⟨fun _ _ => decode_eq_ok_iff regular, fun _ fits order => Written.length_body fits order,
    fun _ padding ascii => paddedText_asciiBytes ascii padding⟩

theorem wide_isRegular : Layout.wide.IsRegular { histogram := 0, arc := 1, blocks := 2 } where
  spare := by decide
  dimension := by decide
  histogram_iff n := by simp [Layout.wide, Datum.equalsInt, eq_comm]
  arc_iff n := by simp [Layout.wide, Datum.equalsInt, eq_comm]
  blocks_iff n := by simp [Layout.wide, Datum.equalsInt, eq_comm]
  holds_histogram := by decide
  holds_arc := by decide
  holds_blocks := by decide
  histogram_ne_arc := by decide
  histogram_ne_blocks := by decide
  arc_ne_blocks := by decide

/-- A file with records of every kind, the highest bytes first. -/
def mixedFile : WrittenFile where
  header := { order := .big, version := 1, spare := List.replicate 12 0 }
  stream :=
    [.arc 0x1000 0x2000 3,
      .histogram
        { low := 0x1000, high := 0x3000, rate := 100
          dimension := asciiBytes "seconds" ++ List.replicate 8 0, abbreviation := 115
          counters := [5, 0, 258] },
      .blocks [{ address := 0x1000, count := 7 }],
      .histogram
        { low := 0x4000, high := 0x4000, rate := 100
          dimension := asciiBytes "seconds" ++ List.replicate 8 0, abbreviation := 115
          counters := [] }]

theorem mixedFile_fits : mixedFile.Fits .wide where
  header :=
    { order := .inr ⟨rfl, by decide⟩
      version := rfl
      holds := by decide
      spare := rfl }
  stream := by decide
  units := by
    simp [Written.SameUnits, Written.histograms, mixedFile, WrittenHistogram.SameUnit]

/-- A file that is written is accepted, and comes back. -/
theorem decode_accepts_mixedFile :
    Layout.wide.IsRegular { histogram := 0, arc := 1, blocks := 2 } ∧ mixedFile.Fits .wide ∧
      decode .wide (mixedFile.bytes .wide { histogram := 0, arc := 1, blocks := 2 }) =
        .ok (mixedFile.toRecording .wide) :=
  ⟨wide_isRegular, mixedFile_fits,
    ((decode_accepts_written wide_isRegular).1 _ _).2 ⟨mixedFile, mixedFile_fits, rfl, rfl⟩⟩

end CallProfile
