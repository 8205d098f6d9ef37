import CallProfile.Proofs.Grammar
import CallProfile.Proofs.Merging

/-! # Files in pieces

The records of a file can be divided among several files with its header. What the pieces say
together is what the file says: where a record stands is not part of it, and records that follow
each other add up.
-/

namespace CallProfile

open scoped Whole

open Cursor

variable {l : Layout} {order : ByteOrder} {first : Option Histogram}
  {before data : List UInt8} {rs : List Record} {table : SymbolTable} {source : String}

/-! ## Records and their bytes -/

/-- Whether bytes are a record that fits, under a tag of its kind. -/
def Written.Writes (l : Layout) (order : ByteOrder) (w : Written) (bytes : List UInt8) : Prop :=
  ∃ tag, l.tagWidth.Holds tag ∧ w.HasTag l tag ∧ w.Fits l ∧
    bytes = bytesOf order l.tagWidth tag ++ w.body l order

/-- A division of a file into its header and its records. -/
structure Divides (l : Layout) (order : ByteOrder) (header : List UInt8)
    (records : List (List UInt8)) (data : List UInt8) : Prop where
  length : (header.length : Int) = l.headerSize
  writes : ∀ bytes ∈ records, ∃ w : Written, w.Writes l order bytes
  split : data = header ++ records.flatten

namespace Written

variable {w : Written} {ws : List Written} {bytes rest : List UInt8} {records : List (List UInt8)}

theorem Writes.length (writes : w.Writes l order bytes) :
    (bytes.length : Int) = l.tagWidth.bytes + w.size l := by
  obtain ⟨tag, -, -, fits, rfl⟩ := writes
  rw [List.length_append, length_bytesOf, ← length_body fits order]
  omega

theorem Writes.length_pos (writes : w.Writes l order bytes) : 0 < bytes.length := by
  obtain ⟨tag, -, -, -, rfl⟩ := writes
  have pos := l.tagWidth.bytes_pos
  rw [List.length_append, length_bytesOf]
  omega

theorem Writes.readAll (dimension : 0 ≤ l.dimensionWidth) (writes : w.Writes l order bytes)
    (follows : w.Follows first) (before rest : List UInt8) :
    CallProfile.readAll l order first before (bytes ++ rest) =
      (CallProfile.readAll l order
        (firstAfter first (w.toRecord (before.length + l.tagWidth.bytes)))
        (before ++ bytes) rest).map (w.toRecord (before.length + l.tagWidth.bytes) :: ·) := by
  have some := writes.length_pos
  obtain ⟨tag, holds, named, fits, rfl⟩ := writes
  exact readAll_cons dimension (readRecord_after holds named fits follows rest) some

/-- A histogram is read before it is found to have another unit. -/
theorem exists_fault_of_differs {tag : Nat} (holds : l.tagWidth.Holds tag) (named : w.HasTag l tag)
    (fits : w.Fits l) (differs : ¬w.Follows first) (before rest : List UInt8) :
    ∃ fault, readRecord l order first
      (after before (bytesOf order l.tagWidth tag ++ w.body l order ++ rest)) = .error fault := by
  cases w with
  | arc source target count => exact absurd trivial differs
  | blocks counts => exact absurd trivial differs
  | histogram h =>
      have histogram : l.histogramTag.equalsInt tag = true := named
      rw [List.append_assoc, readRecord_tag holds, readTagged, if_pos histogram, body,
        readSection_after fits]
      rw [← checkCompatible_eq_ok_iff first h
        (before ++ bytesOf order l.tagWidth tag).length] at differs
      cases rejected : checkCompatible first
          (h.toSection (before ++ bytesOf order l.tagWidth tag).length) with
      | ok _ => exact absurd rejected differs
      | error fault =>
          refine ⟨fault, ?_⟩
          simp only [bind, Except.bind, rejected]

theorem Writes.follows (writes : w.Writes l order bytes)
    (reads : CallProfile.readAll l order first before (bytes ++ rest) = .ok rs) :
    w.Follows first := by
  by_contra differs
  have filled : bytes ++ rest ≠ [] := by
    have some := writes.length_pos
    rw [← List.length_pos_iff, List.length_append]
    omega
  obtain ⟨tag, holds, named, fits, rfl⟩ := writes
  obtain ⟨fault, fails⟩ := exists_fault_of_differs holds named fits differs before rest
  exact absurd (readAll_error fails filled) (ne_error_of_ok reads)

theorem readAll_of_writes (dimension : 0 ≤ l.dimensionWidth)
    (writes : List.Forall₂ (Writes l order) ws records) (agree : Agree first ws) :
    CallProfile.readAll l order first before records.flatten =
      .ok (toRecords l before.length ws) := by
  induction writes generalizing first before with
  | nil => exact readAll_nil
  | @cons w bytes ws records writes _ ih =>
      obtain ⟨follows, agree⟩ := (agree_cons (before.length + l.tagWidth.bytes)).1 agree
      have place : ((before ++ bytes).length : Int) =
          before.length + l.tagWidth.bytes + w.size l := by
        have length := writes.length
        rw [List.length_append]
        omega
      rw [List.flatten_cons, writes.readAll dimension follows, ih agree, place]
      rfl

theorem agree_of_readAll (dimension : 0 ≤ l.dimensionWidth)
    (writes : List.Forall₂ (Writes l order) ws records)
    (reads : CallProfile.readAll l order first before records.flatten = .ok rs) :
    Agree first ws := by
  induction writes generalizing first before rs with
  | nil => simp [Agree, histograms]
  | @cons w bytes ws records writes _ ih =>
      rw [List.flatten_cons] at reads
      have follows := writes.follows reads
      rw [writes.readAll dimension follows] at reads
      obtain ⟨rs, tail, -⟩ := map_eq_ok_iff.1 reads
      exact (agree_cons _).2 ⟨follows, ih tail⟩

theorem exists_writes (dimension : 0 ≤ l.dimensionWidth)
    (reads : CallProfile.readAll l order first before rest = .ok rs) :
    ∃ ws records, List.Forall₂ (Writes l order) ws records ∧ rest = records.flatten := by
  induction first, before, rest using stream_induction dimension order generalizing rs with
  | nil first before =>
      rw [readAll_nil] at reads
      cases reads
      exact ⟨[], [], .nil, rfl⟩
  | cons first before r bytes rest holds again ih =>
      rw [again] at reads
      obtain ⟨rs, tail, rfl⟩ := map_eq_ok_iff.1 reads
      obtain ⟨ws, records, writes, rfl⟩ := ih tail
      obtain ⟨tag, w, holds, named, fits, -, split, -⟩ := holds
      exact ⟨w :: ws, bytes :: records, .cons ⟨tag, holds, named, fits, split⟩ writes, rfl⟩
  | malformed first before rest fault kind stays =>
      exact absurd (error_of_stays stays) (ne_error_of_ok reads)
  | truncated first before rest fault kind fails => exact absurd fails (ne_error_of_ok reads)

theorem exists_writes_iff {records : List (List UInt8)} :
    (∃ ws, List.Forall₂ (Writes l order) ws records) ↔
      ∀ bytes ∈ records, ∃ w : Written, w.Writes l order bytes := by
  induction records with
  | nil => exact iff_of_true ⟨[], .nil⟩ nofun
  | cons bytes records ih =>
      rw [List.forall_mem_cons, ← ih]
      constructor
      · rintro ⟨ws, writes⟩
        cases writes with
        | cons first rest => exact ⟨⟨_, first⟩, ⟨_, rest⟩⟩
      · rintro ⟨⟨w, first⟩, ⟨ws, rest⟩⟩
        exact ⟨w :: ws, .cons first rest⟩

end Written

/-! ## What records say -/

/-- A record without its place. -/
def Record.unplaced : Record → Record
  | .histogram s => .histogram { s with offset := 0 }
  | .arc a => .arc { a with offset := 0 }
  | .blocks counts => .blocks counts

theorem Written.length_toRecords (start : Int) (ws : List Written) :
    (toRecords l start ws).length = ws.length := by
  induction ws generalizing start with
  | nil => rfl
  | cons w ws ih => exact congrArg (· + 1) (ih _)

theorem Written.unplaced_toRecords (start : Int) (ws : List Written) :
    (toRecords l start ws).map Record.unplaced = ws.map (toRecord 0) := by
  induction ws generalizing start with
  | nil => rfl
  | cons w ws ih =>
      rw [toRecords, List.map_cons, List.map_cons, ih]
      cases w <;> rfl

namespace Record

/-- The histogram of a record, if it is one. -/
def sections : Record → List Section
  | .histogram s => [s]
  | _ => []

/-- The arc of a record, if it is one. -/
def arcs : Record → List RawArc
  | .arc a => [a]
  | _ => []

/-- The block counts of a record. -/
def counts : Record → List BlockCount
  | .blocks counts => counts
  | _ => []

/-- The samples at symbols, as `weight` counts them. -/
def found (table : SymbolTable) (weight : Reading → Nat) (r : Record) : List (Symbol × Nat) :=
  (Attribution.found (Attribution.locate r.sections table)).map fun l => (l.2, weight l.1)

/-- The readings without a symbol. -/
def lost (table : SymbolTable) (r : Record) : List Reading :=
  Attribution.lost (Attribution.locate r.sections table)

/-- The arcs with the symbols at their ends. -/
def located (table : SymbolTable) (r : Record) : List LocatedArc :=
  r.arcs.map fun raw =>
    { raw, caller := table.resolve raw.source, callee := table.resolve raw.target }

/-- What does not tell where a record stands is the same for records in the same order. -/
theorem flatMap_append_of_unplaced {β : Type} {rs front back : List Record} {f : Record → List β}
    (blind : ∀ r, f r.unplaced = f r) (split : rs.map unplaced =
      front.map unplaced ++ back.map unplaced) :
    rs.flatMap f = front.flatMap f ++ back.flatMap f := by
  have same (rs : List Record) : (rs.map unplaced).flatMap f = rs.flatMap f := by
    rw [List.flatMap_map, funext blind]
  rw [← same rs, split, List.flatMap_append, same, same]

end Record

namespace Profile

variable {r front back : Recording}

theorem sections_eq (r : Recording) : r.sections = r.records.flatMap Record.sections := by
  rw [Recording.sections, List.filterMap_eq_flatMap_toList]
  congr 1
  funext r
  cases r <;> rfl

theorem arcs_eq (r : Recording) : r.arcs = r.records.flatMap Record.arcs := by
  rw [Recording.arcs, List.filterMap_eq_flatMap_toList]
  congr 1
  funext r
  cases r <;> rfl

theorem found_flatMap (weight : Reading → Nat) (r : Recording) :
    (Attribution.found (Attribution.locate r.sections table)).map (fun l => (l.2, weight l.1)) =
      r.records.flatMap (Record.found table weight) := by
  simp only [sections_eq, Attribution.locate, Attribution.found, List.flatMap_assoc,
    List.map_flatMap, List.filterMap_flatMap]
  congr 1
  funext r
  simp only [Record.found, Attribution.locate, Attribution.found, List.map_flatMap,
    List.filterMap_flatMap]

theorem lost_flatMap (r : Recording) :
    Attribution.lost (Attribution.locate r.sections table) =
      r.records.flatMap (Record.lost table) := by
  simp only [sections_eq, Attribution.locate, Attribution.lost, List.flatMap_assoc,
    List.map_flatMap, List.filter_flatMap]
  congr 1
  funext r
  simp only [Record.lost, Attribution.locate, Attribution.lost, List.map_flatMap,
    List.filter_flatMap]

theorem located_flatMap (r : Recording) :
    (r.arcs.map fun raw =>
      { raw, caller := table.resolve raw.source, callee := table.resolve raw.target :
        LocatedArc }) = r.records.flatMap (Record.located table) := by
  rw [arcs_eq, List.map_flatMap]
  rfl

/-- What is counted of a recording, record by record. -/
theorem ofRecording_eq (table : SymbolTable) (source : String) (r : Recording) :
    ofRecording table source r =
      { samples := Tally.ofList (r.records.flatMap (Record.found table (·.bucket.samples)))
        buckets := Tally.ofList (r.records.flatMap (Record.found table fun _ => 1))
        arcs := Arc.merge ((r.records.flatMap (Record.located table)).filterMap (·.arc?))
        unattributed := ((r.records.flatMap (Record.lost table)).map (·.bucket.samples)).sum
        sampleRate := r.sampleRate
        diagnostics := (r.records.flatMap (Record.lost table)).map (·.diagnostic) ++
          (r.records.flatMap (Record.located table)).flatMap (·.diagnostics)
        sources := [source]
        blocks := (r.records.flatMap Record.counts).length } := by
  rw [← found_flatMap, ← found_flatMap, ← lost_flatMap, ← located_flatMap]
  apply ext
  · rfl
  · rfl
  · rfl
  · rfl
  · exact Batch.sampleRate_ofRecording table source r
  · rfl
  · rfl
  · rfl

/-- Whether two profiles have the same counts, but for their names and the order of their
    diagnostics. -/
structure SameCounts (p q : Profile) : Prop where
  samples : p.samples = q.samples
  buckets : p.buckets = q.buckets
  arcs : p.arcs = q.arcs
  unattributed : p.unattributed = q.unattributed
  sampleRate : p.sampleRate = q.sampleRate
  diagnostics : p.diagnostics.Perm q.diagnostics
  blocks : p.blocks = q.blocks

/-- Records that follow each other add up, wherever they stand, when they have one rate. -/
theorem sameCounts_append (name name' : String) (split : r.records.map Record.unplaced =
      front.records.map Record.unplaced ++ back.records.map Record.unplaced)
    (rate : r.sampleRate = if front.sampleRate = 0 then back.sampleRate else front.sampleRate) :
    (ofRecording table source r).SameCounts
      ((ofRecording table name front).plus (ofRecording table name' back)) := by
  have found (weight : Reading → Nat) := Record.flatMap_append_of_unplaced
    (f := Record.found table weight) (fun r => by cases r <;> rfl) split
  have lost := Record.flatMap_append_of_unplaced
    (f := Record.lost table) (fun r => by cases r <;> rfl) split
  -- an arc that is located still has its place, which neither its calls nor its diagnostics show
  have arcs := Record.flatMap_append_of_unplaced
    (f := fun r => (Record.located table r).filterMap (·.arc?)) (fun r => by cases r <;> rfl) split
  have unknown := Record.flatMap_append_of_unplaced
    (f := fun r => (Record.located table r).flatMap (·.diagnostics))
    (fun r => by cases r <;> rfl) split
  have blocks := Record.flatMap_append_of_unplaced
    (f := Record.counts) (fun r => by cases r <;> rfl) split
  rw [ofRecording_eq table source r, ofRecording_eq table name front,
    ofRecording_eq table name' back]
  refine ⟨?_, ?_, ?_, ?_, rate, ?_, ?_⟩
  · simp only [plus, sumAt, found, Tally.ofList_append]
  · simp only [plus, sumAt, found, Tally.ofList_append]
  · simp only [plus, sumAt, Arc.merge, List.filterMap_flatMap, arcs, List.map_append,
      Tally.ofList_append]
  · simp only [plus, sumAt, lost, List.map_append, List.sum_append]
  · simp only [plus, sumAt, lost, List.flatMap_assoc, unknown, List.map_append]
    simp only [List.append_assoc]
    exact (List.perm_append_comm_assoc _ _ _).append_left _
  · simp only [plus, sumAt, blocks, List.length_append]

namespace SameCounts

variable {p q p' q' : Profile}

theorem refl (p : Profile) : p.SameCounts p :=
  ⟨rfl, rfl, rfl, rfl, rfl, .refl _, rfl⟩

theorem trans (first : p.SameCounts q) (second : q.SameCounts q') : p.SameCounts q' where
  samples := first.samples.trans second.samples
  buckets := first.buckets.trans second.buckets
  arcs := first.arcs.trans second.arcs
  unattributed := first.unattributed.trans second.unattributed
  sampleRate := first.sampleRate.trans second.sampleRate
  diagnostics := first.diagnostics.trans second.diagnostics
  blocks := first.blocks.trans second.blocks

theorem plus (first : p.SameCounts p') (second : q.SameCounts q') :
    (p.plus q).SameCounts (p'.plus q') where
  samples := congrArg₂ Tally.merge first.samples second.samples
  buckets := congrArg₂ Tally.merge first.buckets second.buckets
  arcs := congrArg₂ Tally.merge first.arcs second.arcs
  unattributed := congrArg₂ Nat.add first.unattributed second.unattributed
  sampleRate := by
    simp only [Profile.plus, sumAt, first.sampleRate, second.sampleRate]
  diagnostics := first.diagnostics.append second.diagnostics
  blocks := congrArg₂ Nat.add first.blocks second.blocks

end SameCounts

end Profile

/-! ## Units -/

namespace Written

variable {ws ws' : List Written}

/-- Whether any two histograms of a stream count in one unit. -/
def OneUnit (ws : List Written) : Prop :=
  ∀ g ∈ histograms ws, ∀ h ∈ histograms ws, g.SameUnit h

theorem histograms_append (ws ws' : List Written) :
    histograms (ws ++ ws') = histograms ws ++ histograms ws' :=
  List.filterMap_append

theorem sameUnits_iff : SameUnits ws ↔ OneUnit ws := by
  constructor
  · intro units g left h right
    cases found : (histograms ws).head? with
    | none =>
        rw [List.head?_eq_none_iff] at found
        rw [found] at left
        cases left
    | some first =>
        obtain ⟨rate, dimension⟩ := units first found g left
        obtain ⟨rate', dimension'⟩ := units first found h right
        exact ⟨rate'.trans rate.symm, dimension'.trans dimension.symm⟩
  · intro units first found h member
    exact units first (List.mem_of_head? found) h member

theorem OneUnit.left (units : OneUnit (ws ++ ws')) : OneUnit ws := by
  intro g first h second
  rw [OneUnit, histograms_append] at units
  exact units g (List.mem_append_left _ first) h (List.mem_append_left _ second)

theorem OneUnit.right (units : OneUnit (ws ++ ws')) : OneUnit ws' := by
  intro g first h second
  rw [OneUnit, histograms_append] at units
  exact units g (List.mem_append_right _ first) h (List.mem_append_right _ second)

/-- The rate of the first histogram. -/
def rate (ws : List Written) : Nat :=
  ((histograms ws).head?.map (·.rate)).getD 0

theorem rate_eq_zero_or_exists (ws : List Written) :
    rate ws = 0 ∨ ∃ h ∈ histograms ws, h.rate = rate ws := by
  rw [rate]
  cases found : (histograms ws).head? with
  | none => exact .inl rfl
  | some h => exact .inr ⟨h, List.mem_of_head? found, rfl⟩

theorem OneUnit.rate_append (units : OneUnit (ws ++ ws')) :
    rate (ws ++ ws') = if rate ws = 0 then rate ws' else rate ws := by
  have units := units
  rw [OneUnit, histograms_append] at units
  rw [rate, histograms_append]
  cases found : histograms ws with
  | nil => simp [rate, found]
  | cons h hs =>
      have first : rate ws = h.rate := by rw [rate, found]; rfl
      rw [first]
      by_cases none : h.rate = 0
      · -- a first rate of zero is the rate of all
        rw [if_pos none]
        rcases rate_eq_zero_or_exists ws' with zero | ⟨g, member, same⟩
        · rw [zero]
          exact none
        · rw [← same]
          exact (units h (by simp [found]) g (List.mem_append_right _ member)).1.symm
      · rw [if_neg none]
        rfl

theorem sampleRate_toRecords {r : Recording} {start : Int}
    (records : r.records = toRecords l start ws) : r.sampleRate = rate ws := by
  have heads : (r.sections.head?.map fun s => s.histogram.sampleRate) =
      (histograms ws).head?.map (·.rate) := by
    rw [Recording.sections, records]
    clear records
    induction ws generalizing start with
    | nil => rfl
    | cons w ws ih =>
        cases w with
        | histogram h => rfl
        | arc source target count => exact ih
        | blocks counts => exact ih
  rw [rate, ← heads, Recording.sampleRate]
  cases r.sections <;> rfl

theorem exists_histogram {r : Recording} {start : Int} (records : r.records = toRecords l start ws)
    (counts : r.sampleRate ≠ 0) : ∃ h ∈ histograms ws, h.rate = r.sampleRate := by
  rw [sampleRate_toRecords records] at counts ⊢
  exact (rate_eq_zero_or_exists ws).resolve_left counts

end Written

/-! ## Pieces -/

/-- A header and records that are written are decoded when the units agree. -/
theorem decode_of_writes (dimension : 0 ≤ l.dimensionWidth) {h : WrittenHeader} (fits : h.Fits l)
    {ws : List Written} {records : List (List UInt8)}
    (writes : List.Forall₂ (Written.Writes l h.order) ws records) (units : Written.OneUnit ws) :
    decode l (h.bytes l ++ records.flatten) =
      .ok { layout := l, version := l.version, byteOrder := h.order
            records := Written.toRecords l l.headerSize ws } := by
  have agree := Written.agree_none.2 (Written.sameUnits_iff.2 units)
  rw [decode_bytes dimension fits, Written.readAll_of_writes dimension writes agree, fits.length]
  rfl

namespace Profile

theorem ofBytes_of_writes (dimension : 0 ≤ l.dimensionWidth) {h : WrittenHeader} (fits : h.Fits l)
    (table : SymbolTable) (source : String) {ws : List Written} {records : List (List UInt8)}
    (writes : List.Forall₂ (Written.Writes l h.order) ws records) (units : Written.OneUnit ws) :
    ofBytes l table source (h.bytes l ++ records.flatten) =
      .ok (ofRecording table source
        ⟨l, l.version, h.order, Written.toRecords l l.headerSize ws⟩) := by
  rw [ofBytes, decode_of_writes dimension fits writes units]
  rfl

/-- The pieces of a file can be decoded, and add up to what the file has. -/
theorem exists_parts (dimension : 0 ≤ l.dimensionWidth) {h : WrittenHeader} (fits : h.Fits l)
    (table : SymbolTable) (source : String) {pieces : List (String × List (List UInt8))}
    {ws : List Written}
    (writes : List.Forall₂ (Written.Writes l h.order) ws (pieces.flatMap (·.2)))
    (units : Written.OneUnit ws) {r : Recording}
    (records : r.records = Written.toRecords l l.headerSize ws) :
    ∃ parts, pieces.mapM (fun piece =>
        ofBytes l table piece.1 (h.bytes l ++ piece.2.flatten)) = .ok parts ∧
      (∀ rate ∈ rates parts, rate ≠ 0 → ∃ h ∈ Written.histograms ws, h.rate = rate) ∧
      (ofRecording table source r).SameCounts (sumOf parts) := by
  -- on the pieces: what is behind the first one is a file with the same header
  induction pieces generalizing ws r with
  | nil =>
      cases writes
      refine ⟨[], rfl, by simp [rates], ?_⟩
      rw [ofRecording_eq, records]
      exact ⟨rfl, rfl, rfl, rfl, Written.sampleRate_toRecords records, .refl _, rfl⟩
  | cons piece pieces ih =>
      rw [List.flatMap_cons] at writes
      obtain ⟨front, back, rfl, first, rest⟩ : ∃ front back, ws = front ++ back ∧
          List.Forall₂ (Written.Writes l h.order) front piece.2 ∧
          List.Forall₂ (Written.Writes l h.order) back (pieces.flatMap (·.2)) :=
        ⟨_, _, (List.take_append_drop piece.2.length ws).symm,
          List.forall₂_take_append _ _ _ writes, List.forall₂_drop_append _ _ _ writes⟩
      have decoded := ofBytes_of_writes dimension fits table piece.1 first units.left
      generalize made : Recording.mk l l.version h.order
        (Written.toRecords l l.headerSize front) = part at decoded
      have own : part.records = Written.toRecords l l.headerSize front := by rw [← made]
      obtain ⟨parts, listed, counted, same⟩ := ih rest units.right
        (r := ⟨l, l.version, h.order, Written.toRecords l l.headerSize back⟩) rfl
      refine ⟨ofRecording table piece.1 part :: parts, ?_, ?_, ?_⟩
      · exact mapM_cons_eq_ok_iff.2 ⟨_, parts, decoded, listed, rfl⟩
      · intro rate member counts
        rw [Written.histograms_append]
        rcases List.mem_cons.1 member with same | later
        · rw [same.trans (Batch.sampleRate_ofRecording ..)] at counts ⊢
          obtain ⟨h, member, isRate⟩ := Written.exists_histogram own counts
          exact ⟨h, List.mem_append_left _ member, isRate⟩
        · obtain ⟨h, member, isRate⟩ := counted rate later counts
          exact ⟨h, List.mem_append_right _ member, isRate⟩
      · rw [← List.singleton_append, sumOf_append, sumOf_singleton]
        refine (sameCounts_append piece.1 source ?_ ?_).trans ((SameCounts.refl _).plus same)
        · rw [records, own, Written.unplaced_toRecords, Written.unplaced_toRecords,
            Written.unplaced_toRecords, List.map_append]
        · rw [Written.sampleRate_toRecords records, Written.sampleRate_toRecords own,
            Written.sampleRate_toRecords rfl]
          exact units.rate_append

/-- Dividing the records of a file among files with its header is harmless: the pieces can be
    decoded and added up, and have the counts of the file together. Every file that is decoded can
    be divided, and its division has the records that are decoded. -/
theorem merge_pieces (spare : 0 ≤ l.spareWidth) (dimension : 0 ≤ l.dimensionWidth)
    {r : Recording} (decoded : decode l data = .ok r) :
    (∃ header records, Divides l r.byteOrder header records data) ∧
    ∀ header records, Divides l r.byteOrder header records data →
      records.length = r.records.length ∧
      ∀ pieces : List (String × List (List UInt8)), pieces.flatMap (·.2) = records →
      ∀ (table : SymbolTable) (source : String), ∃ whole parts merged,
        ofBytes l table source data = .ok whole ∧
        (pieces.mapM fun piece => ofBytes l table piece.1 (header ++ piece.2.flatten)) =
          .ok parts ∧
        merge parts = .ok merged ∧ whole.SameCounts merged := by
  obtain ⟨h, rest, rs, fits, rfl, stream, rfl⟩ := stream_of_decode spare dimension decoded
  constructor
  · obtain ⟨ws, records, writes, rfl⟩ := Written.exists_writes dimension stream
    exact ⟨h.bytes l, records, fits.length, Written.exists_writes_iff.1 ⟨ws, writes⟩, rfl⟩
  rintro header records ⟨length, each, split⟩
  have long : (h.bytes l).length = header.length := by
    have own := fits.length
    omega
  obtain ⟨rfl, rfl⟩ := List.append_inj split long
  obtain ⟨ws, writes⟩ := Written.exists_writes_iff.2 each
  have agree := Written.agree_of_readAll dimension writes stream
  have units := Written.sameUnits_iff.1 (Written.agree_none.1 agree)
  rw [decode_of_writes dimension fits writes units] at decoded
  obtain rfl := congrArg Recording.records (Except.ok.inj decoded)
  refine ⟨by rw [Written.length_toRecords, writes.length_eq], ?_⟩
  rintro pieces rfl table source
  obtain ⟨parts, listed, counted, same⟩ :=
    exists_parts dimension fits table source writes units (r := ⟨_, _, _, _⟩) rfl
  have ratesAgree : RatesAgree (rates parts) := by
    intro a first b second counts counts'
    obtain ⟨g, left, rfl⟩ := counted a first counts
    obtain ⟨k, right, rfl⟩ := counted b second counts'
    exact (units g left k right).1.symm
  exact ⟨_, parts, _, ofBytes_of_writes dimension fits table source writes units, listed,
    merge_of_agree ratesAgree, same⟩

theorem divides_written {t : Tags} (regular : l.IsRegular t) {f : WrittenFile} (fits : f.Fits l) :
    Divides l f.header.order (f.header.bytes l) (f.stream.map (·.bytes l t f.header.order))
      (f.bytes l t) where
  length := fits.header.length
  writes := by
    rw [List.forall_mem_map]
    intro w member
    exact ⟨w, w.tag t, Written.holds_tag regular w, (Written.hasTag_iff regular).2 rfl,
      fits.stream w member, rfl⟩
  split := rfl

/-- The arc of a file stands alone, and its histograms are counted in two pieces. -/
theorem merge_pieces_mixedFile :
    let t : Tags := { histogram := 0, arc := 1, blocks := 2 }
    let records := mixedFile.stream.map (·.bytes .wide t .big)
    0 ≤ Layout.wide.spareWidth ∧ 0 ≤ Layout.wide.dimensionWidth ∧
      decode .wide (mixedFile.bytes .wide t) = .ok (mixedFile.toRecording .wide) ∧
      ∀ (table : SymbolTable) (source : String), ∃ whole parts merged,
        ofBytes .wide table source (mixedFile.bytes .wide t) = .ok whole ∧
        ([("arc", records.take 1), ("first", (records.drop 1).take 2),
          ("second", records.drop 3)].mapM fun piece => ofBytes .wide table piece.1
            (mixedFile.header.bytes .wide ++ piece.2.flatten)) = .ok parts ∧
        merge parts = .ok merged ∧ whole.SameCounts merged := by
  intro t records
  have decoded := decode_written wide_isRegular mixedFile_fits
  refine ⟨by decide, by decide, decoded, ?_⟩
  exact ((merge_pieces (by decide) (by decide) decoded).2 _ records
    (divides_written wide_isRegular mixedFile_fits)).2 _ rfl

end Profile

end CallProfile
