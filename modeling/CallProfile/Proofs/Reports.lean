import CallProfile.Proofs.Documents
import CallProfile.Proofs.Outcomes
import CallProfile.Report.Document
import CallProfile.StandIn.Libraries

/-! # Reports read back

A report is written as nested objects and lists, and reading takes every record from its object
again, whatever converter does it. What could be lost is only in the numbers: whole numbers with
more digits than are read, and doubles whose decimal text stands for another one.
-/

namespace CallProfile

open Decimal (digitCount)
open Json (Plain)

/-! ## Values of a type -/

/-- Whether a value is of a type, and its numbers read back where they stand alone. -/
inductive Fits : Shape → Value → Prop where
  | text (s : String) : Fits .text (.text s)
  | int {n : Int} (few : digitCount n.natAbs ≤ Datum.digitLimit) : Fits .int (.int n)
  | real {x : Float} (reads : Decimal.read? (Decimal.Style.json.write x).toList = some x) :
      Fits .real (.real x)
  | null (shape : Shape) : Fits (.optional shape) .null
  | present {shape : Shape} {v : Value} (some : v ≠ .null) (fits : Fits shape v) :
      Fits (.optional shape) v
  | list {shape : Shape} {items : List Value} (each : ∀ v ∈ items, Fits shape v) :
      Fits (.list shape) (.list items)
  | record {fields : List (String × Shape × Option Value)} {values : List (String × Value)}
      (same : fields.map (·.1) = values.map (·.1)) (distinct : (values.map (·.1)).Nodup)
      (each : ∀ x ∈ fields.zip values, Fits x.1.2.1 x.2.2) :
      Fits (.record fields) (.record values)

namespace Fits

variable {fields : List (String × Shape × Option Value)} {values : List (String × Value)}
  {f : String × Shape × Option Value} {g : String × Value}

theorem length_eq (same : fields.map (·.1) = values.map (·.1)) : fields.length = values.length := by
  rw [← List.length_map, same, List.length_map]

theorem name_eq (same : fields.map (·.1) = values.map (·.1)) (place : (f, g) ∈ fields.zip values) :
    f.1 = g.1 := by
  obtain ⟨i, below, here⟩ := List.getElem_of_mem place
  rw [List.getElem_zip] at here
  cases here
  rw [List.length_zip] at below
  have names := congrArg (·[i]?) same
  simpa [List.getElem?_eq_getElem (show i < fields.length by omega),
    List.getElem?_eq_getElem (show i < values.length by omega)] using names

theorem exists_field (same : fields.map (·.1) = values.map (·.1)) (member : g ∈ values) :
    ∃ f, (f, g) ∈ fields.zip values := by
  have seconds : (fields.zip values).map Prod.snd = values :=
    List.map_snd_zip (Nat.le_of_eq (length_eq same).symm)
  rw [← seconds] at member
  obtain ⟨⟨f, _⟩, place, rfl⟩ := List.mem_map.1 member
  exact ⟨f, place⟩

theorem lookup?_members {toData : Value → Datum} (distinct : (values.map (·.1)).Nodup)
    (member : g ∈ values) :
    Datum.lookup? g.1 (values.map fun f => (.text f.1, toData f.2)) = some (toData g.2) := by
  induction values with
  | nil => cases member
  | cons first values ih =>
      rw [List.map_cons, List.nodup_cons] at distinct
      rw [List.map_cons, Datum.lookup?_text_cons]
      rcases List.mem_cons.1 member with rfl | later
      · exact if_pos rfl
      · rw [if_neg, ih distinct.2 later]
        intro same
        exact distinct.1 (same ▸ List.mem_map_of_mem later)

end Fits

namespace Converter.IsStandard

variable {c : Converter} {shape : Shape} {v : Value}

theorem toData_ne_null (standard : c.IsStandard) (some : v ≠ .null) : c.toData v ≠ .null := by
  cases v with
  | null => exact absurd rfl some
  | text s => rw [standard.toData_text]; rintro ⟨⟩
  | int n => rw [standard.toData_int]; rintro ⟨⟩
  | real x => rw [standard.toData_real]; rintro ⟨⟩
  | list items => rw [standard.toData_list]; rintro ⟨⟩
  | record fields => rw [standard.toData_record]; rintro ⟨⟩

theorem plain (standard : c.IsStandard) (fits : Fits shape v) : Plain (c.toData v) := by
  induction fits with
  | text s =>
      rw [standard.toData_text]
      exact .text s
  | int few =>
      rw [standard.toData_int]
      exact .int few
  | real reads =>
      rw [standard.toData_real]
      exact .real reads
  | null shape =>
      rw [standard.toData_null]
      exact .null
  | present _ _ ih => exact ih
  | list _ ih =>
      rw [standard.toData_list]
      exact .list (List.forall_mem_map.2 ih)
  | @record fields values same distinct _ ih =>
      have members : (values.map fun f => (Datum.text f.1, c.toData f.2)) =
          Json.named (values.map fun f => (f.1, c.toData f.2)) := by
        rw [Json.named, List.map_map]
        rfl
      rw [standard.toData_record, members]
      refine .map ?_ (List.forall_mem_map.2 fun g member => ?_)
      · rw [List.map_map]
        exact distinct
      · obtain ⟨f, place⟩ := Fits.exists_field same member
        exact ih _ place

/-- A value is made from its data again. -/
theorem ofData_toData (standard : c.IsStandard) (fits : Fits shape v) :
    c.ofData shape (c.toData v) = .ok v := by
  induction fits with
  | text s => rw [standard.toData_text, standard.ofData_text]
  | int few => rw [standard.toData_int, standard.ofData_int]
  | real reads => rw [standard.toData_real, standard.ofData_real]
  | null shape => rw [standard.toData_null, standard.ofData_null]
  | present some _ ih => rw [standard.ofData_optional _ _ (standard.toData_ne_null some), ih]
  | list _ ih =>
      rw [standard.toData_list]
      refine standard.ofData_list _ _ _ (mapM_eq_ok_iff_forall₂.2 ?_)
      rw [List.forall₂_map_left_iff, List.forall₂_same]
      exact ih
  | @record fields values same distinct _ ih =>
      rw [standard.toData_record]
      refine standard.ofData_record _ _ _ (mapM_eq_ok_iff_forall₂.2 ?_)
      refine List.forall₂_iff_zip.2 ⟨Fits.length_eq same, fun {f g} place => ?_⟩
      have member : g ∈ values := (List.of_mem_zip place).2
      rw [field, Fits.name_eq same place, Fits.lookup?_members distinct member]
      dsimp only
      rw [ih _ place]
      rfl

end Converter.IsStandard

/-! ## A converter of our own -/

namespace StandIn

theorem toDataList_eq (items : List Value) : toDataList items = items.map toData := by
  induction items with
  | nil => rfl
  | cons item items ih => rw [toDataList, ih, List.map_cons]

theorem toMembers_eq (fields : List (String × Value)) :
    toMembers fields = fields.map fun f => (.text f.1, toData f.2) := by
  induction fields with
  | nil => rfl
  | cons f fields ih => rw [toMembers, ih, List.map_cons]

theorem fieldsOf_of_mapM {members : List (Datum × Datum)}
    {fields : List (String × Shape × Option Value)} {values : List (String × Value)}
    (made : fields.mapM (converter.field members) = .ok values) :
    fieldsOf members fields = .ok values := by
  induction fields generalizing values with
  | nil => exact made
  | cons f fields ih =>
      obtain ⟨value, rest, first, others, rfl⟩ := mapM_cons_eq_ok_iff.1 made
      obtain ⟨name, shape, default⟩ := f
      rw [Converter.field] at first
      unfold fieldsOf
      rw [ih others]
      split at first
      · next d found =>
          obtain ⟨v, fits, rfl⟩ := map_eq_ok_iff.1 first
          have fits : ofData shape d = .ok v := fits
          dsimp only at found ⊢
          rw [found]
          dsimp only
          rw [fits]
          rfl
      · next v missing given =>
          cases first
          dsimp only at missing given ⊢
          rw [missing, given]
          rfl
      · cases first

theorem isStandard_converter : converter.IsStandard where
  toData_null := rfl
  toData_text _ := rfl
  toData_int _ := rfl
  toData_real _ := rfl
  toData_list items := congrArg Datum.list (toDataList_eq items)
  toData_record fields := congrArg Datum.map (toMembers_eq fields)
  ofData_text _ := rfl
  ofData_int _ := rfl
  ofData_real _ := rfl
  ofData_null _ := rfl
  ofData_optional shape d some := by
    show ofData (.optional shape) d = ofData shape d
    rw [ofData, Datum.isNull_of_ne some, if_neg Bool.false_ne_true]
  ofData_list shape items values made := by
    show ofData (.list shape) (.list items) = _
    rw [ofData]
    exact map_eq_ok_iff.2 ⟨values, made, rfl⟩
  ofData_record fields members values made := by
    show ofData (.record fields) (.map members) = _
    rw [ofData]
    exact map_eq_ok_iff.2 ⟨values, fieldsOf_of_mapM made, rfl⟩

end StandIn

/-! ## Reports -/

namespace Report

def Edge.ints (e : Edge) : List Int :=
  [e.start, e.calls]

def Edge.reals (e : Edge) : List Float :=
  [e.charged]

def SymbolFigures.ints (s : SymbolFigures) : List Int :=
  [s.start, s.stop, s.selfSamples, s.calls, s.selfCalls] ++ s.cycle.toList ++
    s.callers.flatMap Edge.ints ++ s.callees.flatMap Edge.ints

def SymbolFigures.reals (s : SymbolFigures) : List Float :=
  [s.selfSeconds, s.cumulativeSamples, s.cumulativeSeconds, s.percentage] ++
    s.callers.flatMap Edge.reals ++ s.callees.flatMap Edge.reals

def FileFigures.ints (f : FileFigures) : List Int :=
  f.selfSamples :: f.symbols.flatMap SymbolFigures.ints

def FileFigures.reals (f : FileFigures) : List Float :=
  [f.selfSeconds, f.percentage] ++ f.symbols.flatMap SymbolFigures.reals

def CycleFigures.ints (c : CycleFigures) : List Int :=
  [c.number, c.selfSamples, c.callsIn]

def CycleFigures.reals (c : CycleFigures) : List Float :=
  [c.cumulativeSamples]

/-- The whole numbers of a report. -/
def ints (r : Report) : List Int :=
  [r.sampleRate, r.total, r.attributed, r.unattributed, r.unresolved] ++
    r.files.flatMap FileFigures.ints ++ r.cycles.flatMap CycleFigures.ints

/-- The doubles of a report. -/
def reals (r : Report) : List Float :=
  r.files.flatMap FileFigures.reals ++ r.cycles.flatMap CycleFigures.reals

/-- Whether numbers read back where they stand alone. -/
structure Legible (ints : List Int) (reals : List Float) : Prop where
  few : ∀ n ∈ ints, digitCount n.natAbs ≤ Datum.digitLimit
  reads : ∀ x ∈ reals, Decimal.read? (Decimal.Style.json.write x).toList = some x

theorem Legible.mono {ints ints' : List Int} {reals reals' : List Float}
    (legible : Legible ints reals) (fewer : ints' ⊆ ints) (less : reals' ⊆ reals) :
    Legible ints' reals' :=
  ⟨fun n member => legible.few n (fewer member), fun x member => legible.reads x (less member)⟩

theorem Legible.int {ints : List Int} {reals : List Float} {n : Int} (legible : Legible ints reals)
    (member : n ∈ ints) : Fits .int (.int n) :=
  .int (legible.few n member)

theorem Legible.real {ints : List Int} {reals : List Float} {x : Float}
    (legible : Legible ints reals) (member : x ∈ reals) : Fits .real (.real x) :=
  .real (legible.reads x member)

theorem Legible.list {α : Type} {shape : Shape} {records : List α} {toValue : α → Value}
    {f : α → List Int} {g : α → List Float}
    (legible : Legible (records.flatMap f) (records.flatMap g))
    (fits : ∀ a, Legible (f a) (g a) → Fits shape (toValue a)) :
    Fits (.list shape) (.list (records.map toValue)) := by
  refine .list (List.forall_mem_map.2 fun a member => fits a (legible.mono ?_ ?_))
  · exact fun n isInt => List.mem_flatMap.2 ⟨a, member, isInt⟩
  · exact fun x isReal => List.mem_flatMap.2 ⟨a, member, isReal⟩

theorem fits_textOrNull (s : Option String) : Fits (.optional .text) (.textOrNull s) := by
  cases s with
  | none => exact .null .text
  | some s => exact .present nofun (.text s)

theorem fits_intOrNull {n : Option Int} {reals : List Float} (legible : Legible n.toList reals) :
    Fits (.optional .int) (.intOrNull n) := by
  cases n with
  | none => exact .null .int
  | some n => exact .present nofun (legible.int (by simp))

theorem fits_texts (texts : List String) : Fits (.list .text) (.list (texts.map .text)) :=
  .list (List.forall_mem_map.2 fun s _ => .text s)

theorem Edge.fits (e : Edge) (legible : Legible e.ints e.reals) : Fits shape e.toValue := by
  refine .record rfl (by simp) ?_
  simp only [List.zip_cons_cons, List.zip_nil_left, List.forall_mem_cons]
  exact ⟨.text _, legible.int (by simp [ints]), legible.int (by simp [ints]),
    legible.real (by simp [reals]), nofun⟩

theorem SymbolFigures.fits (s : SymbolFigures) (legible : Legible s.ints s.reals) :
    Fits shape s.toValue := by
  have cycle : Legible s.cycle.toList [] := legible.mono (by grind [ints]) (by simp)
  have callers : Legible (s.callers.flatMap Edge.ints) (s.callers.flatMap Edge.reals) :=
    legible.mono (by grind [ints]) (by grind [reals])
  have callees : Legible (s.callees.flatMap Edge.ints) (s.callees.flatMap Edge.reals) :=
    legible.mono (by grind [ints]) (by grind [reals])
  refine .record rfl (by simp) ?_
  simp only [List.zip_cons_cons, List.zip_nil_left, List.forall_mem_cons]
  exact ⟨.text _, legible.int (by simp [ints]), legible.int (by simp [ints]), fits_textOrNull _,
    legible.int (by simp [ints]), legible.real (by simp [reals]), legible.real (by simp [reals]),
    legible.real (by simp [reals]), legible.real (by simp [reals]), legible.int (by simp [ints]),
    legible.int (by simp [ints]), fits_intOrNull cycle, callers.list Edge.fits,
    callees.list Edge.fits, nofun⟩

theorem FileFigures.fits (f : FileFigures) (legible : Legible f.ints f.reals) :
    Fits shape f.toValue := by
  have symbols : Legible (f.symbols.flatMap SymbolFigures.ints)
      (f.symbols.flatMap SymbolFigures.reals) :=
    legible.mono (by grind [ints]) (by grind [reals])
  refine .record rfl (by simp) ?_
  simp only [List.zip_cons_cons, List.zip_nil_left, List.forall_mem_cons]
  exact ⟨fits_textOrNull _, .text _, legible.int (by simp [ints]), legible.real (by simp [reals]),
    legible.real (by simp [reals]), symbols.list SymbolFigures.fits, nofun⟩

theorem CycleFigures.fits (c : CycleFigures) (legible : Legible c.ints c.reals) :
    Fits shape c.toValue := by
  refine .record rfl (by simp) ?_
  simp only [List.zip_cons_cons, List.zip_nil_left, List.forall_mem_cons]
  exact ⟨legible.int (by simp [ints]), .text _, fits_texts _, legible.int (by simp [ints]),
    legible.real (by simp [reals]), legible.int (by simp [ints]), nofun⟩

theorem Failure.fits (f : Failure) : Fits shape f.toValue := by
  refine .record rfl (by simp) ?_
  simp only [List.zip_cons_cons, List.zip_nil_left, List.forall_mem_cons]
  exact ⟨.text _, .text _, nofun⟩

theorem fits (r : Report) (legible : Legible r.ints r.reals) : Fits shape r.toValue := by
  have files : Legible (r.files.flatMap FileFigures.ints) (r.files.flatMap FileFigures.reals) :=
    legible.mono (by grind [ints]) (by grind [reals])
  have cycles : Legible (r.cycles.flatMap CycleFigures.ints)
      (r.cycles.flatMap CycleFigures.reals) :=
    legible.mono (by grind [ints]) (by grind [reals])
  have failures : Fits (.list Failure.shape) (.list (r.failures.map Failure.toValue)) :=
    .list (List.forall_mem_map.2 fun f _ => f.fits)
  refine .record rfl (by simp) ?_
  simp only [List.zip_cons_cons, List.zip_nil_left, List.forall_mem_cons]
  exact ⟨.text _, legible.int (by simp [ints]), legible.int (by simp [ints]),
    legible.int (by simp [ints]), legible.int (by simp [ints]), legible.int (by simp [ints]),
    fits_texts _, files.list FileFigures.fits, cycles.list CycleFigures.fits, failures, nofun⟩

/-! ## Records taken from their values -/

theorem list?_list {α : Type} {item? : Value → Option α} {toValue : α → Value}
    (back : ∀ a, item? (toValue a) = some a) (records : List α) :
    Value.list? item? (.list (records.map toValue)) = some records := by
  have each : (records.map toValue).mapM item? = some records := by
    induction records with
    | nil => rfl
    | cons a records ih => simp [List.mapM_cons, back, ih]
  exact each

theorem list?_texts (texts : List String) :
    Value.list? Value.text? (.list (texts.map .text)) = some texts := by
  have back : ∀ s, Value.text? (.text s) = some s := fun _ => rfl
  exact list?_list back texts

theorem textOrNull?_textOrNull (s : Option String) : (Value.textOrNull s).textOrNull? = some s := by
  cases s <;> rfl

theorem intOrNull?_intOrNull (n : Option Int) : (Value.intOrNull n).intOrNull? = some n := by
  cases n <;> rfl

theorem Edge.ofValue?_toValue (e : Edge) : ofValue? e.toValue = some e :=
  rfl

theorem SymbolFigures.ofValue?_toValue (s : SymbolFigures) : ofValue? s.toValue = some s := by
  change (do
    let source ← (Value.textOrNull s.source).textOrNull?
    let cycle ← (Value.intOrNull s.cycle).intOrNull?
    let callers ← Value.list? Edge.ofValue? (.list (s.callers.map Edge.toValue))
    let callees ← Value.list? Edge.ofValue? (.list (s.callees.map Edge.toValue))
    return { s with source, cycle, callers, callees }) = some s
  rw [textOrNull?_textOrNull, intOrNull?_intOrNull, list?_list Edge.ofValue?_toValue,
    list?_list Edge.ofValue?_toValue]
  rfl

theorem FileFigures.ofValue?_toValue (f : FileFigures) : ofValue? f.toValue = some f := by
  change (do
    let source ← (Value.textOrNull f.source).textOrNull?
    let symbols ← Value.list? SymbolFigures.ofValue? (.list (f.symbols.map SymbolFigures.toValue))
    return { f with source, symbols }) = some f
  rw [textOrNull?_textOrNull, list?_list SymbolFigures.ofValue?_toValue]
  rfl

theorem CycleFigures.ofValue?_toValue (c : CycleFigures) : ofValue? c.toValue = some c := by
  change (do
    let members ← Value.list? Value.text? (.list (c.members.map .text))
    return { c with members }) = some c
  rw [list?_texts]
  rfl

theorem Failure.ofValue?_toValue (f : Failure) : ofValue? f.toValue = some f :=
  rfl

theorem ofValue?_toValue (r : Report) : ofValue? r.toValue = some r := by
  change (do
    let sources ← Value.list? Value.text? (.list (r.sources.map .text))
    let files ← Value.list? FileFigures.ofValue? (.list (r.files.map FileFigures.toValue))
    let cycles ← Value.list? CycleFigures.ofValue? (.list (r.cycles.map CycleFigures.toValue))
    let failures ← Value.list? Failure.ofValue? (.list (r.failures.map Failure.toValue))
    return { r with sources, files, cycles, failures }) = some r
  rw [list?_texts, list?_list FileFigures.ofValue?_toValue,
    list?_list CycleFigures.ofValue?_toValue, list?_list Failure.ofValue?_toValue]
  rfl

/-- Every report reads back as it was, at every indentation: one below zero breaks the lines as
    zero does. -/
theorem read_write {c : Converter} (standard : c.IsStandard) (indent : Option Int) (r : Report)
    (few : ∀ n ∈ r.ints, digitCount n.natAbs ≤ Datum.digitLimit)
    (reads : ∀ x ∈ r.reals, Decimal.read? (Decimal.Style.json.write x).toList = some x) :
    ∃ text, r.write c (indent.map Int.toNat) = .ok text ∧ Report.read c text = .ok r := by
  have fits := r.fits ⟨few, reads⟩
  have plain := standard.plain fits
  refine ⟨_, if_pos plain.isShort, ?_⟩
  rw [Report.read, readJson, Json.read_of_plain _ plain]
  dsimp only [bind, Except.bind]
  rw [standard.ofData_toData fits]
  dsimp only
  rw [ofValue?_toValue]
  rfl

/-- Two functions that call each other in one file, a nameless file, and an input left out. -/
def pairReport : Report where
  run := "\"run\" \\ 1\x07\n"
  sampleRate := 100
  total := 3
  attributed := 3
  unattributed := -1
  unresolved := 0
  sources := ["gmon.out", "\u00e4\u2028😀\uFFFF"]
  files := [
    { source := some "a.c", name := "a.c", selfSamples := 3, selfSeconds := 0.03, percentage := 100
      symbols := [
        { name := "even", start := 18446744073709551616, stop := 18446744073709551632
          source := some "a.c", selfSamples := 3, selfSeconds := 0.03, cumulativeSamples := 3
          cumulativeSeconds := 5e-324, percentage := 1e22, calls := 1, selfCalls := 0
          cycle := some 1, callers := []
          callees := [{ name := "odd", start := -16, calls := 2, charged := 0.1 }] },
        { name := "", start := 16, stop := 32, source := none, selfSamples := 0
          selfSeconds := -0.0, cumulativeSamples := 0.3333333333333333, cumulativeSeconds := 0
          percentage := 0, calls := 2, selfCalls := 1, cycle := none
          callers := [{ name := "even", start := 0, calls := 2, charged := 0.1 },
            { name := "odd", start := 16, calls := 1, charged := 1.7976931348623157e308 }]
          callees := [] }] },
    { source := none, name := "?", selfSamples := 0, selfSeconds := 0, percentage := 0
      symbols := [] }]
  cycles := [{ number := 1, head := "even", members := ["even", "odd"], selfSamples := 3
               cumulativeSamples := 3, callsIn := 1 }]
  failures := [{ path := "b\t.out", error := "BadMagic: 'x'" }]

theorem read_write_pairReport :
    StandIn.converter.IsStandard ∧
      (∀ n ∈ pairReport.ints, digitCount n.natAbs ≤ Datum.digitLimit) ∧
      (∀ x ∈ pairReport.reals, Decimal.read? (Decimal.Style.json.write x).toList = some x) ∧
      ∃ text, pairReport.write StandIn.converter (some 2) = .ok text ∧
        Report.read StandIn.converter text = .ok pairReport := by
  have few : ∀ n ∈ pairReport.ints, digitCount n.natAbs ≤ Datum.digitLimit := by
    decide
  have reads : ∀ x ∈ pairReport.reals,
      Decimal.read? (Decimal.Style.json.write x).toList = some x := by
    decide +kernel
  have standard := StandIn.isStandard_converter
  exact ⟨standard, few, reads, read_write standard (some 2) pairReport few reads⟩

end Report

end CallProfile
