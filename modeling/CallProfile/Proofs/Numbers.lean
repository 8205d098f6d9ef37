import CallProfile.Json.Reader
import CallProfile.Json.Writer
import CallProfile.Proofs.Decimals

/-! # Numbers of a document

A number that is written reads back as the same number. A document reads the same number of a
decimal as is read of it alone.
-/

namespace CallProfile.Json

open Decimal
open scoped Whole

variable {ds rest mark text : List Char} {exponent : Int} {sp : Spelling} {x : Float}

/-- Whether no number goes on with a text. -/
def EndsNumber (rest : List Char) : Prop :=
  ∀ c ∈ rest.head?, c.isDigit = false ∧ c ≠ '.' ∧ c ≠ 'e' ∧ c ≠ 'E'

theorem EndsNumber.isDigit (ends : EndsNumber rest) : ∀ c ∈ rest.head?, c.isDigit = false :=
  fun c first => (ends c first).1

theorem wholeDigits?_append (digits : Digits ds) (leads : Leads ds)
    (ends : ∀ c ∈ rest.head?, c.isDigit = false) :
    wholeDigits? (ds ++ rest) = some (ds, rest) := by
  rcases leads with rfl | ⟨c, s, rfl, lead⟩
  · rfl
  · have front := takeWhile_digits digits ends
    have back := dropWhile_digits digits ends
    rw [List.cons_append] at front back ⊢
    rw [wholeDigits?, front, back]
    · rfl
    · exact fun _ same => lead (List.head_eq_of_cons_eq same)

theorem fraction_pointed (digits : Digits ds) (ends : ∀ c ∈ rest.head?, c.isDigit = false)
    (behind : ds = [] → ∀ c ∈ rest.head?, c ≠ '.') :
    fraction (pointed ds ++ rest) = (ds, rest) := by
  cases ds with
  | nil =>
      cases rest with
      | nil => rfl
      | cons c rest =>
          have other := behind rfl c rfl
          simp [pointed, fraction, other]
  | cons d ds =>
      have front := takeWhile_digits digits ends
      have back := dropWhile_digits digits ends
      rw [List.cons_append] at front back
      simp [pointed, fraction, front, back]

theorem exponent?_none (ends : EndsNumber rest) : exponent? rest = none := by
  cases rest with
  | nil => rfl
  | cons c rest =>
      obtain ⟨-, -, small, great⟩ := ends c rfl
      simp [exponent?, small, great]

theorem exponent?_marks (marks : Marks mark exponent) (marked : mark ≠ [])
    (ends : EndsNumber rest) : exponent? (mark ++ rest) = some (exponent, rest) := by
  cases marks with
  | none => exact absurd rfl marked
  | up digits some =>
      simp [exponent?, takeWhile_digits digits ends.isDigit, dropWhile_digits digits ends.isDigit,
        some]
  | down digits some =>
      simp [exponent?, takeWhile_digits digits ends.isDigit, dropWhile_digits digits ends.isDigit,
        some]

theorem head_marks (marks : Marks mark exponent) (ends : EndsNumber rest) :
    ∀ c ∈ (mark ++ rest).head?, c.isDigit = false ∧ c ≠ '.' := by
  intro c first
  cases marks with
  | none => exact ⟨(ends c first).1, (ends c first).2.1⟩
  | up _ _ =>
      cases first
      exact ⟨rfl, by decide⟩
  | down _ _ =>
      cases first
      exact ⟨rfl, by decide⟩

theorem unsignedNumber?_spells (spells : Spells text sp mark) (leads : Leads sp.whole)
    (ends : EndsNumber rest) (negative : Bool) :
    unsignedNumber? negative (text ++ rest) = some (.ok (.real (sp.value negative), rest)) := by
  obtain ⟨rfl, marks, digits, -, places, real⟩ := spells
  obtain ⟨w, f, e⟩ := sp
  dsimp only at *
  have behind := head_marks marks ends
  have stops : ∀ c ∈ (mark ++ rest).head?, c.isDigit = false := fun c first => (behind c first).1
  have whole := wholeDigits?_append digits leads (pointed_ends f stops)
  have point := fraction_pointed places stops fun _ c first => (behind c first).2
  rw [List.append_assoc, List.append_assoc]
  simp only [unsignedNumber?, whole, point, bind, Option.bind]
  by_cases marked : mark = []
  · subst marked
    cases marks
    have some : f.isEmpty = false := by simpa using real
    simp [exponent?_none ends, some]
  · simp [exponent?_marks marks marked ends]

theorem unsignedNumber?_digitsOf {n : Nat} (few : digitCount n ≤ Datum.digitLimit)
    (ends : EndsNumber rest) (negative : Bool) :
    unsignedNumber? negative (digitsOf n ++ rest) =
      some (.ok (.int (if negative then -(n : Int) else n), rest)) := by
  have whole := wholeDigits?_append (digits_digitsOf n) (leads_digitsOf n) ends.isDigit
  have none : Digits [] := fun _ member => absurd member List.not_mem_nil
  have places : fraction rest = ([], rest) :=
    fraction_pointed none ends.isDigit fun _ c first => (ends c first).2.1
  have few : ¬ Datum.digitLimit < (digitsOf n).length := Nat.not_lt.2 few
  simp [unsignedNumber?, whole, places, exponent?_none ends, few, digitsValue_digitsOf]

/-- What starts with a digit is a number. -/
theorem atom_number {negative : Bool} (first : ∃ c s, text = c :: s ∧ c.isDigit = true)
    {result : Except Stop (Datum × List Char)}
    (read : unsignedNumber? negative (text ++ rest) = some result) :
    atom (signed negative text ++ rest) = result := by
  obtain ⟨c, s, rfl, digit⟩ := first
  have other : ∀ d, d.isDigit = false → d ≠ c := by
    rintro d none rfl
    rw [none] at digit
    cases digit
  rw [List.cons_append] at read
  cases negative with
  | false =>
      simp [atom, words, signed, Text.after?, other 'n' rfl, other 't' rfl, other 'f' rfl,
        other 'N' rfl, other 'I' rfl, other '-' rfl, (other '-' rfl).symm, read]
  | true => simp [atom, words, signed, Text.after?, other 'I' rfl, read]

/-! ## Numbers that are written -/

theorem toList_toString (n : Int) :
    (toString n).toList = signed (n < 0) (digitsOf n.natAbs) := by
  cases n with
  | ofNat m => exact Nat.toList_repr
  | negSucc m =>
      refine (String.toList_append ..).trans ?_
      rw [Nat.toList_repr, decide_eq_true (Int.negSucc_lt_zero m)]
      rfl

theorem atom_int {n : Int} (few : digitCount n.natAbs ≤ Datum.digitLimit) (ends : EndsNumber rest) :
    atom ((toString n).toList ++ rest) = .ok (.int n, rest) := by
  have value : (if (decide (n < 0)) = true then -(n.natAbs : Int) else n.natAbs) = n := by
    by_cases negative : n < 0
    · rw [if_pos (decide_eq_true negative)]
      omega
    · rw [if_neg (by simp [negative])]
      omega
  have read := unsignedNumber?_digitsOf few ends (n < 0)
  rw [value] at read
  rw [toList_toString]
  exact atom_number (exists_digit_digitsOf n.natAbs) read

theorem atom_real (reads : read? (Style.json.write x).toList = some x) (ends : EndsNumber rest) :
    atom ((Style.json.write x).toList ++ rest) = .ok (.real x, rest) := by
  cases kind : parts x with
  | nan =>
      have read : read? "NaN".toList = some notANumber := rfl
      rw [write_nan kind, read] at reads
      rw [write_nan kind, ← Option.some.inj reads]
      rfl
  | infinite negative =>
      have read : read? (signed negative "Infinity".toList) = some (infinity negative) := by
        cases negative <;> rfl
      rw [write_infinite kind, String.toList_ofList] at reads ⊢
      rw [read] at reads
      rw [← Option.some.inj reads]
      cases negative <;> rfl
  | finite number =>
      obtain ⟨text, sp, mark, written, spells, leads⟩ := spells_write kind
      rw [written, String.toList_ofList] at reads ⊢
      have value := Option.some.inj ((spells.read?_eq number.negative).symm.trans reads)
      have leads : Leads sp.whole := by
        refine leads.resolve_right ?_
        rintro ⟨some, zeros⟩
        -- a number that is read back as zero is zero
        rw [value_of_zeros zeros] at value
        rw [← value, parts_zero] at kind
        rw [← Parts.finite.inj kind] at some
        exact some rfl
      have read := unsignedNumber?_spells spells leads ends number.negative
      rw [value] at read
      exact atom_number spells.exists_digit read

end CallProfile.Json
