/-! # Tallies

A tally keeps one amount for each key, and its keys in the order in which they came. Adding
to a key that is present leaves it in its place, so the order tells of first encounters
only.
-/

namespace CallProfile

/-- Amounts by key, every key once. -/
structure Tally (κ ν : Type) where
  entries : List (κ × ν)
  nodup : (entries.map (·.1)).Nodup

namespace Tally

variable {κ ν : Type} [DecidableEq κ]

/-- Change the amount of a key, which starts at `start` and goes to the end when it is
    new. -/
def changeEntry (start : ν) (k : κ) (change : ν → ν) : List (κ × ν) → List (κ × ν)
  | [] => [(k, change start)]
  | (key, n) :: entries =>
      if key = k then (key, change n) :: entries
      else (key, n) :: changeEntry start k change entries

theorem mem_keys_changeEntry (start : ν) (k : κ) (change : ν → ν) (entries : List (κ × ν))
    (x : κ) :
    x ∈ (changeEntry start k change entries).map (·.1) ↔ x = k ∨ x ∈ entries.map (·.1) := by
  induction entries with
  | nil => simp [changeEntry]
  | cons e entries ih =>
      obtain ⟨key, n⟩ := e
      simp only [changeEntry]
      split
      · next h => subst h; simp
      · simp only [List.map_cons, List.mem_cons, ih]
        grind

theorem nodup_changeEntry (start : ν) (k : κ) (change : ν → ν) {entries : List (κ × ν)}
    (h : (entries.map (·.1)).Nodup) :
    ((changeEntry start k change entries).map (·.1)).Nodup := by
  induction entries with
  | nil => simp [changeEntry]
  | cons e entries ih =>
      obtain ⟨key, n⟩ := e
      simp only [List.map_cons, List.nodup_cons] at h
      simp only [changeEntry]
      split
      · simpa using h
      · next hne =>
          simp only [List.map_cons, List.nodup_cons]
          refine ⟨fun hmem => ?_, ih h.2⟩
          rcases (mem_keys_changeEntry start k change entries key).1 hmem with heq | hmem
          · exact hne heq
          · exact h.1 hmem

def empty : Tally κ ν where
  entries := []
  nodup := by simp

/-- The keys in the order in which they came. -/
def keys (t : Tally κ ν) : List κ :=
  t.entries.map (·.1)

/-- The amounts in the order of their keys. -/
def amounts (t : Tally κ ν) : List ν :=
  t.entries.map (·.2)

/-- The amount of a key when it is present. -/
def find? (t : Tally κ ν) (k : κ) : Option ν :=
  (t.entries.find? (·.1 = k)).map (·.2)

def set (t : Tally κ ν) (k : κ) (n : ν) : Tally κ ν where
  entries := changeEntry n k (fun _ => n) t.entries
  nodup := nodup_changeEntry n k (fun _ => n) t.nodup

omit [DecidableEq κ] in
/-- The tally with every amount changed. -/
def mapAmounts {μ : Type} (t : Tally κ ν) (f : ν → μ) : Tally κ μ where
  entries := t.entries.map fun e => (e.1, f e.2)
  nodup := by simpa [Function.comp_def] using t.nodup

variable [Add ν] [Zero ν]

/-- The amount of a key, zero when it is absent. -/
def count (t : Tally κ ν) (k : κ) : ν :=
  (t.find? k).getD 0

/-- Add to the amount of a key. -/
def add (t : Tally κ ν) (k : κ) (n : ν) : Tally κ ν where
  entries := changeEntry 0 k (· + n) t.entries
  nodup := nodup_changeEntry 0 k (· + n) t.nodup

/-- Add amounts one after the other. -/
def addAll (t : Tally κ ν) (entries : List (κ × ν)) : Tally κ ν :=
  entries.foldl (fun t e => t.add e.1 e.2) t

/-- The tally of a list of amounts: those of one key are added. -/
def ofList (entries : List (κ × ν)) : Tally κ ν :=
  empty.addAll entries

/-- The sum of two tallies. New keys of the second follow those of the first. -/
def merge (t u : Tally κ ν) : Tally κ ν :=
  t.addAll u.entries

omit [DecidableEq κ] in
def total (t : Tally κ ν) : ν :=
  t.amounts.sum

end Tally

end CallProfile
