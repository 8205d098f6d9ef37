import CallProfile.CallGraph.Build
import CallProfile.Tree.Build
import Mathlib.Data.Prod.Lex
import Mathlib.Data.String.Basic
import Mathlib.Order.WithBot

/-! # Sorting by keys

Every order that symbols and sources are sorted in is that of a key, and symbols with different
names or starts have different keys. So what is sorted does not show how it was listed before.
-/

namespace CallProfile

open scoped Whole

variable {α κ : Type}

/-- Whether an order is that of a key. -/
def OrderedBy [LE κ] (key : α → κ) (le : α → α → Bool) : Prop :=
  ∀ a b, le a b = true ↔ key a ≤ key b

theorem OrderedBy.trans [LinearOrder κ] {key : α → κ} {le : α → α → Bool}
    (ordered : OrderedBy key le) (a b c : α) (first : le a b = true) (second : le b c = true) :
    le a c = true := by
  rw [ordered] at first second ⊢
  exact first.trans second

theorem OrderedBy.total [LinearOrder κ] {key : α → κ} {le : α → α → Bool}
    (ordered : OrderedBy key le) (a b : α) : (le a b || le b a) = true := by
  rw [Bool.or_eq_true, ordered, ordered]
  exact le_total _ _

/-- A list that is sorted by a key has its keys in order. -/
theorem OrderedBy.pairwise_mergeSort [LinearOrder κ] {key : α → κ} {le : α → α → Bool}
    (ordered : OrderedBy key le) (xs : List α) :
    (xs.mergeSort le).Pairwise fun a b => key a ≤ key b :=
  (List.pairwise_mergeSort ordered.trans ordered.total xs).imp (ordered _ _).1

/-- Sorting by a key keeps the elements with one key in the order they came. -/
theorem OrderedBy.filter_mergeSort [LinearOrder κ] {key : α → κ} {le : α → α → Bool}
    (ordered : OrderedBy key le) (xs : List α) (k : κ) :
    (xs.mergeSort le).filter (fun x => key x = k) = xs.filter fun x => key x = k := by
  have alike : (xs.filter fun x => key x = k).Pairwise fun a b => le a b = true := by
    refine List.pairwise_of_forall_mem_list ?_
    intro a first b second
    have key_a : key a = k := by simpa using (List.mem_filter.1 first).2
    have key_b : key b = k := by simpa using (List.mem_filter.1 second).2
    exact (ordered a b).2 (by rw [key_a, key_b])
  have kept := (List.sublist_mergeSort ordered.trans ordered.total alike
    List.filter_sublist).filter fun x => key x = k
  rw [List.filter_filter] at kept
  simp only [Bool.and_self] at kept
  exact (kept.eq_of_length ((List.mergeSort_perm xs le).filter _).length_eq.symm).symm

/-- Rearranged lists are the same once they are sorted by a key that tells their elements
    apart. -/
theorem OrderedBy.mergeSort_eq [LinearOrder κ] {key : α → κ} {le : α → α → Bool}
    (ordered : OrderedBy key le) {xs ys : List α} (rearranged : xs.Perm ys)
    (apart : ∀ a ∈ xs, ∀ b ∈ xs, key a = key b → a = b) : xs.mergeSort le = ys.mergeSort le := by
  refine List.Perm.eq_of_pairwise ?_ (ordered.pairwise_mergeSort xs)
    (ordered.pairwise_mergeSort ys) ?_
  · intro a b first second below above
    refine apart a (List.mem_mergeSort.1 first) b ?_ (le_antisymm below above)
    exact rearranged.mem_iff.2 (List.mem_mergeSort.1 second)
  · exact (List.mergeSort_perm xs le).trans (rearranged.trans (List.mergeSort_perm ys le).symm)

/-- Whether no two of some symbols share both their name and their start. -/
def Separated (symbols : Symbol → Prop) : Prop :=
  ∀ s t, symbols s → symbols t → s.name = t.name → s.start = t.start → s = t

theorem not_lt_text {a b : String} : (!decide (b < a)) = true ↔ a ≤ b := by
  rw [Bool.not_eq_true', decide_eq_false_iff_not, not_lt]

namespace CallGraph

theorem orderedBy_inOrder :
    OrderedBy (fun s : Symbol => toLex (s.start, toLex (s.name, s.source.getD ""))) inOrder := by
  intro a b
  simp only [inOrder, Prod.Lex.toLex_le_toLex]
  by_cases start : a.start = b.start
  · by_cases name : a.name = b.name
    · rw [if_pos start, if_pos name, not_lt_text]
      simp [start, name]
    · simp [start, name]
  · simp [start]

theorem orderedBy_byStart : OrderedBy (fun s : Symbol => toLex (s.start, s.name)) byStart := by
  intro a b
  simp only [byStart, Prod.Lex.toLex_le_toLex]
  by_cases start : a.start = b.start
  · rw [if_pos start, not_lt_text]
    simp [start]
  · simp [start]

end CallGraph

namespace Tree

/-- The place of a source among all: the one without a path is last. -/
def pathKey : Option String → WithTop String
  | none => ⊤
  | some path => path

theorem pathKey_injective : Function.Injective pathKey := by
  intro a b same
  cases a <;> cases b <;> simp_all [pathKey]

theorem orderedBy_sourceInOrder : OrderedBy pathKey sourceInOrder := by
  intro a b
  cases a with
  | none => cases b <;> simp [sourceInOrder, pathKey]
  | some a =>
      cases b with
      | none => simp [sourceInOrder, pathKey]
      | some b =>
          rw [sourceInOrder, not_lt_text]
          exact WithTop.coe_le_coe.symm

theorem orderedBy_symbolInOrder (p : Samples) :
    OrderedBy (fun s : Symbol => toLex (-p.samples.count s, toLex (s.name, s.start)))
      (symbolInOrder p) := by
  intro a b
  simp only [symbolInOrder, Prod.Lex.toLex_le_toLex]
  by_cases count : p.samples.count a = p.samples.count b
  · by_cases name : a.name = b.name
    · simp [count, name]
    · simp [count, name]
  · simp [count]

end Tree

end CallProfile
