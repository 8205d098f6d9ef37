import CallProfile.Proofs.Exact
import CallProfile.Proofs.Keys
import Mathlib.Algebra.BigOperators.Ring.List
import Mathlib.Algebra.Order.Field.Basic
import Mathlib.Tactic.FieldSimp
import Mathlib.Tactic.Ring

/-! # Scaled call graphs

With exact fractions the times and calls of a call graph are as many times greater as its arcs
and samples are. Which symbols make a component, which components are cycles, who their heads
are and in which order all of them come does not change.
-/

namespace CallProfile

open scoped Whole

/-! ## What is scaled -/

/-- Entries with every amount multiplied. -/
def scaleEntries {κ ν : Type} [Mul ν] (k : ν) (entries : List (κ × ν)) : List (κ × ν) :=
  entries.map fun e => (e.1, k * e.2)

/-- A tally with every amount multiplied. -/
def Tally.scale {κ ν : Type} [Mul ν] (k : ν) (t : Tally κ ν) : Tally κ ν :=
  t.mapAmounts (k * ·)

def Amount.scale (k : Nat) : Amount Rat → Amount Rat
  | .whole n => .whole (k * n)
  | .time x => .time (k * x)

def CallNode.scale (k : Nat) (n : CallNode Rat) : CallNode Rat :=
  { n with
    selfTime := k * n.selfTime
    cumulative := n.cumulative.scale k
    callers := scaleEntries k n.callers
    callees := scaleEntries k n.callees
    selfCalls := k * n.selfCalls
    childTime := scaleEntries (k : Rat) n.childTime }

def Component.scale (k : Nat) (c : Component Rat) : Component Rat :=
  { c with callsIn := k * c.callsIn, cumulative := k * c.cumulative }

def Cycle.scale (k : Nat) (c : Cycle Rat) : Cycle Rat :=
  { c with
    selfTime := k * c.selfTime
    cumulative := k * c.cumulative
    callsIn := k * c.callsIn }

/-- A call graph with all its times and calls multiplied. -/
def CallGraph.scale (k : Nat) (g : CallGraph Rat) : CallGraph Rat where
  nodes := g.nodes.map (·.scale k)
  components := g.components.map (·.scale k)
  cycles := g.cycles.map (·.scale k)
  arcs := g.arcs.scale k
  diagnostics := g.diagnostics

/-! ## Entries -/

section Entries

variable {κ ν : Type} {k : Nat}

theorem find?_scaleEntries [Mul ν] (k : ν) (p : κ → Bool) (entries : List (κ × ν)) :
    (scaleEntries k entries).find? (fun e => p e.1) =
      (entries.find? fun e => p e.1).map fun e => (e.1, k * e.2) :=
  List.find?_map

theorem lookup_scaleEntries [BEq κ] [Mul ν] (k : ν) (x : κ) (entries : List (κ × ν)) :
    (scaleEntries k entries).lookup x = (entries.lookup x).map (k * ·) := by
  induction entries with
  | nil => rfl
  | cons e entries ih =>
      obtain ⟨key, n⟩ := e
      rw [scaleEntries, List.map_cons, List.lookup_cons, List.lookup_cons]
      cases x == key with
      | true => rfl
      | false => exact ih

theorem sum_scaleEntries [NonUnitalNonAssocSemiring ν] (k : ν) (entries : List (κ × ν)) :
    ((scaleEntries k entries).map (·.2)).sum = k * (entries.map (·.2)).sum := by
  rw [scaleEntries, List.map_map, ← List.sum_map_mul_left]
  rfl

namespace Tally

theorem keys_scale [Mul ν] (k : ν) (t : Tally κ ν) : (t.scale k).keys = t.keys :=
  List.map_map

theorem total_scale [NonUnitalNonAssocSemiring ν] (k : ν) (t : Tally κ ν) :
    (t.scale k).total = k * t.total :=
  sum_scaleEntries k t.entries

theorem count_scale [DecidableEq κ] [NonUnitalNonAssocSemiring ν] (k : ν) (t : Tally κ ν)
    (x : κ) : (t.scale k).count x = k * t.count x := by
  have found := find?_scaleEntries k (fun y => decide (y = x)) t.entries
  rw [count, count, find?, find?]
  cases first : t.entries.find? (fun e => decide (e.1 = x)) with
  | none =>
      rw [first] at found
      rw [show (t.scale k).entries = scaleEntries k t.entries from rfl, found]
      exact (mul_zero k).symm
  | some e =>
      rw [first] at found
      rw [show (t.scale k).entries = scaleEntries k t.entries from rfl, found]
      rfl

end Tally

end Entries

namespace Amount

variable {k : Nat}

theorem toTime_scale (k : Nat) (a : Amount Rat) : (a.scale k).toTime = k * a.toTime := by
  cases a with
  | whole n => exact Int.cast_mul (k : Int) n |>.trans (by rw [Int.cast_natCast]; rfl)
  | time x => rfl

theorem addTo_scale (k : Nat) (n : Int) (a : Amount Rat) :
    (a.scale k).addTo (k * n) = (a.addTo n).scale k := by
  cases a with
  | whole m => simp only [scale, addTo, mul_add]
  | time x =>
      have whole : ((k * n : Int) : Rat) = k * n := by push_cast; rfl
      simp only [scale, addTo, Times.ofInt, Times.add, whole, mul_add]

theorem order?_scale (pos : 0 < k) (a b : Amount Rat) :
    order? (a.scale k) (b.scale k) = order? a b := by
  have pos : (0 : Rat) < k := by exact_mod_cast pos
  rw [order?_exact, order?_exact, toTime_scale, toTime_scale]
  simp only [mul_lt_mul_iff_right₀ pos, mul_right_inj' pos.ne']

end Amount

namespace CallGraph

variable {k : Nat} {arcs : ArcTally} {times : Symbol → Int} {components : List (Component Rat)}

/-! ## Calls -/

theorem verticesOf_scale (k : Nat) (arcs : ArcTally) :
    verticesOf (arcs.scale k) = verticesOf arcs := by
  rw [verticesOf, Tally.keys_scale]
  rfl

theorem calleesOf_scale (k : Nat) (arcs : ArcTally) (s : Symbol) :
    calleesOf (arcs.scale k) s = scaleEntries k (calleesOf arcs s) := by
  rw [calleesOf, calleesOf, scaleEntries, List.map_filterMap]
  refine List.filterMap_map.trans (List.filterMap_congr fun e _ => ?_)
  dsimp only [Function.comp]
  split <;> rfl

theorem callersOf_scale (k : Nat) (arcs : ArcTally) (s : Symbol) :
    callersOf (arcs.scale k) s = scaleEntries k (callersOf arcs s) := by
  rw [callersOf, callersOf, scaleEntries, List.map_filterMap]
  refine List.filterMap_map.trans (List.filterMap_congr fun e _ => ?_)
  dsimp only [Function.comp]
  split <;> rfl

theorem componentsOf_scale (k : Nat) (arcs : ArcTally) :
    componentsOf (arcs.scale k) = componentsOf arcs := by
  have adjacency : adjacency (arcs.scale k) = adjacency arcs := by
    rw [CallGraph.adjacency, CallGraph.adjacency, verticesOf_scale]
    refine List.map_congr_left fun s _ => ?_
    rw [calleesOf_scale, scaleEntries, List.map_map]
    rfl
  rw [componentsOf, componentsOf, verticesOf_scale, adjacency]

theorem inCallOrder_scale (k : Nat) (arcs : ArcTally) (parts : List (List Symbol)) :
    inCallOrder (arcs.scale k) parts = inCallOrder arcs parts := by
  rw [inCallOrder, inCallOrder, componentEdges, componentEdges, Tally.keys_scale]

theorem callsInto_scale (k : Nat) (arcs : ArcTally) (members : List Symbol) :
    callsInto (arcs.scale k) members = k * callsInto arcs members := by
  rw [callsInto, callsInto, ← sum_scaleEntries]
  exact congrArg (fun entries : List ((Symbol × Symbol) × Nat) => (entries.map (·.2)).sum)
    List.filter_map

theorem selfCallsOf_scale (k : Nat) (arcs : ArcTally) (s : Symbol) :
    selfCallsOf (arcs.scale k) s = k * selfCallsOf arcs s :=
  Tally.count_scale k arcs (s, s)

/-! ## Times -/

theorem share_scale (pos : 0 < k) (c : Component Rat) (calls : Nat) :
    Component.share (c.scale k) (k * calls) = k * Component.share c calls := by
  by_cases none : c.callsIn = 0
  · simp [Component.share, Component.scale, none, Times.ofInt]
  · have entered : k * c.callsIn ≠ 0 := Nat.mul_ne_zero pos.ne' none
    have pos : (k : Rat) ≠ 0 := by exact_mod_cast pos.ne'
    have some : (c.callsIn : Rat) ≠ 0 := by exact_mod_cast none
    rw [Component.share, Component.share, if_neg none]
    refine (if_neg entered).trans ?_
    simp only [Component.scale, Times.part]
    push_cast
    field_simp

theorem charges_scale (pos : 0 < k) (arcs : ArcTally) (finished : List (Component Rat))
    (s : Symbol) :
    charges (arcs.scale k) (finished.map (·.scale k)) s =
      scaleEntries (k : Rat) (charges arcs finished s) := by
  rw [charges, charges, calleesOf_scale, scaleEntries, scaleEntries, List.filterMap_map,
    List.map_filterMap]
  refine List.filterMap_congr fun e _ => ?_
  simp only [Function.comp, List.find?_map, Option.map_map]
  refine congrArg (Option.map · (finished.find? (·.members.contains e.1))) (funext fun c => ?_)
  exact congrArg (Prod.mk e.1) (share_scale pos c e.2)

theorem sum_charges_scale (pos : 0 < k) (arcs : ArcTally) (finished : List (Component Rat))
    (s : Symbol) :
    ((charges (arcs.scale k) (finished.map (·.scale k)) s).map (·.2)).sum =
      k * ((charges arcs finished s).map (·.2)).sum := by
  rw [charges_scale pos, sum_scaleEntries]

theorem selfTimeOf_scale (k : Nat) (times : Symbol → Int) (members : List Symbol) :
    selfTimeOf (fun s => k * times s) members = k * selfTimeOf times members :=
  List.sum_map_mul_left ..

theorem chargedComponent_scale (pos : 0 < k) (arcs : ArcTally) (times : Symbol → Int)
    (finished : List (Component Rat)) (members : List Symbol) :
    chargedComponent (arcs.scale k) (fun s => k * times s) (finished.map (·.scale k)) members =
      (chargedComponent arcs times finished members).scale k := by
  have charged : (members.flatMap fun s =>
        (charges (arcs.scale k) (finished.map (·.scale k)) s).map (·.2)).sum =
      k * (members.flatMap fun s => (charges arcs finished s).map (·.2)).sum := by
    rw [List.flatMap_def, List.flatMap_def, List.sum_flatten, List.sum_flatten, List.map_map,
      List.map_map, ← List.sum_map_mul_left]
    simp only [Function.comp_def, sum_charges_scale pos]
  have own : ((k * selfTimeOf times members : Int) : Rat) = k * selfTimeOf times members := by
    push_cast
    rfl
  simp only [chargedComponent, callsInto_scale, selfTimeOf_scale, Times.foldl_add_exact,
    Times.ofInt, charged, own]
  simp only [Component.scale, mul_add]

theorem foldl_finish_scale (pos : 0 < k) (arcs : ArcTally) (times : Symbol → Int)
    (parts : List (List Symbol)) (finished : List (Component Rat)) :
    parts.foldl (finish (arcs.scale k) fun s => k * times s) (finished.map (·.scale k)) =
      (parts.foldl (finish arcs times) finished).map (·.scale k) := by
  refine List.foldl_hom (List.map (Component.scale k)) fun finished members => ?_
  rw [finish, finish, chargedComponent_scale pos, List.map_append]
  rfl

/-! ## Nodes -/

theorem outside_scale (k : Nat) (components : List (Component Rat)) (s : Symbol) :
    outside (components.map (·.scale k)) s = (outside components s).map (·.scale k) :=
  List.filter_map

theorem nodeOf_scale (pos : 0 < k) (arcs : ArcTally) (times : Symbol → Int)
    (components : List (Component Rat)) (s : Symbol) :
    nodeOf (arcs.scale k) (fun s => k * times s) (components.map (·.scale k)) s =
      (nodeOf arcs times components s).scale k := by
  have charged := charges_scale pos arcs (outside components s) s
  have own : ((k * times s : Int) : Rat) = k * times s := by
    push_cast
    rfl
  rw [nodeOf, outside_scale, charged]
  simp only [nodeOf, CallNode.scale, callersOf_scale, calleesOf_scale, selfCallsOf_scale,
    CallNode.mk.injEq, true_and, and_true]
  cases charges arcs (outside components s) s with
  | nil => rfl
  | cons e entries =>
      simp only [Times.sum_exact, sum_scaleEntries]
      exact congrArg Amount.time (congrArg (· + _) own |>.trans (mul_add ..).symm)

/-! ## Cycles -/

theorem isBetterHead_scale (pos : 0 < k) (a b : CallNode Rat) :
    isBetterHead (a.scale k) (b.scale k) = isBetterHead a b := by
  have order := Amount.order?_scale pos (a.cumulative.addTo a.selfTime)
    (b.cumulative.addTo b.selfTime)
  rw [← Amount.addTo_scale, ← Amount.addTo_scale] at order
  rw [isBetterHead, isBetterHead, ← order]
  rfl

theorem headOf_scale (pos : 0 < k) (nodes : List (CallNode Rat)) :
    headOf (nodes.map (·.scale k)) = (headOf nodes).map (·.scale k) := by
  cases nodes with
  | nil => rfl
  | cons n nodes =>
      rw [List.map_cons, headOf, headOf, Option.map_some, List.foldl_map]
      refine congrArg some (List.foldl_hom (CallNode.scale k) fun best m => ?_)
      rw [isBetterHead_scale pos]
      split <;> rfl

theorem isCycle_scale (pos : 0 < k) (nodes : List (CallNode Rat)) :
    isCycle (nodes.map (·.scale k)) = isCycle nodes := by
  have calls : ∀ n : CallNode Rat, decide (0 < (n.scale k).selfCalls) = decide (0 < n.selfCalls) :=
    fun n => by simp [CallNode.scale, pos]
  simp only [isCycle, List.length_map, List.any_map, Function.comp_def, calls]

theorem cycleOfComponent_scale (pos : 0 < k) (nodes : List (CallNode Rat)) (number : Nat)
    (c : Component Rat) :
    cycleOfComponent (nodes.map (·.scale k)) number (c.scale k) =
      (cycleOfComponent nodes number c).map (·.scale k) := by
  have own : ((c.scale k).members.mergeSort byStart).filterMap
        (fun s => (nodes.map (·.scale k)).find? (·.symbol = s)) =
      ((c.members.mergeSort byStart).filterMap
        fun s => nodes.find? (·.symbol = s)).map (·.scale k) := by
    rw [List.map_filterMap]
    exact List.filterMap_congr fun s _ => List.find?_map
  rw [cycleOfComponent, cycleOfComponent, own, isCycle_scale pos, headOf_scale pos]
  generalize (c.members.mergeSort byStart).filterMap (fun s => nodes.find? (·.symbol = s)) = own
  have selfTime : ((own.map (·.scale k)).map (·.selfTime)).sum =
      k * (own.map (·.selfTime)).sum := by
    rw [List.map_map, ← List.sum_map_mul_left]
    rfl
  rw [selfTime]
  cases isCycle own with
  | false => rfl
  | true => cases headOf own <;> rfl

theorem cyclesOf_scale (pos : 0 < k) (nodes : List (CallNode Rat)) (number : Nat)
    (components : List (Component Rat)) :
    cyclesOf (nodes.map (·.scale k)) number (components.map (·.scale k)) =
      (cyclesOf nodes number components).map (·.scale k) := by
  induction components generalizing number with
  | nil => rfl
  | cons c components ih =>
      rw [List.map_cons, cyclesOf, cyclesOf, cycleOfComponent_scale pos]
      cases cycleOfComponent nodes number c with
      | none => exact ih number
      | some cycle => exact congrArg (List.cons _) (ih (number + 1))

theorem enterCycle_scale (k : Nat) (cycles : List (Cycle Rat)) (n : CallNode Rat) :
    enterCycle (cycles.map (·.scale k)) (n.scale k) = (enterCycle cycles n).scale k := by
  have found : (cycles.map (·.scale k)).find? (·.contains n.symbol) =
      (cycles.find? (·.contains n.symbol)).map (·.scale k) := List.find?_map
  rw [enterCycle, show (n.scale k).symbol = n.symbol from rfl, found, enterCycle]
  cases cycles.find? (·.contains n.symbol) with
  | none => rfl
  | some c =>
      by_cases head : c.head = n.symbol <;>
        simp [CallNode.scale, Cycle.scale, Amount.scale, head]

/-! ## The call graph -/

theorem ofComponents_scale (pos : 0 < k) (arcs : ArcTally) (times : Symbol → Int)
    (components : List (Component Rat)) :
    ofComponents (arcs.scale k) (fun s => k * times s) (components.map (·.scale k)) =
      (ofComponents arcs times components).scale k := by
  have nodes : (verticesOf (arcs.scale k)).map
        (nodeOf (arcs.scale k) (fun s => k * times s) (components.map (·.scale k))) =
      ((verticesOf arcs).map (nodeOf arcs times components)).map (·.scale k) := by
    rw [verticesOf_scale, List.map_map]
    exact List.map_congr_left fun s _ => nodeOf_scale pos arcs times components s
  have entered : ∀ (cycles : List (Cycle Rat)) (nodes : List (CallNode Rat)),
      (nodes.map (·.scale k)).map (enterCycle (cycles.map (·.scale k))) =
        (nodes.map (enterCycle cycles)).map (·.scale k) := by
    intro cycles nodes
    rw [List.map_map, List.map_map]
    exact List.map_congr_left fun n _ => enterCycle_scale k cycles n
  rw [ofComponents, ofComponents, nodes, ← List.map_reverse, cyclesOf_scale pos, entered]
  rfl

theorem ofTally_scale (pos : 0 < k) (arcs : ArcTally) (times : Symbol → Int) :
    (ofTally (arcs.scale k) fun s => k * times s) =
      (ofTally arcs times : Except Fault (CallGraph Rat)).map (·.scale k) := by
  rw [ofTally, ofTally, componentsOf_scale, inCallOrder_scale]
  cases inCallOrder arcs (componentsOf arcs) with
  | error fault => rfl
  | ok order =>
      have components := foldl_finish_scale pos arcs times order.reverse []
      simp only [bind, Except.bind, fits_exact, if_true]
      rw [show ([] : List (Component Rat)) = [].map (Component.scale k) from rfl, components,
        ofComponents_scale pos]
      rfl

end CallGraph

end CallProfile
