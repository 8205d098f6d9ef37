import CallProfile.Proofs.Lists
import CallProfile.Proofs.Tally
import CallProfile.Tree.Build

/-! # Sums over a tree

The files of a tree share out the symbols, so what is summed over the files is the sum over the
symbols. The root has the samples of all symbols, as a symbol that is not in the tree has none.
-/

namespace CallProfile

open scoped Whole

variable {α κ : Type}

/-- Whether a node stands for a file. -/
def TreeNode.isFile (n : TreeNode α) : Bool :=
  match n.role with
  | .file _ => true
  | _ => false

/-- Whether a node stands for a symbol. -/
def TreeNode.isSymbol (n : TreeNode α) : Bool :=
  n.symbol?.isSome

/-! ## Whole amounts -/

theorem Tally.count_mapAmounts [DecidableEq κ] (t : Tally κ Nat) (k : κ) :
    (t.mapAmounts Int.ofNat).count k = (t.count k : Int) := by
  rw [count, count, find?, find?, mapAmounts, List.find?_map]
  simp only [Function.comp_def]
  cases t.entries.find? (fun e => decide (e.1 = k)) <;> rfl

theorem Tally.total_mapAmounts (t : Tally κ Nat) :
    (t.mapAmounts Int.ofNat).total = (t.total : Int) := by
  rw [total, total, amounts, amounts, mapAmounts, List.map_map]
  induction t.entries with
  | nil => rfl
  | cons e entries ih => simp_all

/-! ## Groups -/

/-- Summing by groups is summing, when every element has its group among the keys. -/
theorem sum_groups {β : Type} [DecidableEq κ] (group : β → κ) (weight : β → Int) {keys : List κ}
    (distinct : keys.Nodup) {xs : List β} (all : ∀ x ∈ xs, group x ∈ keys) :
    (keys.map fun k => ((xs.filter fun x => group x = k).map weight).sum).sum =
      (xs.map weight).sum := by
  have amounts := ((perm_groups group distinct all).map weight).sum_eq
  rw [List.map_flatMap, List.flatMap, List.sum_flatten, List.map_map] at amounts
  exact amounts

namespace Tree

variable {p : Samples}

theorem sum_groupsOf (p : Samples) (symbols : List Symbol) (weight : Symbol → Int) :
    ((groupsOf p symbols).map fun g => (g.2.map weight).sum).sum = (symbols.map weight).sum := by
  have sources := List.mergeSort_perm (symbols.map (·.source)).eraseDups sourceInOrder
  have distinct := sources.nodup_iff.2 (nodup_eraseDups (symbols.map (·.source)))
  have sorted : ∀ source, (((symbols.filter (·.source = source)).mergeSort
      (symbolInOrder p)).map weight).sum =
        ((symbols.filter (·.source = source)).map weight).sum := fun source =>
    ((List.mergeSort_perm ..).map weight).sum_eq
  rw [groupsOf, List.map_map, ← sum_groups Symbol.source weight distinct]
  · simp only [Function.comp_def, sorted]
  · intro s member
    rw [sources.mem_iff, List.mem_eraseDups]
    exact List.mem_map_of_mem member

theorem symbols_numbered (next : Nat) (groups : List (Option String × List Symbol)) :
    (numbered next groups).map (fun g => g.members.map (·.2)) = groups.map (·.2) := by
  induction groups generalizing next with
  | nil => rfl
  | cons g groups ih =>
      obtain ⟨source, symbols⟩ := g
      simp [numbered, ih, List.map_map, Function.comp_def, List.zipIdx_map_fst]

theorem sum_members (p : Samples) (symbols : List Symbol) (weight : Symbol → Int) :
    ((numbered 1 (groupsOf p symbols)).map fun g =>
      (g.members.map fun m => weight m.2).sum).sum = (symbols.map weight).sum := by
  have inner : ∀ g : Group, (g.members.map fun m => weight m.2) =
      (g.members.map (·.2)).map weight := fun g => by
    rw [List.map_map]
    rfl
  have groups := congrArg (List.map fun symbols => (symbols.map weight).sum)
    (symbols_numbered 1 (groupsOf p symbols))
  rw [List.map_map, List.map_map] at groups
  simp only [inner]
  exact (congrArg List.sum groups).trans (sum_groupsOf p symbols weight)

/-! ## Symbols -/

/-- A tree has the symbols with samples and those of its call graph. -/
theorem mem_symbolsOf_iff {nodes : List (CallNode α)} {s : Symbol} :
    s ∈ symbolsOf p nodes ↔ 0 < p.samples.count s ∨ s ∈ nodes.map (·.symbol) := by
  rw [symbolsOf, List.mem_eraseDups, List.mem_append]
  refine or_congr_left ⟨?_, ?_⟩
  · intro sampled
    obtain ⟨e, member, rfl⟩ := List.mem_map.1 sampled
    obtain ⟨member, pos⟩ := List.mem_filter.1 member
    rw [Tally.count_of_mem member]
    exact of_decide_eq_true pos
  · intro pos
    have entry : (s, p.samples.count s) ∈ p.samples.entries :=
      Tally.mem_entries_iff.2 ⟨Tally.mem_keys_of_count pos.ne', rfl⟩
    exact List.mem_map_of_mem (List.mem_filter.2 ⟨entry, decide_eq_true pos⟩)

theorem mem_symbolsOf (own : ∀ e ∈ p.samples.entries, 0 ≤ e.2) {s : Symbol}
    (some : p.samples.count s ≠ 0) (nodes : List (CallNode α)) : s ∈ symbolsOf p nodes := by
  obtain ⟨e, member, rfl⟩ := List.mem_map.1 (Tally.mem_keys_of_count some)
  have pos := own e member
  rw [← Tally.count_of_mem member] at pos
  exact mem_symbolsOf_iff.2 (.inl (lt_of_le_of_ne pos some.symm))

/-- The symbols of a tree have all of a tally that has something for symbols with samples only. -/
theorem sum_symbolsOf {t : Tally Symbol Int} (own : ∀ e ∈ p.samples.entries, 0 ≤ e.2)
    (sampled : ∀ s, p.samples.count s = 0 → t.count s = 0) (nodes : List (CallNode α)) :
    ((symbolsOf p nodes).map t.count).sum = t.total := by
  have all : ∀ s ∈ t.keys, t.count s ≠ 0 → s ∈ (symbolsOf p nodes).toFinset := fun s _ some =>
    List.mem_toFinset.2 (mem_symbolsOf own (fun none => some (sampled s none)) nodes)
  have distinct : (symbolsOf p nodes).Nodup := nodup_eraseDups _
  have total := Tally.total_eq_sum t all
  rw [List.sum_toFinset _ distinct] at total
  exact total.symm

/-! ## Nodes -/

variable [Times α] {nodes : List (CallNode α)}

theorem role_symbolNode (p : Samples) (nodes : List (CallNode α)) (total : Int)
    (file id : Nat) (s : Symbol) :
    ∃ calls selfCalls cycle,
      (symbolNode p nodes total file id s).role = .symbol s calls selfCalls cycle := by
  cases found : nodes.find? (·.symbol = s) with
  | none => exact ⟨0, 0, none, by simp only [symbolNode, found]⟩
  | some n => exact ⟨n.callsIn, n.selfCalls, n.cycle, by simp only [symbolNode, found]⟩

@[simp] theorem selfTime_symbolNode (p : Samples) (nodes : List (CallNode α)) (total : Int)
    (file id : Nat) (s : Symbol) :
    (symbolNode p nodes total file id s).selfTime = p.samples.count s :=
  rfl

@[simp] theorem symbol?_symbolNode (p : Samples) (nodes : List (CallNode α)) (total : Int)
    (file id : Nat) (s : Symbol) : (symbolNode p nodes total file id s).symbol? = some s := by
  obtain ⟨calls, selfCalls, cycle, role⟩ := role_symbolNode p nodes total file id s
  simp [TreeNode.symbol?, role]

@[simp] theorem name_symbolNode (p : Samples) (nodes : List (CallNode α)) (total : Int)
    (file id : Nat) (s : Symbol) : (symbolNode p nodes total file id s).name = s.name := by
  obtain ⟨calls, selfCalls, cycle, role⟩ := role_symbolNode p nodes total file id s
  simp [TreeNode.name, role]

@[simp] theorem isFile_symbolNode (p : Samples) (nodes : List (CallNode α)) (total : Int)
    (file id : Nat) (s : Symbol) : (symbolNode p nodes total file id s).isFile = false := by
  obtain ⟨calls, selfCalls, cycle, role⟩ := role_symbolNode p nodes total file id s
  simp [TreeNode.isFile, role]

theorem files_groupNodes (total : Int) (groups : List Group) :
    (groups.flatMap (groupNodes p nodes total)).filter (·.isFile) =
      groups.map (fileNode p total) := by
  induction groups with
  | nil => rfl
  | cons g groups ih =>
      have none : (g.members.map fun m => symbolNode p nodes total g.id m.1 m.2).filter
          (·.isFile) = [] := by
        rw [List.filter_eq_nil_iff]
        intro n member
        obtain ⟨m, -, rfl⟩ := List.mem_map.1 member
        simp
      rw [List.flatMap_cons, List.filter_append, ih, groupNodes, List.filter_cons_of_pos rfl, none]
      rfl

theorem symbols_groupNodes (total : Int) (groups : List Group) :
    (groups.flatMap (groupNodes p nodes total)).filter (·.isSymbol) =
      groups.flatMap fun g => g.members.map fun m => symbolNode p nodes total g.id m.1 m.2 := by
  induction groups with
  | nil => rfl
  | cons g groups ih =>
      have all : (g.members.map fun m => symbolNode p nodes total g.id m.1 m.2).filter
          (·.isSymbol) = g.members.map fun m => symbolNode p nodes total g.id m.1 m.2 := by
        rw [List.filter_eq_self]
        intro n member
        obtain ⟨m, -, rfl⟩ := List.mem_map.1 member
        simp [TreeNode.isSymbol]
      have file : ¬ (fileNode p total g : TreeNode α).isSymbol = true := Bool.false_ne_true
      rw [List.flatMap_cons, List.filter_append, ih, groupNodes, List.filter_cons_of_neg file, all]
      rfl

/-! ## Sums -/

variable {graph : Option (CallGraph α)} {quantity : TreeNode α → Int} {weight : Symbol → Int}

theorem of_build {t : Tree α} (made : build p graph = .ok t) : t = assemble p graph := by
  rw [build] at made
  split at made
  · exact (Except.ok.inj made).symm
  · cases made

theorem nodes_assemble (p : Samples) (graph : Option (CallGraph α)) :
    ∃ total,
      (assemble p graph).nodes =
        rootNode p total (numbered 1 (groupsOf p (symbolsOf p (graphNodes graph)))) ::
          (numbered 1 (groupsOf p (symbolsOf p (graphNodes graph)))).flatMap
            (groupNodes p (graphNodes graph) total) :=
  ⟨_, rfl⟩

/-- What every file sums over its symbols is, over all files, the sum over the symbols. -/
theorem sum_files (own : ∀ total g, quantity (fileNode p total g) =
      (g.members.map fun m => weight m.2).sum) (graph : Option (CallGraph α)) :
    (((assemble p graph).nodes.filter (·.isFile)).map quantity).sum =
      ((symbolsOf p (graphNodes graph)).map weight).sum := by
  obtain ⟨total, nodes⟩ := nodes_assemble p graph
  have root : ∀ groups, ¬ (rootNode p total groups : TreeNode α).isFile = true := fun _ =>
    Bool.false_ne_true
  rw [nodes, List.filter_cons_of_neg (root _), files_groupNodes, List.map_map,
    ← sum_members p _ weight]
  simp only [Function.comp_def, own]

/-- What every symbol has is, over all nodes of symbols, the sum over the symbols. -/
theorem sum_symbols (own : ∀ nodes total file id s,
      quantity (symbolNode p nodes total file id s) = weight s) (graph : Option (CallGraph α)) :
    (((assemble p graph).nodes.filter (·.isSymbol)).map quantity).sum =
      ((symbolsOf p (graphNodes graph)).map weight).sum := by
  obtain ⟨total, nodes⟩ := nodes_assemble p graph
  have root : ∀ groups, ¬ (rootNode p total groups : TreeNode α).isSymbol = true := fun _ =>
    Bool.false_ne_true
  rw [nodes, List.filter_cons_of_neg (root _), symbols_groupNodes, List.map_flatMap,
    List.flatMap_def, List.sum_flatten, List.map_map, ← sum_members p _ weight]
  simp only [Function.comp_def, List.map_map, own]

end Tree

end CallProfile
