import CallProfile.Proofs.Exact
import CallProfile.Proofs.Sorting
import CallProfile.Proofs.TreeSums
import Mathlib.Algebra.BigOperators.Ring.Finset
import Mathlib.Data.List.Sort

/-! # Trees by number

A tree is one list in which every node lies at its number. Numbers follow the walk through the
tree, so parents and children, which are numbers too, always lead to nodes of the list, and the
walk gives the list again.
-/

namespace CallProfile

open scoped Whole

variable {α : Type}

/-- Whether a node comes no later than another of the same file: by its samples, the most first,
    then by name, then by start. -/
def TreeNode.Precedes (n m : TreeNode α) : Prop :=
  m.selfTime < n.selfTime ∨ n.selfTime = m.selfTime ∧
    (n.name < m.name ∨ n.name = m.name ∧ ∀ s ∈ n.symbol?, ∀ r ∈ m.symbol?, s.start ≤ r.start)

namespace Tree

/-- Whether the nodes of a tree lie at their numbers and hang together by them. -/
structure IsArena (t : Tree α) : Prop where
  numbers : t.nodes.map (·.id) = List.range t.nodes.length
  root : ∃ r ∈ t.nodes, r.role = .root
  root_iff : ∀ n ∈ t.nodes, n.role = .root ↔ n.id = 0
  orphan_iff : ∀ n ∈ t.nodes, n.parent = none ↔ n.id = 0
  ofFile : ∀ n ∈ t.nodes, ∀ source, n.role = .file source → n.parent = some 0
  ofSymbol : ∀ n ∈ t.nodes, ∀ s, n.symbol? = some s →
    ∃ f ∈ t.nodes, f.role = .file s.source ∧ n.parent = some f.id
  children : ∀ n ∈ t.nodes, n.children = (t.nodes.filter (·.parent = some n.id)).map (·.id)
  increasing : ∀ n ∈ t.nodes, n.children.Pairwise (· < ·)
  files : t.files = t.nodes.filter (·.isFile)
  preorder : t.preorder = t.nodes
  /-- The walk ends by itself: more fuel finds nothing else. -/
  walk : ∀ fuel, t.walk (t.nodes.length + fuel) [0] = t.nodes

/-- Whether a tree shows some samples and a call graph, everything in order and summed up. -/
structure Shows (t : Tree α) (p : Samples) (graph : Option (CallGraph α)) : Prop where
  once : (t.nodes.filterMap (·.symbol?)).Nodup
  shown : ∀ s, s ∈ t.nodes.filterMap (·.symbol?) ↔
    0 < p.samples.count s ∨ s ∈ (graphNodes graph).map (·.symbol)
  found : ∀ s n, t.symbolNode? s = some n ↔ n ∈ t.nodes ∧ n.symbol? = some s
  /-- Without a path is behind all paths. -/
  sources : (t.files.map (·.source)).Pairwise fun a b => pathKey a < pathKey b
  members : ∀ f ∈ t.files, (t.childrenOf f).Pairwise TreeNode.Precedes
  own : ∀ n ∈ t.nodes, ∀ s, n.symbol? = some s →
    n.selfTime = p.samples.count s ∧ n.buckets = p.buckets.count s
  ofFile : ∀ f ∈ t.files, f.selfTime = ((t.childrenOf f).map (·.selfTime)).sum ∧
    f.buckets = ((t.childrenOf f).map (·.buckets)).sum
  ofRoot : ∀ r ∈ t.nodes, r.role = .root → r.selfTime = (t.files.map (·.selfTime)).sum

/-! ## Numbers -/

variable {p : Samples} {next : Nat} {gs : List (Option String × List Symbol)} {g : Group}

theorem mem_of_numbered (member : g ∈ numbered next gs) : (g.source, g.members.map (·.2)) ∈ gs := by
  induction gs generalizing next with
  | nil => cases member
  | cons first gs ih =>
      obtain ⟨source, symbols⟩ := first
      rcases List.mem_cons.1 member with rfl | later
      · simp [List.map_map, Function.comp_def, List.zipIdx_map_fst]
      · exact List.mem_cons_of_mem _ (ih later)

theorem sources_numbered (next : Nat) (gs : List (Option String × List Symbol)) :
    (numbered next gs).map (·.source) = gs.map (·.1) := by
  induction gs generalizing next with
  | nil => rfl
  | cons first gs ih => exact congrArg (List.cons _) (ih _)

theorem ids_members (member : g ∈ numbered next gs) :
    g.members.map (·.1) = List.range' (g.id + 1) g.members.length := by
  induction gs generalizing next with
  | nil => cases member
  | cons first gs ih =>
      obtain ⟨source, symbols⟩ := first
      rcases List.mem_cons.1 member with rfl | later
      · simp [List.map_map, Function.comp_def, List.zipIdx_map_snd]
      · exact ih later

variable [Times α] {nodes : List (CallNode α)} {total : Int}

/-- The nodes of the symbols of a group. -/
def symbolNodes (p : Samples) (nodes : List (CallNode α)) (total : Int) (g : Group) :
    List (TreeNode α) :=
  g.members.map fun m => symbolNode p nodes total g.id m.1 m.2

theorem groupNodes_eq (p : Samples) (nodes : List (CallNode α)) (total : Int) (g : Group) :
    groupNodes p nodes total g = fileNode p total g :: symbolNodes p nodes total g :=
  rfl

theorem children_fileNode (nodes : List (CallNode α)) (g : Group) :
    (fileNode p total g : TreeNode α).children = (symbolNodes p nodes total g).map (·.id) := by
  rw [symbolNodes, List.map_map]
  rfl

theorem ids_numbered (next : Nat) (gs : List (Option String × List Symbol)) :
    ((numbered next gs).flatMap (groupNodes p nodes total)).map (·.id) =
      List.range' next ((numbered next gs).flatMap (groupNodes p nodes total)).length := by
  induction gs generalizing next with
  | nil => rfl
  | cons first gs ih =>
      obtain ⟨source, symbols⟩ := first
      simp [numbered, groupNodes_eq, symbolNodes, fileNode, symbolNode, ih, Function.comp_def,
        List.zipIdx_map_snd, List.range'_succ, ← List.range'_append_1]

/-- Whether a tree has its root first and then, numbered from one on, some groups. -/
def LaidOut (t : Tree α) (p : Samples) (nodes : List (CallNode α)) (total : Int)
    (gs : List (Option String × List Symbol)) : Prop :=
  t.nodes = rootNode p total (numbered 1 gs) :: (numbered 1 gs).flatMap (groupNodes p nodes total)

namespace LaidOut

variable {t : Tree α} {n m : TreeNode α}

theorem numbers (laid : t.LaidOut p nodes total gs) :
    t.nodes.map (·.id) = List.range t.nodes.length := by
  rw [laid, List.map_cons, ids_numbered, List.length_cons, List.range_eq_range',
    List.range'_succ]
  rfl

theorem mem_nodes (laid : t.LaidOut p nodes total gs) :
    n ∈ t.nodes ↔ n = rootNode p total (numbered 1 gs) ∨ ∃ g ∈ numbered 1 gs,
      n = fileNode p total g ∨ ∃ m ∈ g.members, n = symbolNode p nodes total g.id m.1 m.2 := by
  rw [laid]
  simp only [List.mem_cons, List.mem_flatMap, groupNodes, List.mem_map, eq_comm]

theorem place (laid : t.LaidOut p nodes total gs) (member : n ∈ t.nodes) :
    t.nodes[n.id]? = some n := by
  obtain ⟨i, below, rfl⟩ := List.getElem_of_mem member
  have number : (t.nodes.map (·.id))[i]? = some i := by
    rw [laid.numbers, List.getElem?_range below]
  rw [List.getElem?_map, List.getElem?_eq_getElem below] at number
  rw [show t.nodes[i].id = i from Option.some.inj number, List.getElem?_eq_getElem below]

theorem eq_of_id (laid : t.LaidOut p nodes total gs) (first : n ∈ t.nodes) (second : m ∈ t.nodes)
    (same : n.id = m.id) : n = m := by
  have place := laid.place first
  rw [same, laid.place second] at place
  exact (Option.some.inj place).symm

theorem root_mem (laid : t.LaidOut p nodes total gs) :
    rootNode p total (numbered 1 gs) ∈ t.nodes :=
  laid.mem_nodes.2 (.inl rfl)

theorem file_mem (laid : t.LaidOut p nodes total gs) (group : g ∈ numbered 1 gs) :
    fileNode p total g ∈ t.nodes :=
  laid.mem_nodes.2 (.inr ⟨g, group, .inl rfl⟩)

theorem symbol_mem (laid : t.LaidOut p nodes total gs) (group : g ∈ numbered 1 gs)
    {m : Nat × Symbol} (member : m ∈ g.members) :
    symbolNode p nodes total g.id m.1 m.2 ∈ t.nodes :=
  laid.mem_nodes.2 (.inr ⟨g, group, .inr ⟨m, member, rfl⟩⟩)

/-- The root alone has the number zero. -/
theorem file_id_ne_zero (laid : t.LaidOut p nodes total gs) (group : g ∈ numbered 1 gs) :
    g.id ≠ 0 := by
  intro zero
  have same := congrArg TreeNode.role (laid.eq_of_id (laid.file_mem group) laid.root_mem zero)
  cases same

theorem symbol_id_ne_zero (laid : t.LaidOut p nodes total gs) (group : g ∈ numbered 1 gs)
    {m : Nat × Symbol} (member : m ∈ g.members) : m.1 ≠ 0 := by
  intro zero
  have same := congrArg TreeNode.symbol?
    (laid.eq_of_id (laid.symbol_mem group member) laid.root_mem zero)
  rw [symbol?_symbolNode] at same
  cases same

/-! ## Children -/

theorem pairwise_ids (laid : t.LaidOut p nodes total gs) :
    t.nodes.Pairwise fun n m => n.id < m.id := by
  rw [← List.pairwise_map (f := TreeNode.id), laid.numbers]
  exact List.pairwise_lt_range

theorem filter_isFile (laid : t.LaidOut p nodes total gs) :
    t.nodes.filter (·.isFile) = (numbered 1 gs).map (fileNode p total) := by
  rw [laid, List.filter_cons_of_neg Bool.false_ne_true, files_groupNodes]

theorem increasing (laid : t.LaidOut p nodes total gs) (member : n ∈ t.nodes) :
    n.children.Pairwise (· < ·) := by
  obtain rfl | ⟨g, group, rfl | ⟨m, -, rfl⟩⟩ := laid.mem_nodes.1 member
  · have files := laid.pairwise_ids.filter (·.isFile)
    rw [laid.filter_isFile, List.pairwise_map] at files
    exact List.pairwise_map.2 files
  · have children : (fileNode p total g : TreeNode α).children = _ := ids_members group
    rw [children]
    exact List.pairwise_lt_range'
  · exact .nil

theorem mem_children (laid : t.LaidOut p nodes total gs) (member : n ∈ t.nodes) {i : Nat} :
    i ∈ n.children ↔ ∃ m ∈ t.nodes, m.parent = some n.id ∧ m.id = i := by
  constructor
  · intro child
    obtain rfl | ⟨g, group, rfl | ⟨m, -, rfl⟩⟩ := laid.mem_nodes.1 member
    · obtain ⟨g, group, rfl⟩ := List.mem_map.1 child
      exact ⟨_, laid.file_mem group, rfl, rfl⟩
    · obtain ⟨m, inside, rfl⟩ := List.mem_map.1 child
      exact ⟨_, laid.symbol_mem group inside, rfl, rfl⟩
    · cases child
  · rintro ⟨c, below, parent, rfl⟩
    obtain rfl | ⟨g, group, rfl | ⟨m, inside, rfl⟩⟩ := laid.mem_nodes.1 below
    · cases parent
    · -- a file is below the node with the number zero
      have root := laid.eq_of_id laid.root_mem member (Option.some.inj parent)
      rw [← root]
      exact List.mem_map_of_mem group
    · -- a symbol is below the node with the number of its file
      have file := laid.eq_of_id (laid.file_mem group) member (Option.some.inj parent)
      rw [← file]
      exact List.mem_map_of_mem inside

theorem children_eq (laid : t.LaidOut p nodes total gs) (member : n ∈ t.nodes) :
    n.children = (t.nodes.filter (·.parent = some n.id)).map (·.id) := by
  have sorted := List.pairwise_map.2 (laid.pairwise_ids.filter (·.parent = some n.id))
  refine (laid.increasing member).eq_of_mem_iff sorted fun i => ?_
  simp [laid.mem_children member, and_assoc]

theorem nodesAt_ids (laid : t.LaidOut p nodes total gs) {ns : List (TreeNode α)}
    (members : ∀ n ∈ ns, n ∈ t.nodes) : t.nodesAt (ns.map (·.id)) = ns := by
  rw [nodesAt, List.filterMap_map]
  exact (List.filterMap_congr fun n member => laid.place (members n member)).trans
    List.filterMap_some

theorem symbolNodes_mem (laid : t.LaidOut p nodes total gs) (group : g ∈ numbered 1 gs) :
    ∀ n ∈ symbolNodes p nodes total g, n ∈ t.nodes := by
  intro n member
  obtain ⟨m, inside, rfl⟩ := List.mem_map.1 member
  exact laid.symbol_mem group inside

theorem childrenOf_file (laid : t.LaidOut p nodes total gs) (group : g ∈ numbered 1 gs) :
    t.childrenOf (fileNode p total g) = symbolNodes p nodes total g := by
  rw [childrenOf, children_fileNode nodes, laid.nodesAt_ids (laid.symbolNodes_mem group)]

theorem files_eq (laid : t.LaidOut p nodes total gs) :
    t.files = (numbered 1 gs).map (fileNode p total) := by
  have first : t.nodes.take 1 = [rootNode p total (numbered 1 gs)] := by
    rw [laid]
    rfl
  have children : (rootNode p total (numbered 1 gs) : TreeNode α).children =
      ((numbered 1 gs).map (fileNode p total)).map (TreeNode.id (α := α)) := by
    rw [List.map_map]
    rfl
  have members : ∀ n ∈ (numbered 1 gs).map (fileNode (α := α) p total), n ∈ t.nodes := by
    intro n member
    obtain ⟨g, group, rfl⟩ := List.mem_map.1 member
    exact laid.file_mem group
  rw [files, first, List.flatMap_singleton, childrenOf, children, laid.nodesAt_ids members]

/-! ## The walk -/

theorem walk_cons (laid : t.LaidOut p nodes total gs) (member : n ∈ t.nodes) (fuel : Nat)
    (stack : List Nat) :
    t.walk (fuel + 1) (n.id :: stack) = n :: t.walk fuel (n.children ++ stack) := by
  simp only [walk, laid.place member]

theorem walk_symbols (laid : t.LaidOut p nodes total gs) {ns : List (TreeNode α)}
    (members : ∀ n ∈ ns, n ∈ t.nodes ∧ n.children = []) (fuel : Nat) (stack : List Nat) :
    t.walk (ns.length + fuel) (ns.map (·.id) ++ stack) = ns ++ t.walk fuel stack := by
  induction ns with
  | nil => simp
  | cons n ns ih =>
      have rest := ih fun m later => members m (List.mem_cons_of_mem n later)
      obtain ⟨member, childless⟩ := members n List.mem_cons_self
      rw [List.length_cons, Nat.add_right_comm, List.map_cons, List.cons_append,
        laid.walk_cons member, childless, List.nil_append, rest, List.cons_append]

/-- Below a file the walk goes through its symbols before it comes to the next file. -/
theorem walk_files (laid : t.LaidOut p nodes total gs) {groups : List Group}
    (members : ∀ g ∈ groups, g ∈ numbered 1 gs) (fuel : Nat) :
    t.walk ((groups.flatMap (groupNodes p nodes total)).length + fuel) (groups.map (·.id)) =
      groups.flatMap (groupNodes p nodes total) := by
  induction groups with
  | nil => cases fuel <;> rfl
  | cons g groups ih =>
      have rest := ih fun h later => members h (List.mem_cons_of_mem g later)
      have group := members g List.mem_cons_self
      have file := laid.walk_cons (laid.file_mem group)
      have below : ∀ n ∈ symbolNodes p nodes total g, n ∈ t.nodes ∧ n.children = [] := by
        intro n inside
        refine ⟨laid.symbolNodes_mem group n inside, ?_⟩
        obtain ⟨m, -, rfl⟩ := List.mem_map.1 inside
        rfl
      have length : ((g :: groups).flatMap (groupNodes p nodes total)).length + fuel =
          (symbolNodes p nodes total g).length +
            ((groups.flatMap (groupNodes p nodes total)).length + fuel) + 1 := by
        simp only [List.flatMap_cons, groupNodes_eq, List.length_append, List.length_cons]
        omega
      rw [length, List.map_cons]
      refine (file _ _).trans ?_
      rw [children_fileNode nodes, laid.walk_symbols below, rest, List.flatMap_cons, groupNodes_eq,
        List.cons_append]

theorem walk_all (laid : t.LaidOut p nodes total gs) (fuel : Nat) :
    t.walk (t.nodes.length + fuel) [0] = t.nodes := by
  have root := laid.walk_cons laid.root_mem
  have files := laid.walk_files fun _ member => member
  rw [laid, List.length_cons, Nat.add_right_comm]
  refine (root _ _).trans ?_
  rw [List.append_nil]
  exact congrArg _ (files fuel)

theorem isArena (laid : t.LaidOut p nodes total gs)
    (sources : ∀ g ∈ gs, ∀ s ∈ g.2, s.source = g.1) : t.IsArena where
  numbers := laid.numbers
  root := ⟨_, laid.root_mem, rfl⟩
  root_iff n member := by
    obtain rfl | ⟨g, group, rfl | ⟨m, inside, rfl⟩⟩ := laid.mem_nodes.1 member
    · exact iff_of_true rfl rfl
    · exact iff_of_false nofun (laid.file_id_ne_zero group)
    · obtain ⟨_, _, _, role⟩ := role_symbolNode p nodes total g.id m.1 m.2
      rw [role]
      exact iff_of_false nofun (laid.symbol_id_ne_zero group inside)
  orphan_iff n member := by
    obtain rfl | ⟨g, group, rfl | ⟨m, inside, rfl⟩⟩ := laid.mem_nodes.1 member
    · exact iff_of_true rfl rfl
    · exact iff_of_false nofun (laid.file_id_ne_zero group)
    · exact iff_of_false nofun (laid.symbol_id_ne_zero group inside)
  ofFile n member source role := by
    obtain rfl | ⟨g, group, rfl | ⟨m, inside, rfl⟩⟩ := laid.mem_nodes.1 member
    · cases role
    · rfl
    · obtain ⟨_, _, _, other⟩ := role_symbolNode p nodes total g.id m.1 m.2
      cases other.symm.trans role
  ofSymbol n member s shown := by
    obtain rfl | ⟨g, group, rfl | ⟨m, inside, rfl⟩⟩ := laid.mem_nodes.1 member
    · cases shown
    · cases shown
    · obtain rfl : m.2 = s := Option.some.inj ((symbol?_symbolNode ..).symm.trans shown)
      have source := sources _ (mem_of_numbered group) m.2 (List.mem_map_of_mem inside)
      exact ⟨_, laid.file_mem group, congrArg Role.file source.symm, rfl⟩
  children n member := laid.children_eq member
  increasing n member := laid.increasing member
  files := laid.files_eq.trans laid.filter_isFile.symm
  preorder := laid.walk_all 0
  walk := laid.walk_all

/-! ## Contents -/

theorem filterMap_symbol (laid : t.LaidOut p nodes total gs) :
    t.nodes.filterMap (·.symbol?) = gs.flatMap (·.2) := by
  have group : ∀ g : Group, (groupNodes p nodes total g).filterMap (·.symbol?) =
      g.members.map (·.2) := by
    intro g
    rw [groupNodes, List.filterMap_cons_none rfl, List.filterMap_map, ← List.filterMap_eq_map]
    exact List.filterMap_congr fun m _ => symbol?_symbolNode ..
  rw [laid, List.filterMap_cons_none rfl, List.filterMap_flatMap]
  simp only [group]
  rw [List.flatMap_def, symbols_numbered, List.flatMap_def]

theorem symbolNode?_eq_some_iff (laid : t.LaidOut p nodes total gs)
    (once : (gs.flatMap (·.2)).Nodup) (s : Symbol) (n : TreeNode α) :
    t.symbolNode? s = some n ↔ n ∈ t.nodes ∧ n.symbol? = some s := by
  constructor
  · intro found
    rw [symbolNode?] at found
    have shown := List.find?_some found
    exact ⟨List.mem_of_find?_eq_some found, of_decide_eq_true shown⟩
  · rintro ⟨member, shown⟩
    rw [← laid.filterMap_symbol, List.Nodup, List.pairwise_filterMap] at once
    refine find?_of_unique member (decide_eq_true shown) fun m other same => ?_
    by_contra apart
    have symm : Std.Symm fun n m : TreeNode α =>
        ∀ s, n.symbol? = some s → ∀ r, m.symbol? = some r → s ≠ r :=
      ⟨fun n m differ s first r second => (differ r second s first).symm⟩
    exact once.forall other member apart s (of_decide_eq_true same) s shown rfl

end LaidOut

theorem perm_groupsOf (p : Samples) (symbols : List Symbol) :
    ((groupsOf p symbols).flatMap (·.2)).Perm symbols := by
  rw [List.perm_iff_count]
  intro s
  have counted : ∀ xs : List Symbol,
      (xs.map fun x => if x = s then (1 : Int) else 0).sum = xs.count s := by
    intro xs
    induction xs with
    | nil => rfl
    | cons x xs ih => by_cases same : x = s <;> simp [same, ih, add_comm]
  have grouped := sum_groupsOf p symbols fun x => if x = s then 1 else 0
  rw [counted, List.map_congr_left fun g _ => counted g.2] at grouped
  rw [List.count_flatMap, ← Int.natCast_inj, Nat.cast_list_sum, List.map_map]
  exact grouped

theorem nodup_groupsOf (p : Samples) {symbols : List Symbol} (distinct : symbols.Nodup) :
    ((groupsOf p symbols).flatMap (·.2)).Nodup :=
  (perm_groupsOf p symbols).nodup_iff.2 distinct

theorem source_of_groupsOf {symbols : List Symbol} :
    ∀ g ∈ groupsOf p symbols, ∀ s ∈ g.2, s.source = g.1 := by
  intro g group s member
  obtain ⟨source, -, rfl⟩ := List.mem_map.1 group
  exact of_decide_eq_true (List.mem_filter.1 (List.mem_mergeSort.1 member)).2

theorem pairwise_sources (p : Samples) (symbols : List Symbol) :
    ((groupsOf p symbols).map (·.1)).Pairwise fun a b => pathKey a < pathKey b := by
  have sources := (symbols.map (·.source)).eraseDups.mergeSort_perm sourceInOrder
  have distinct := sources.nodup_iff.2 (nodup_eraseDups (symbols.map (·.source)))
  have sorted := orderedBy_sourceInOrder.pairwise_mergeSort (symbols.map (·.source)).eraseDups
  rw [groupsOf, List.map_map, Function.comp_def, List.map_id']
  exact (sorted.and distinct).imp fun order => order.1.lt_of_ne (pathKey_injective.ne order.2)

theorem pairwise_members {symbols : List Symbol} (group : g ∈ numbered 1 (groupsOf p symbols)) :
    (symbolNodes p nodes total g).Pairwise TreeNode.Precedes := by
  obtain ⟨source, -, same⟩ := List.mem_map.1 (mem_of_numbered group)
  have sorted := (orderedBy_symbolInOrder p).pairwise_mergeSort
    (symbols.filter (·.source = source))
  rw [(Prod.mk.inj same).2, List.pairwise_map] at sorted
  refine List.pairwise_map.2 (sorted.imp fun {a b} order => ?_)
  simp only [Prod.Lex.toLex_le_toLex, neg_lt_neg_iff, neg_inj] at order
  simpa [TreeNode.Precedes] using order

/-! ## Trees as arenas -/

theorem laidOut_assemble (p : Samples) (graph : Option (CallGraph α)) :
    (assemble p graph).LaidOut p (graphNodes graph)
      ((symbolsOf p (graphNodes graph)).map p.samples.count).sum
      (groupsOf p (symbolsOf p (graphNodes graph))) :=
  rfl

theorem shows_assemble (p : Samples) (graph : Option (CallGraph α)) :
    (assemble p graph).Shows p graph := by
  have laid := laidOut_assemble p graph
  have symbols := perm_groupsOf p (symbolsOf p (graphNodes graph))
  have once := nodup_groupsOf p (nodup_eraseDups _ : (symbolsOf p (graphNodes graph)).Nodup)
  refine ⟨?_, fun s => ?_, laid.symbolNode?_eq_some_iff once, ?_, fun f file => ?_,
    fun n member s shown => ?_, fun f file => ?_, fun r member role => ?_⟩
  · rw [laid.filterMap_symbol]
    exact once
  · rw [laid.filterMap_symbol, symbols.mem_iff, mem_symbolsOf_iff]
  · rw [laid.files_eq, List.map_map]
    have sources := pairwise_sources p (symbolsOf p (graphNodes graph))
    rw [← sources_numbered 1] at sources
    exact sources
  · rw [laid.files_eq] at file
    obtain ⟨g, group, rfl⟩ := List.mem_map.1 file
    rw [laid.childrenOf_file group]
    exact pairwise_members group
  · obtain rfl | ⟨g, -, rfl | ⟨m, -, rfl⟩⟩ := laid.mem_nodes.1 member
    · cases shown
    · cases shown
    · obtain rfl : m.2 = s := Option.some.inj ((symbol?_symbolNode ..).symm.trans shown)
      exact ⟨rfl, rfl⟩
  · rw [laid.files_eq] at file
    obtain ⟨g, group, rfl⟩ := List.mem_map.1 file
    rw [laid.childrenOf_file group, symbolNodes, List.map_map, List.map_map]
    exact ⟨rfl, rfl⟩
  · obtain rfl | ⟨g, -, rfl | ⟨m, -, rfl⟩⟩ := laid.mem_nodes.1 member
    · rw [laid.files_eq, List.map_map]
      exact (sum_members p _ p.samples.count).symm
    · cases role
    · obtain ⟨_, _, _, other⟩ := role_symbolNode p (graphNodes graph) _ g.id m.1 m.2
      cases other.symm.trans role

/-- What is built is an arena of the symbols that have samples or calls. Nothing is built only if
    a number is too great, which an exact fraction never is. -/
theorem build_isArena :
    (∀ (α : Type) [Times α] (p : Samples) (graph : Option (CallGraph α)),
      match build p graph with
      | .ok t => t.IsArena ∧ t.Shows p graph
      | .error fault => fault = .overflow ∧ ∃ n ∈ (assemble p graph).nodes, n.fits = false) ∧
    ∀ (p : Samples) (graph : Option (CallGraph Rat)), ∃ t, build p graph = .ok t := by
  refine ⟨fun α _ p graph => ?_, fun p graph => ⟨_, build_exact p graph⟩⟩
  have arena := (laidOut_assemble p graph).isArena source_of_groupsOf
  by_cases fits : (assemble p graph).nodes.all (·.fits)
  · rw [build, if_pos fits]
    exact ⟨arena, shows_assemble p graph⟩
  · rw [build, if_neg fits]
    refine ⟨rfl, ?_⟩
    simpa using fits

end Tree

end CallProfile
