import Mathlib.Data.List.Sort
import Mirrorscope.Decoder.Queries
import Mirrorscope.Lib.Forest

/-! # Flat task lists

A client renders a task tree as a flat list, parents first. A tree accepts every list of nodes
with different numbers and known parents, so a list in which parents form a cycle too: those
nodes hang from no root, and the flat list leaves them out. The roots and the children of a
node come in the order of their numbers, whatever the order in which the nodes were given.
-/

namespace Mirrorscope.Decoder

theorem TaskId.raw_inj {a b : TaskId} : a.raw = b.raw ↔ a = b := by
  cases a
  cases b
  simp

namespace TaskTree

/-- The number of tasks. -/
def len (tree : TaskTree) : Nat := tree.nodes.size

/-- List a task and all below it, for a recursion that goes `depth` calls deep; `none` where
it goes deeper. -/
def pushPreorder (tree : TaskTree) : Nat → TaskId → List TaskId → Option (List TaskId)
  | 0, _, _ => none
  | depth + 1, id, out =>
    (tree.children id).foldlM (fun out child => pushPreorder tree depth child out) (out ++ [id])

/-- The tasks in preorder, from each root in turn. -/
def flattenPreorder (tree : TaskTree) (depth : Nat) : Option (List TaskId) :=
  tree.roots.foldlM (fun out root => tree.pushPreorder depth root out) []

/-- The tasks a timeline shows for a flat list. -/
def taskTimeline (tree : TaskTree) (flat : List TaskId) : List (TaskId × TaskNode) :=
  flat.filterMap fun id => (tree.node id).map fun node => (id, node)

/-! ## What a list of nodes becomes -/

section Index

variable {nodes : List TaskNode} {tree : TaskTree}

/-- The node with the number has this parent. -/
def parentIn (nodes : List TaskNode) (id : TaskId) : Option TaskId :=
  (nodes.find? fun node => node.id = id).bind TaskNode.parent

/-- Linking nodes one by one hangs each under its parent, in order. -/
theorem foldlM_link {byId : KeyMap UInt64 TaskNode} {sorted : List TaskNode}
    {acc acc' : KeyMap UInt64 (List TaskId) × List TaskId}
    (h : sorted.foldlM (link byId) acc = .ok acc') :
    (∀ id : TaskId, (acc'.1[id.raw]?).getD [] = (acc.1[id.raw]?).getD [] ++
      (sorted.filter fun node => node.parent = some id).map TaskNode.id) ∧
    acc'.2 = acc.2 ++ (sorted.filter fun node => node.parent = none).map TaskNode.id ∧
    ∀ node ∈ sorted, ∀ p, node.parent = some p → byId[p.raw]?.isSome = true := by
  -- Node by node: each is a root, or the next child of a parent that is known.
  induction sorted generalizing acc with
  | nil =>
    rcases Except.ok.inj h with rfl
    simp
  | cons node sorted ih =>
    rw [List.foldlM_cons] at h
    rcases Effect.except_bind_ok h with ⟨acc₁, hlink, hrest⟩
    rcases ih hrest with ⟨hchildren, hroots, hknown⟩
    unfold link at hlink
    split at hlink
    · rename_i parent hparent
      split at hlink
      · rename_i hsome
        rcases Except.ok.inj hlink with rfl
        refine ⟨?_, ?_, ?_⟩
        · intro id
          rw [hchildren id, KeyMap.get_insert]
          by_cases hid : parent = id
          · subst hid
            simp [hparent]
          · have hraw : parent.raw ≠ id.raw := fun heq => hid (TaskId.raw_inj.mp heq)
            simp [hparent, hid, hraw]
        · simp [hroots, hparent]
        · intro other hother p hp
          rcases List.mem_cons.mp hother with rfl | hother
          · rcases Option.some.inj (hparent.symm.trans hp) with rfl
            exact hsome
          · exact hknown other hother p hp
      · cases hlink
    · rename_i hparent
      rcases Except.ok.inj hlink with rfl
      refine ⟨?_, ?_, ?_⟩
      · intro id
        simp [hchildren id, hparent]
      · simp [hroots, hparent]
      · intro other hother p hp
        rcases List.mem_cons.mp hother with rfl | hother
        · rw [hparent] at hp
          cases hp
        · exact hknown other hother p hp

/-- Where every parent is known, linking succeeds. -/
theorem foldlM_link_ok {byId : KeyMap UInt64 TaskNode} {sorted : List TaskNode}
    (h : ∀ node ∈ sorted, ∀ p, node.parent = some p → byId[p.raw]?.isSome = true)
    (acc : KeyMap UInt64 (List TaskId) × List TaskId) :
    ∃ acc', sorted.foldlM (link byId) acc = .ok acc' := by
  induction sorted generalizing acc with
  | nil => exact ⟨acc, rfl⟩
  | cons node sorted ih =>
    have hlink : ∃ acc₁, link byId acc node = .ok acc₁ := by
      unfold link
      cases hparent : node.parent with
      | none => exact ⟨_, rfl⟩
      | some p =>
        dsimp only
        rw [if_pos (h node List.mem_cons_self p hparent)]
        exact ⟨_, rfl⟩
    rcases hlink with ⟨acc₁, hlink⟩
    rcases ih (fun other hother => h other (List.mem_cons_of_mem node hother)) acc₁ with
      ⟨acc', hrest⟩
    exact ⟨acc', by rw [List.foldlM_cons, hlink, Effect.except_ok_bind, hrest]⟩

/-- Where the numbers differ, entering the nodes succeeds. -/
theorem foldlM_insertNode_ok (hnodes : nodes.Pairwise fun a b => a.id ≠ b.id)
    (byId : KeyMap UInt64 TaskNode) (h : ∀ node ∈ nodes, byId[node.id.raw]? = none) :
    ∃ byId', nodes.foldlM insertNode byId = .ok byId' := by
  induction nodes generalizing byId with
  | nil => exact ⟨byId, rfl⟩
  | cons node nodes ih =>
    rcases List.pairwise_cons.mp hnodes with ⟨hnew, hnodes⟩
    have hinsert : insertNode byId node = .ok (byId.insert node.id.raw node) := by
      rw [insertNode, h node List.mem_cons_self]
      rfl
    have hrest : ∀ other ∈ nodes, (byId.insert node.id.raw node)[other.id.raw]? = none := by
      intro other hother
      have hraw : node.id.raw ≠ other.id.raw :=
        fun heq => hnew other hother (TaskId.raw_inj.mp heq)
      rw [KeyMap.get_insert, if_neg hraw]
      exact h other (List.mem_cons_of_mem node hother)
    rcases ih hnodes _ hrest with ⟨byId', hbyId'⟩
    exact ⟨byId', by rw [List.foldlM_cons, hinsert, Effect.except_ok_bind, hbyId']⟩

theorem foldlM_insertNode_get {byId : KeyMap UInt64 TaskNode}
    (h : nodes.foldlM insertNode ∅ = .ok byId) (id : TaskId) :
    byId[id.raw]? = nodes.find? fun node => node.id = id := by
  rw [(foldlM_insertNode h id.raw).1, KeyMap.get_empty, Option.none_or]
  congr 1
  funext node
  cases node.id
  cases id
  simp

/-- In a list of nodes with different numbers, a number finds its node. -/
theorem find_eq_some_iff (h : nodes.Pairwise fun a b => a.id ≠ b.id) {id : TaskId}
    {node : TaskNode} :
    (nodes.find? fun node => node.id = id) = some node ↔ node ∈ nodes ∧ node.id = id :=
  KeyMap.find_key_iff h

/-- **What is accepted**: different numbers, and parents from the list. -/
theorem tryFromNodes_ok_iff :
    (∃ tree, tryFromNodes nodes = .ok tree) ↔ (nodes.Pairwise fun a b => a.id ≠ b.id) ∧
      ∀ node ∈ nodes, ∀ p, node.parent = some p → ∃ other ∈ nodes, other.id = p := by
  constructor
  · rintro ⟨tree, h⟩
    have hpairwise := pairwise_tryFromNodes h
    refine ⟨hpairwise, ?_⟩
    rcases Effect.except_bind_ok h with ⟨byId, hbyId, hrest⟩
    rcases Effect.except_bind_ok hrest with ⟨linked, hlinked, -⟩
    intro node hnode p hp
    have hmem : node ∈ byId.values := by
      rw [KeyMap.mem_values_iff]
      exact ⟨node.id.raw, by
        rw [foldlM_insertNode_get hbyId, find_eq_some_iff hpairwise]
        exact ⟨hnode, rfl⟩⟩
    have hsome := (foldlM_link hlinked).2.2 node hmem p hp
    rw [foldlM_insertNode_get hbyId, Option.isSome_iff_exists] at hsome
    rcases hsome with ⟨other, hother⟩
    exact ⟨other, (find_eq_some_iff hpairwise).mp hother⟩
  · rintro ⟨hpairwise, hknown⟩
    rcases foldlM_insertNode_ok hpairwise ∅ (fun node _ => KeyMap.get_empty _) with
      ⟨byId, hbyId⟩
    have hparents : ∀ node ∈ byId.values, ∀ p, node.parent = some p →
        byId[p.raw]?.isSome = true := by
      intro node hnode p hp
      rcases (KeyMap.mem_values_iff byId node).mp hnode with ⟨k, hk⟩
      have hfind := foldlM_insertNode_get hbyId ⟨k⟩
      rw [show byId[(⟨k⟩ : TaskId).raw]? = some node from hk] at hfind
      have hmem := ((find_eq_some_iff hpairwise).mp hfind.symm).1
      rcases hknown node hmem p hp with ⟨other, hother, hid⟩
      rw [foldlM_insertNode_get hbyId, (find_eq_some_iff hpairwise).mpr ⟨hother, hid⟩]
      rfl
    rcases foldlM_link_ok hparents (∅, []) with ⟨linked, hlinked⟩
    refine ⟨{ nodes := byId, childIds := linked.1, roots := linked.2 }, ?_⟩
    rw [tryFromNodes, hbyId, Effect.except_ok_bind, hlinked]
    rfl

/-- A tree goes through its nodes in the order of their numbers. -/
theorem exists_sorted (h : tryFromNodes nodes = .ok tree) :
    ∃ sorted : List TaskNode, sorted.Perm nodes ∧
      (sorted.Pairwise fun a b => a.id.raw < b.id.raw) ∧
      (∀ id, tree.children id = (sorted.filter fun node => node.parent = some id).map
        TaskNode.id) ∧
      tree.roots = (sorted.filter fun node => node.parent = none).map TaskNode.id ∧
      tree.len = sorted.length := by
  have hpairwise := pairwise_tryFromNodes h
  rcases Effect.except_bind_ok h with ⟨byId, hbyId, hrest⟩
  rcases Effect.except_bind_ok hrest with ⟨linked, hlinked, hpure⟩
  rcases Except.ok.inj hpure with rfl
  rcases foldlM_link hlinked with ⟨hchildren, hroots, -⟩
  -- The table lists the nodes by their numbers, so its values are the nodes in order.
  have hkey : ∀ (k : UInt64) (node : TaskNode), byId[k]? = some node → node.id.raw = k := by
    intro k node hk
    have hfind := foldlM_insertNode_get hbyId ⟨k⟩
    rw [show byId[(⟨k⟩ : TaskId).raw]? = some node from hk] at hfind
    exact congrArg TaskId.raw ((find_eq_some_iff hpairwise).mp hfind.symm).2
  have hsorted : byId.values.Pairwise fun a b => a.id.raw < b.id.raw :=
    (KeyMap.pairwise_values hkey).imp fun hlt => Std.compare_eq_lt.mp hlt
  refine ⟨byId.values, ?_, hsorted, ?_, ?_, ?_⟩
  · have hnodup : byId.values.Nodup := by
      refine hsorted.imp ?_
      rintro a b hlt rfl
      exact UInt64.lt_irrefl _ hlt
    have hnodup' : nodes.Nodup := by
      refine hpairwise.imp ?_
      rintro a b hne rfl
      exact hne rfl
    rw [List.perm_ext_iff_of_nodup hnodup hnodup']
    intro node
    rw [KeyMap.mem_values_iff]
    constructor
    · rintro ⟨k, hk⟩
      have hfind := foldlM_insertNode_get hbyId ⟨k⟩
      rw [show byId[(⟨k⟩ : TaskId).raw]? = some node from hk] at hfind
      exact ((find_eq_some_iff hpairwise).mp hfind.symm).1
    · intro hmem
      refine ⟨node.id.raw, ?_⟩
      rw [foldlM_insertNode_get hbyId, find_eq_some_iff hpairwise]
      exact ⟨hmem, rfl⟩
  · intro id
    rw [children, hchildren id, KeyMap.get_empty]
    rfl
  · exact hroots
  · rw [KeyMap.values_eq_map_toList, List.length_map, Std.ExtTreeMap.length_toList]
    rfl

/-- A node's parent is found under its number. -/
theorem parentIn_eq_some_iff (h : nodes.Pairwise fun a b => a.id ≠ b.id) {id p : TaskId} :
    parentIn nodes id = some p ↔ ∃ node ∈ nodes, node.id = id ∧ node.parent = some p := by
  rw [parentIn, Option.bind_eq_some_iff]
  constructor
  · rintro ⟨node, hfind, hp⟩
    rcases (find_eq_some_iff h).mp hfind with ⟨hmem, hid⟩
    exact ⟨node, hmem, hid, hp⟩
  · rintro ⟨node, hmem, hid, hp⟩
    exact ⟨node, (find_eq_some_iff h).mpr ⟨hmem, hid⟩, hp⟩

theorem parentIn_eq (h : nodes.Pairwise fun a b => a.id ≠ b.id) {node : TaskNode}
    (hnode : node ∈ nodes) : parentIn nodes node.id = node.parent := by
  rw [parentIn, (find_eq_some_iff h).mpr ⟨hnode, rfl⟩]
  rfl

/-- A tree indexes the parents of its nodes. -/
theorem index_tryFromNodes (h : tryFromNodes nodes = .ok tree) :
    Forest.Index (parentIn nodes) (nodes.map TaskNode.id) tree.children tree.roots := by
  have hpairwise := pairwise_tryFromNodes h
  have hknown := (tryFromNodes_ok_iff.mp ⟨tree, h⟩).2
  rcases exists_sorted h with ⟨sorted, hperm, hsorted, hchildren, hroots, -⟩
  -- different nodes have different numbers, so the lists of numbers have no duplicates
  have hnodup : ∀ keep : TaskNode → Bool, ((sorted.filter keep).map TaskNode.id).Nodup := by
    intro keep
    rw [List.Nodup, List.pairwise_map]
    refine (hsorted.filter keep).imp ?_
    intro a b hlt heq
    rw [heq] at hlt
    exact UInt64.lt_irrefl _ hlt
  refine ⟨?_, ?_, ?_, ?_, ?_⟩
  · intro p id hparent
    rcases (parentIn_eq_some_iff hpairwise).mp hparent with ⟨node, hnode, rfl, hp⟩
    rcases hknown node hnode p hp with ⟨other, hother, rfl⟩
    exact ⟨List.mem_map_of_mem hother, List.mem_map_of_mem hnode⟩
  · intro p id
    rw [hchildren, parentIn_eq_some_iff hpairwise]
    simp only [List.mem_map, List.mem_filter, hperm.mem_iff, decide_eq_true_eq]
    constructor
    · rintro ⟨node, ⟨hnode, hp⟩, hid⟩
      exact ⟨node, hnode, hid, hp⟩
    · rintro ⟨node, hnode, hid, hp⟩
      exact ⟨node, ⟨hnode, hp⟩, hid⟩
  · intro p
    rw [hchildren]
    exact hnodup _
  · intro id
    rw [hroots]
    simp only [List.mem_map, List.mem_filter, hperm.mem_iff, decide_eq_true_eq]
    constructor
    · rintro ⟨node, ⟨hnode, hp⟩, rfl⟩
      exact ⟨⟨node, hnode, rfl⟩, (parentIn_eq hpairwise hnode).trans hp⟩
    · rintro ⟨⟨node, hnode, rfl⟩, hp⟩
      exact ⟨node, ⟨hnode, (parentIn_eq hpairwise hnode).symm.trans hp⟩, rfl⟩
  · rw [hroots]
    exact hnodup _

theorem len_tryFromNodes (h : tryFromNodes nodes = .ok tree) : tree.len = nodes.length := by
  rcases exists_sorted h with ⟨sorted, hperm, -, -, -, hlen⟩
  rw [hlen, hperm.length_eq]

end Index

/-! ## Completeness -/

section Flatten

variable {nodes : List TaskNode} {tree : TaskTree}

theorem foldlM_push {push : TaskId → List TaskId → Option (List TaskId)}
    {visit : TaskId → Option (List TaskId)}
    (h : ∀ id out, push id out = (visit id).map (out ++ ·)) (ids out : List TaskId) :
    ids.foldlM (fun out id => push id out) out = (Forest.visitAll visit ids).map (out ++ ·) := by
  induction ids generalizing out with
  | nil => simp [Forest.visitAll]
  | cons id ids ih =>
    rw [List.foldlM_cons, Forest.visitAll, h id out]
    cases visit id with
    | none => rfl
    | some first =>
      show ids.foldlM (fun out id => push id out) (out ++ first) = _
      rw [ih]
      cases Forest.visitAll visit ids with
      | none => rfl
      | some rest => simp

theorem pushPreorder_eq (tree : TaskTree) (depth : Nat) (id : TaskId) (out : List TaskId) :
    tree.pushPreorder depth id out =
      (Forest.visit tree.children depth id).map (out ++ ·) := by
  induction depth generalizing id out with
  | zero => rfl
  | succ depth ih =>
    rw [pushPreorder, foldlM_push ih, Forest.visit]
    cases Forest.visitAll (Forest.visit tree.children depth) (tree.children id) with
    | none => rfl
    | some below => simp

theorem flattenPreorder_eq (tree : TaskTree) (depth : Nat) :
    tree.flattenPreorder depth =
      Forest.visitAll (Forest.visit tree.children depth) tree.roots := by
  rw [flattenPreorder, foldlM_push (pushPreorder_eq tree depth)]
  simp

/-- A flat list has every task once, and after its parent. -/
structure ListsEvery (nodes : List TaskNode) (tree : TaskTree) (flat : List TaskId) : Prop where
  all : ∀ node ∈ nodes, node.id ∈ flat
  once : flat.Nodup
  parentsFirst : flat.Each fun before id => ∀ p, parentIn nodes id = some p → p ∈ before
  length : tree.len = flat.length
  timeline : ∀ node ∈ nodes, (node.id, node) ∈ tree.taskTimeline flat

/-- **When the flat task list is complete.** Flattening always ends, and lists every task of an
accepted list once and after its parent exactly when the parents of every task lead to a task
without a parent. -/
theorem flatten_complete_iff (h : tryFromNodes nodes = .ok tree) :
    (∃ flat, (∀ depth, tree.len ≤ depth → tree.flattenPreorder depth = some flat) ∧
        ListsEvery nodes tree flat) ↔
      ∀ node ∈ nodes, Forest.Rooted (parentIn nodes) node.id := by
  have hindex := index_tryFromNodes h
  have hlen := len_tryFromNodes h
  rcases hindex.visitAll_roots with ⟨flat, hflat, hlisting⟩
  rw [List.length_map, ← hlen] at hflat
  have hmem : ∀ node ∈ nodes, node.id ∈ flat ↔ Forest.Rooted (parentIn nodes) node.id := by
    intro node hnode
    rw [hlisting.mem]
    exact hindex.above_root_iff (List.mem_map_of_mem hnode)
  constructor
  · rintro ⟨flat', hflat', hevery⟩ node hnode
    have hsame : flat' = flat := by
      have heq := hflat' tree.len (Nat.le_refl _)
      rw [flattenPreorder_eq, hflat tree.len (Nat.le_refl _)] at heq
      exact (Option.some.inj heq).symm
    rw [← hmem node hnode, ← hsame]
    exact hevery.all node hnode
  · intro hrooted
    have hall : ∀ node ∈ nodes, node.id ∈ flat := fun node hnode =>
      (hmem node hnode).mpr (hrooted node hnode)
    refine ⟨flat, ?_, hall, hlisting.nodup, ?_, ?_, ?_⟩
    · intro depth hdepth
      rw [flattenPreorder_eq]
      exact hflat depth hdepth
    · refine hlisting.first.imp ?_
      rintro before id (hroot | ⟨p, hp, hparent⟩) p' hp'
      · rw [((hindex.mem_roots id).mp hroot).2] at hp'
        cases hp'
      · rcases Option.some.inj (hparent.symm.trans hp') with rfl
        exact hp
    · -- the list is a permutation of the numbers
      have hperm : flat.Perm (nodes.map TaskNode.id) := by
        have hids : (nodes.map TaskNode.id).Nodup :=
          List.pairwise_map.mpr (pairwise_tryFromNodes h)
        rw [List.perm_ext_iff_of_nodup hlisting.nodup hids]
        intro id
        constructor
        · intro hid
          rcases (hlisting.mem id).mp hid with ⟨root, hroot, habove⟩
          rcases Relation.ReflTransGen.cases_tail habove with rfl | ⟨p, -, hparent⟩
          · exact ((hindex.mem_roots id).mp hroot).1
          · exact (hindex.known p id hparent).2
        · intro hid
          rcases List.mem_map.mp hid with ⟨node, hnode, rfl⟩
          exact hall node hnode
      rw [hperm.length_eq, List.length_map, hlen]
    · intro node hnode
      refine List.mem_filterMap.mpr ⟨node.id, hall node hnode, ?_⟩
      rw [node_tryFromNodes h,
        (find_eq_some_iff (pairwise_tryFromNodes h)).mpr ⟨hnode, rfl⟩]
      rfl

end Flatten

/-! ## Order -/

section Order

variable {nodes : List TaskNode} {tree : TaskTree}

/-- Nodes sorted by number are as they were given exactly when they were given sorted. -/
theorem filter_eq_iff {sorted : List TaskNode} (hperm : sorted.Perm nodes)
    (hsorted : sorted.Pairwise fun a b => a.id.raw < b.id.raw) (keep : TaskNode → Bool) :
    (sorted.filter keep).map TaskNode.id = (nodes.filter keep).map TaskNode.id ↔
      (nodes.filter keep).Pairwise fun a b => a.id.raw < b.id.raw := by
  constructor
  · intro heq
    have hids : ((sorted.filter keep).map TaskNode.id).Pairwise fun a b => a.raw < b.raw :=
      List.pairwise_map.mpr (hsorted.filter keep)
    rw [heq, List.pairwise_map] at hids
    exact hids
  · intro hgiven
    have heq : sorted.filter keep = nodes.filter keep := by
      refine (hperm.filter keep).eq_of_pairwise ?_ (hsorted.filter keep) hgiven
      intro a b _ _ hab hba
      exact absurd (UInt64.lt_trans hab hba) (UInt64.lt_irrefl _)
    rw [heq]

/-- Siblings that were given in the order of their numbers stay in the given order. -/
theorem order_of_siblings (h : tryFromNodes nodes = .ok tree)
    (hgiven : ∀ parent : Option TaskId,
      (nodes.filter fun node => node.parent = parent).Pairwise
        fun a b => a.id.raw < b.id.raw) :
    tree.roots = (nodes.filter fun node => node.parent = none).map TaskNode.id ∧
      ∀ id, tree.children id =
        (nodes.filter fun node => node.parent = some id).map TaskNode.id := by
  rcases exists_sorted h with ⟨sorted, hperm, hsorted, hchildren, hroots, -⟩
  constructor
  · exact hroots.trans ((filter_eq_iff hperm hsorted _).mpr (hgiven none))
  · intro id
    exact (hchildren id).trans ((filter_eq_iff hperm hsorted _).mpr (hgiven (some id)))

/-- **When a tree keeps the given order.** The roots and the children of every task come in
the order of the given list exactly when tasks with one parent, or without one, were given in
the order of their numbers. -/
theorem keeps_order_iff (h : tryFromNodes nodes = .ok tree) :
    (tree.roots = (nodes.filter fun node => node.parent = none).map TaskNode.id ∧
      ∀ id, tree.children id =
        (nodes.filter fun node => node.parent = some id).map TaskNode.id) ↔
    ∀ parent : Option TaskId,
      (nodes.filter fun node => node.parent = parent).Pairwise
        fun a b => a.id.raw < b.id.raw := by
  constructor
  · rintro ⟨hroots', hchildren'⟩ parent
    rcases exists_sorted h with ⟨sorted, hperm, hsorted, hchildren, hroots, -⟩
    rw [← filter_eq_iff hperm hsorted]
    cases parent with
    | none => exact hroots.symm.trans hroots'
    | some id => exact (hchildren id).symm.trans (hchildren' id)
  · exact order_of_siblings h

end Order

/-! ### Small trees -/

/-- A task that is ready to run. -/
def ready (id : UInt64) (parent : Option UInt64) : TaskNode where
  id := ⟨id⟩
  name := "task"
  kind := .asyncTask
  state := .runnable
  parent := parent.map TaskId.mk

theorem flatten_complete_branches :
    ∃ tree, tryFromNodes [ready 1 none, ready 2 (some 1), ready 3 (some 1)] = .ok tree ∧
      ∃ flat, (∀ depth, tree.len ≤ depth → tree.flattenPreorder depth = some flat) ∧
        ListsEvery [ready 1 none, ready 2 (some 1), ready 3 (some 1)] tree flat := by
  refine ⟨_, rfl, (flatten_complete_iff rfl).mpr ?_⟩
  intro node hnode
  simp only [List.mem_cons, List.not_mem_nil, or_false] at hnode
  have hroot : Forest.Level (parentIn [ready 1 none, ready 2 (some 1), ready 3 (some 1)]) 0 ⟨1⟩ :=
    .root (by decide)
  rcases hnode with rfl | rfl | rfl
  · exact ⟨0, hroot⟩
  · exact ⟨1, .child (by decide) hroot⟩
  · exact ⟨1, .child (by decide) hroot⟩

theorem keeps_order_branches :
    ∃ tree, tryFromNodes [ready 1 none, ready 2 (some 1), ready 3 (some 1)] = .ok tree ∧
      tree.children ⟨1⟩ = [⟨2⟩, ⟨3⟩] := by
  refine ⟨_, rfl, ?_⟩
  have hgiven : ∀ parent : Option TaskId,
      ([ready 1 none, ready 2 (some 1), ready 3 (some 1)].filter
        fun node => node.parent = parent).Pairwise fun a b => a.id.raw < b.id.raw := by
    intro parent
    refine List.Pairwise.filter _ ?_
    decide
  exact ((keeps_order_iff rfl).mpr hgiven).2 ⟨1⟩

/-- Branches given as 3 and 2 come out as 2 and 3. -/
theorem branches_reordered :
    ∃ tree, tryFromNodes [ready 1 none, ready 3 (some 1), ready 2 (some 1)] = .ok tree ∧
      tree.children ⟨1⟩ = [⟨2⟩, ⟨3⟩] ∧
      tree.children ⟨1⟩ ≠ ([ready 1 none, ready 3 (some 1), ready 2 (some 1)].filter
        fun node => node.parent = some ⟨1⟩).map TaskNode.id := by
  refine ⟨_, rfl, rfl, ?_⟩
  decide

end TaskTree

/-- A memory of zeros but for an `allgs` with goroutines 1 and 2, each created by the other. -/
def creatorCycle : ByteMemory :=
  let zeros : ByteMemory := fun _ => 0
  let header := zeros.write 0x10000 (LittleEndian.encode 8 0x20000 ++ LittleEndian.encode 8 2)
  let slots := header.write 0x20000
    (LittleEndian.encode 8 0x100000 ++ LittleEndian.encode 8 0x200000)
  let first := (slots.write (0x100000 + 160) (LittleEndian.encode 8 1)).write (0x100000 + 280)
    (LittleEndian.encode 8 2)
  (first.write (0x200000 + 160) (LittleEndian.encode 8 2)).write (0x200000 + 280)
    (LittleEndian.encode 8 1)

/-- Goroutines that created each other are in the tree, but not in the flat list. -/
theorem creator_cycle_lost :
    ∃ nodes tree, TaskTree.tryFromNodes nodes = .ok tree ∧
      go124.decodeTasks (memoryView creatorCycle) = .ok tree ∧ tree.len = 2 ∧
      (∀ depth, tree.flattenPreorder depth = some []) ∧
      ¬ ∃ flat, (∀ depth, tree.len ≤ depth → tree.flattenPreorder depth = some flat) ∧
        TaskTree.ListsEvery nodes tree flat := by
  have hdecode : ∃ tree, go124.decodeTasks (memoryView creatorCycle) = .ok tree ∧
      tree.len = 2 ∧ ∀ depth, tree.flattenPreorder depth = some [] :=
    ⟨_, rfl, rfl, fun depth => rfl⟩
  rcases hdecode with ⟨tree, hdecode, hlen, hnone⟩
  rcases Go.walk_of_decodeTasks hdecode with ⟨gs, -, htree⟩
  refine ⟨_, tree, htree, hdecode, hlen, hnone, ?_⟩
  rintro ⟨flat, hflat, hevery⟩
  have hnil : some flat = some [] := (hflat _ (Nat.le_refl _)).symm.trans (hnone _)
  have hlength := hevery.length
  rw [Option.some.inj hnil, hlen] at hlength
  cases hlength

end Mirrorscope.Decoder
