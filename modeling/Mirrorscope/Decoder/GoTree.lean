import Mirrorscope.Decoder.Flatten

/-! # The goroutine tree

The tree of a Go process has the user goroutines, each under its number. The list it is built
from is filtered, freed of repeated numbers and given parents in separate passes; that the passes
agree is why the tree is never refused.
-/

namespace Mirrorscope.Decoder.Go

variable {live seen : List Int64} {gs : List GoroutineInfo} {g : GoroutineInfo} {n : TaskNode}
  {decoder : GoroutineDecoder} {view : ProcessView}

/-- A number that is taken gets no other node. -/
theorem taskNodes_fresh (h : n ∈ GoroutineDecoder.taskNodes live seen gs) :
    n.id.raw.toInt64 ∉ seen := by
  induction gs generalizing seen with
  | nil => cases h
  | cons g gs ih =>
    unfold GoroutineDecoder.taskNodes at h
    split at h
    · exact ih h
    · rename_i hkeep
      rw [not_or] at hkeep
      rcases List.mem_cons.mp h with rfl | h
      · simpa [nodeFor] using hkeep.2
      · exact fun hseen => ih h (List.mem_cons_of_mem _ hseen)

/-- The nodes have different numbers. -/
theorem taskNodes_pairwise :
    (GoroutineDecoder.taskNodes live seen gs).Pairwise fun a b => a.id ≠ b.id := by
  induction gs generalizing seen with
  | nil => exact .nil
  | cons g gs ih =>
    unfold GoroutineDecoder.taskNodes
    split
    · exact ih
    · refine .cons ?_ ih
      intro other hother hid
      have hfresh := taskNodes_fresh hother
      rw [← hid] at hfresh
      exact hfresh (by simp [nodeFor])

/-- Every node is that of a goroutine of the list. -/
theorem exists_of_mem_taskNodes (h : n ∈ GoroutineDecoder.taskNodes live seen gs) :
    ∃ g ∈ gs, n = nodeFor g live := by
  induction gs generalizing seen with
  | nil => cases h
  | cons g gs ih =>
    unfold GoroutineDecoder.taskNodes at h
    split at h
    · obtain ⟨g', hg', hn⟩ := ih h
      exact ⟨g', List.mem_cons_of_mem _ hg', hn⟩
    · rcases List.mem_cons.mp h with rfl | h
      · exact ⟨g, List.mem_cons_self, rfl⟩
      · obtain ⟨g', hg', hn⟩ := ih h
        exact ⟨g', List.mem_cons_of_mem _ hg', hn⟩

theorem mem_liveIds {goid : Int64} :
    goid ∈ GoroutineDecoder.liveIds gs ↔ 0 < goid ∧ ∃ g ∈ gs, g.goid = goid := by
  simp [GoroutineDecoder.liveIds, and_comm]

/-- Every positive number of a goroutine has its node. -/
theorem exists_node {goid : Int64} (hpos : 0 < goid) (h : ∃ g ∈ gs, g.goid = goid) :
    ∃ n ∈ GoroutineDecoder.taskNodes live [] gs, n.id = ⟨goid.toUInt64⟩ := by
  have hraw : (⟨goid.toUInt64⟩ : TaskId).raw.toInt64 = goid := Int64.toInt64_toUInt64 goid
  have hfind := @find_taskNodes live [] gs ⟨goid.toUInt64⟩ (by rw [hraw]; exact hpos) (by simp)
  rw [hraw] at hfind
  cases hfound : gs.find? fun g => g.goid = goid with
  | none =>
    obtain ⟨g, hg, hgoid⟩ := h
    exact absurd hgoid (by simpa using List.find?_eq_none.mp hfound g hg)
  | some g =>
    rw [hfound] at hfind
    exact ⟨_, List.mem_of_find?_eq_some hfind, by simpa using List.find?_some hfind⟩

/-- When the parent of a goroutine is set, and to what. -/
theorem nodeFor_parent_iff (g : GoroutineInfo) (p : TaskId) :
    (nodeFor g (GoroutineDecoder.liveIds gs)).parent = some p ↔
      ∃ creator, g.parentGoid = some creator ∧ 0 < creator ∧ creator ≠ g.goid ∧
        (∃ other ∈ gs, other.goid = creator) ∧ p = ⟨creator.toUInt64⟩ := by
  rw [nodeFor, Option.map_eq_some_iff]
  constructor
  · rintro ⟨creator, hfilter, rfl⟩
    rw [Option.filter_eq_some_iff] at hfilter
    obtain ⟨hparent, hlive⟩ := hfilter
    simp only [Bool.and_eq_true, decide_eq_true_eq, List.contains_iff_mem, mem_liveIds] at hlive
    exact ⟨creator, hparent, hlive.1.1, hlive.1.2, hlive.2.2, rfl⟩
  · rintro ⟨creator, hparent, hpos, hne, hother, rfl⟩
    refine ⟨creator, ?_, rfl⟩
    rw [Option.filter_eq_some_iff]
    refine ⟨hparent, ?_⟩
    simp only [Bool.and_eq_true, decide_eq_true_eq, List.contains_iff_mem, mem_liveIds]
    exact ⟨⟨hpos, hne⟩, hpos, hother⟩

/-- The passes agree: the list of nodes makes a tree. -/
theorem exists_tree (gs : List GoroutineInfo) :
    ∃ tree, TaskTree.tryFromNodes
      (GoroutineDecoder.taskNodes (GoroutineDecoder.liveIds gs) [] gs) = .ok tree := by
  rw [TaskTree.tryFromNodes_ok_iff]
  refine ⟨taskNodes_pairwise, ?_⟩
  intro node hnode p hp
  obtain ⟨g, -, rfl⟩ := exists_of_mem_taskNodes hnode
  obtain ⟨creator, -, hpos, -, hother, rfl⟩ := (nodeFor_parent_iff g p).mp hp
  exact exists_node hpos hother

/-- **The goroutine tree is faithful.** Where the walk succeeds the tree does. Its nodes are
the different positive numbers of goroutines; each has the state of the first goroutine with its
number, and a parent exactly where the creator of that goroutine has a positive number, another
one, that some goroutine of the walk has. -/
theorem decodeTasks_faithful (hwalk : walkGoroutines view decoder.layout = .ok gs) :
    ∃ tree, decoder.decodeTasks view = .ok tree ∧
      (∀ task : TaskId, (tree.node task).isSome ↔
        0 < task.raw.toInt64 ∧ ∃ g ∈ gs, g.goid = task.raw.toInt64) ∧
      ∀ task n, tree.node task = some n → n.id = task ∧
        ∃ before g after, gs = before ++ g :: after ∧ g.goid = task.raw.toInt64 ∧
          (∀ earlier ∈ before, earlier.goid ≠ g.goid) ∧ n.state = g.state ∧
          ∀ p, n.parent = some p ↔
            ∃ creator, g.parentGoid = some creator ∧ 0 < creator ∧ creator ≠ g.goid ∧
              (∃ other ∈ gs, other.goid = creator) ∧ p = ⟨creator.toUInt64⟩ := by
  obtain ⟨tree, htree⟩ := exists_tree gs
  refine ⟨tree, ?_, ?_, ?_⟩
  · rw [GoroutineDecoder.decodeTasks, hwalk]
    exact htree
  · intro task
    rw [node_decodeTasks htree]
    split
    · rename_i hpos
      simp [hpos]
    · rename_i hpos
      simp [hpos]
  · intro task n hn
    rw [node_decodeTasks htree] at hn
    split at hn
    · obtain ⟨g, hfind, rfl⟩ := Option.map_eq_some_iff.mp hn
      obtain ⟨hgoid, before, after, hgs, hbefore⟩ := List.find?_eq_some_iff_append.mp hfind
      have hgoid : g.goid = task.raw.toInt64 := by simpa using hgoid
      refine ⟨(nodeFor_id g _ task).mpr hgoid, before, g, after, hgs, hgoid, ?_, rfl,
        nodeFor_parent_iff g⟩
      intro earlier hearlier heq
      rw [hgoid] at heq
      simpa [heq] using hbefore earlier hearlier
    · cases hn

/-- Goroutines that created each other, and the tree they make. -/
theorem decodeTasks_faithful_creatorCycle :
    ∃ gs tree, walkGoroutines (memoryView creatorCycle) go124.layout = .ok gs ∧
      go124.decodeTasks (memoryView creatorCycle) = .ok tree ∧
      (tree.node ⟨1⟩).isSome ∧ (tree.node ⟨2⟩).isSome := by
  obtain ⟨gs, hwalk⟩ : ∃ gs, walkGoroutines (memoryView creatorCycle) go124.layout = .ok gs :=
    ⟨_, rfl⟩
  obtain ⟨tree, htree, -, -⟩ := decodeTasks_faithful hwalk
  obtain ⟨tree', htree', hone, htwo⟩ : ∃ tree,
      go124.decodeTasks (memoryView creatorCycle) = .ok tree ∧ (tree.node ⟨1⟩).isSome ∧
        (tree.node ⟨2⟩).isSome := ⟨_, rfl, rfl, rfl⟩
  rw [htree] at htree'
  rcases Except.ok.inj htree' with rfl
  exact ⟨gs, tree, hwalk, htree, hone, htwo⟩

end Mirrorscope.Decoder.Go
