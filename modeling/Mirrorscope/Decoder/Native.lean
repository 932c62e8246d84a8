import Mirrorscope.Decoder.Flatten

/-! # Threads as tasks

The decoder for a program about whose language nothing is known: every thread is a root task
with the thread's number, and nothing more is claimed of it.
-/

namespace Mirrorscope.Decoder

namespace NativeThreadsDecoder

/-- A task has the number of its thread. -/
def threadFor (task : TaskId) : ThreadId := ⟨task.raw⟩

/-- The task of a thread. -/
def threadNode (thread : ThreadId) : TaskNode where
  id := ⟨thread.raw⟩
  name := "thread " ++ toString thread.raw
  kind := .thread
  state := .running
  parent := none

def decodeTasks (view : ProcessView) : Except DecoderError TaskTree :=
  TaskTree.tryFromNodes (view.threadIds.map threadNode)

def logicalStack (view : ProcessView) (task : TaskId) : Except DecoderError (List LogicalFrame) :=
  match view.physicalFrames (threadFor task) with
  | .ok frames => .ok (frames.map .fromPhysical)
  | .error _ => .error (.unknownTask task)

/-- A thread has no wake cause; only whether there is such a thread is looked up. -/
def wakeCause (view : ProcessView) (task : TaskId) : Except DecoderError WakeCause :=
  match view.registers (threadFor task) with
  | .ok _ => .ok .unknown
  | .error _ => .error (.unknownTask task)

def localsAt (view : ProcessView) (task : TaskId) (_frame : LogicalFrame) :
    Except DecoderError (List Variable) :=
  match view.registers (threadFor task) with
  | .ok _ => .ok []
  | .error _ => .error (.unknownTask task)

def semantic : SemanticDecoder where
  decodeTasks := decodeTasks
  logicalStack := logicalStack
  wakeCause := wakeCause
  localsAt := localsAt

end NativeThreadsDecoder

/-- The decoder for a target whose binary is not at hand. -/
def selectDecoder : SemanticDecoder := NativeThreadsDecoder.semantic

namespace NativeThreadsDecoder

variable {view : ProcessView}

theorem logicalStack_ok {task : TaskId} {frames : List PhysicalFrame}
    (h : view.physicalFrames (threadFor task) = .ok frames) :
    logicalStack view task = .ok (frames.map .fromPhysical) := by
  rw [logicalStack, h]

/-- The threads are listed in the order of their numbers. -/
def Ascending (view : ProcessView) : Prop :=
  view.threadIds.Pairwise fun a b => a.raw < b.raw

/-- The tree that threads in order form: all of them are roots, in the same order. -/
theorem exists_tree (h : Ascending view) :
    ∃ tree, decodeTasks view = .ok tree ∧
      tree.roots = view.threadIds.map (fun thread => ⟨thread.raw⟩) ∧
      (∀ id, tree.children id = []) ∧
      ∀ thread ∈ view.threadIds, tree.node ⟨thread.raw⟩ = some (threadNode thread) := by
  have hsorted : (view.threadIds.map threadNode).Pairwise fun a b => a.id.raw < b.id.raw :=
    List.pairwise_map.mpr h
  have hdistinct : (view.threadIds.map threadNode).Pairwise fun a b => a.id ≠ b.id := by
    refine hsorted.imp ?_
    intro a b hlt heq
    rw [heq] at hlt
    exact UInt64.lt_irrefl _ hlt
  have hrootless : ∀ node ∈ view.threadIds.map threadNode, node.parent = none := by
    intro node hnode
    rcases List.mem_map.mp hnode with ⟨thread, -, rfl⟩
    rfl
  obtain ⟨tree, htree⟩ := TaskTree.tryFromNodes_ok_iff.mpr ⟨hdistinct, fun node hnode p hp => by
    rw [hrootless node hnode] at hp
    cases hp⟩
  obtain ⟨hroots, hchildren⟩ := TaskTree.order_of_siblings htree fun _ => hsorted.filter _
  refine ⟨tree, htree, ?_, ?_, ?_⟩
  · rw [hroots, List.filter_eq_self.mpr fun node hnode => by simp [hrootless node hnode],
      List.map_map]
    rfl
  · intro id
    rw [hchildren, List.filter_eq_nil_iff.mpr fun node hnode => by simp [hrootless node hnode]]
    rfl
  · intro thread hthread
    rw [TaskTree.node_tryFromNodes htree, TaskTree.find_eq_some_iff hdistinct]
    exact ⟨List.mem_map_of_mem hthread, rfl⟩

/-- Tasks without children are listed as they are. -/
theorem flattenPreorder_of_leaves {tree : TaskTree} (h : ∀ id, tree.children id = [])
    (depth : Nat) : tree.flattenPreorder (depth + 1) = some tree.roots := by
  have hpush (roots out : List TaskId) :
      roots.foldlM (fun out root => tree.pushPreorder (depth + 1) root out) out =
        some (out ++ roots) := by
    induction roots generalizing out with
    | nil => simp
    | cons root roots ih =>
      rw [List.foldlM_cons, TaskTree.pushPreorder, h]
      refine (ih (out ++ [root])).trans ?_
      simp
  rw [TaskTree.flattenPreorder, hpush, List.nil_append]

end NativeThreadsDecoder

end Mirrorscope.Decoder
