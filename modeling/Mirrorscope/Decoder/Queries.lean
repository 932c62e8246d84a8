import Mirrorscope.Decoder.Enumeration
import Mirrorscope.Decoder.Go
import Mirrorscope.Lib.ByteMemory

/-! # Per-task answers and the task tree

A client asks about a task by its number, and the decoder finds the task again in the target.
The answers agree with the tree when a number outside it is unknown, and when a number in it
leads to the same goroutine or coroutine the node was built from. The Tokio decoder agrees on
every memory. The goroutine decoder leaves system goroutines out of the tree, but finds them
when it is asked for their number.
-/

namespace Mirrorscope.Decoder

/-- What every decoder offers. -/
structure SemanticDecoder where
  decodeTasks : ProcessView → Except DecoderError TaskTree
  logicalStack : ProcessView → TaskId → Except DecoderError (List LogicalFrame)
  wakeCause : ProcessView → TaskId → Except DecoderError WakeCause
  localsAt : ProcessView → TaskId → LogicalFrame → Except DecoderError (List Variable)

def Go.GoroutineDecoder.semantic (decoder : Go.GoroutineDecoder) : SemanticDecoder where
  decodeTasks := decoder.decodeTasks
  logicalStack := decoder.logicalStack
  wakeCause := decoder.wakeCause
  localsAt := decoder.localsAt

def AsyncRust.TokioDecoder.semantic (decoder : AsyncRust.TokioDecoder) : SemanticDecoder where
  decodeTasks := decoder.decodeTasks
  logicalStack := decoder.logicalStack
  wakeCause := decoder.wakeCause
  localsAt := decoder.localsAt

/-- The answers for `task` agree with the tree. `sources` are what the tree was built from, one
by one; `node`, `stack` and `wake` say what is made of one of them. -/
structure Agrees {σ : Type} (decoder : SemanticDecoder) (view : ProcessView) (tree : TaskTree)
    (task : TaskId) (sources : List σ) (node : σ → TaskNode)
    (stack : σ → Except DecoderError (List LogicalFrame)) (wake : σ → WakeCause) : Prop where
  absent : tree.node task = none →
    decoder.logicalStack view task = .error (.unknownTask task) ∧
      decoder.wakeCause view task = .error (.unknownTask task) ∧
      ∀ frame, decoder.localsAt view task frame = .error (.unknownTask task)
  present : ∀ n, tree.node task = some n →
    ∃ before source after, sources = before ++ source :: after ∧
      (∀ other ∈ before, (node other).id ≠ task) ∧ n = node source ∧
      decoder.logicalStack view task = stack source ∧
      decoder.wakeCause view task = .ok (wake source) ∧
      ∀ frame, decoder.localsAt view task frame = .ok []

/-! ## Goroutines -/

namespace Go

theorem toUInt64_eq_iff (goid : Int64) (raw : UInt64) :
    goid.toUInt64 = raw ↔ goid = raw.toInt64 := by
  constructor
  · rintro rfl
    exact (Int64.toInt64_toUInt64 goid).symm
  · rintro rfl
    exact UInt64.toUInt64_toInt64 raw

theorem nodeFor_id (g : GoroutineInfo) (live : List Int64) (task : TaskId) :
    (nodeFor g live).id = task ↔ g.goid = task.raw.toInt64 := by
  rw [← toUInt64_eq_iff]
  cases task
  simp [nodeFor]

/-- The node of a positive number is made from the first goroutine that has it. -/
theorem find_taskNodes {live seen : List Int64} {gs : List GoroutineInfo} {task : TaskId}
    (hpos : 0 < task.raw.toInt64) (hseen : task.raw.toInt64 ∉ seen) :
    (GoroutineDecoder.taskNodes live seen gs).find? (fun n => n.id = task) =
      (gs.find? fun g => g.goid = task.raw.toInt64).map (nodeFor · live) := by
  induction gs generalizing seen with
  | nil => rfl
  | cons g gs ih =>
    unfold GoroutineDecoder.taskNodes
    by_cases hgoid : g.goid = task.raw.toInt64
    · -- `g` has the number, which is positive and not taken
      have hkeep : ¬ (g.goid ≤ 0 ∨ g.goid ∈ seen) := by
        rw [hgoid, not_or, Int64.not_le]
        exact ⟨hpos, hseen⟩
      rw [if_neg hkeep]
      simp [nodeFor_id, hgoid]
    · split
      · rw [ih hseen]
        simp [hgoid]
      · have hseen' : task.raw.toInt64 ∉ g.goid :: seen := by
          rw [List.mem_cons, not_or]
          exact ⟨fun h => hgoid h.symm, hseen⟩
        simp only [List.find?_cons, nodeFor_id, hgoid, decide_false]
        exact ih hseen'

/-- No other number is in the tree. -/
theorem taskNodes_pos {live seen : List Int64} {gs : List GoroutineInfo} {n : TaskNode}
    (h : n ∈ GoroutineDecoder.taskNodes live seen gs) : 0 < n.id.raw.toInt64 := by
  induction gs generalizing seen with
  | nil => cases h
  | cons g gs ih =>
    unfold GoroutineDecoder.taskNodes at h
    split at h
    · exact ih h
    · rename_i hkeep
      rcases List.mem_cons.mp h with rfl | h
      · rw [not_or, Int64.not_le] at hkeep
        simpa [nodeFor] using hkeep.1
      · exact ih h

variable {decoder : GoroutineDecoder} {view : ProcessView} {tree : TaskTree}
  {gs : List GoroutineInfo} {task : TaskId}

theorem walk_of_decodeTasks (h : decoder.decodeTasks view = .ok tree) :
    ∃ gs, walkGoroutines view decoder.layout = .ok gs ∧
      TaskTree.tryFromNodes (GoroutineDecoder.taskNodes (GoroutineDecoder.liveIds gs) [] gs) =
        .ok tree :=
  Effect.except_bind_ok h

theorem goroutine_eq (hwalk : walkGoroutines view decoder.layout = .ok gs) :
    decoder.goroutine view task =
      match gs.find? fun g => g.goid = task.raw.toInt64 with
      | some g => .ok g
      | none => .error (.unknownTask task) := by
  rw [GoroutineDecoder.goroutine, hwalk]
  rfl

/-- The answers for a goroutine that is found. -/
theorem queries_found {g : GoroutineInfo} (hwalk : walkGoroutines view decoder.layout = .ok gs)
    (hfind : (gs.find? fun g => g.goid = task.raw.toInt64) = some g) :
    decoder.logicalStack view task = stackOf view g ∧
      decoder.wakeCause view task = .ok (wakeOf g) ∧
      ∀ frame, decoder.localsAt view task frame = .ok [] := by
  have hg : decoder.goroutine view task = .ok g := by rw [goroutine_eq hwalk, hfind]
  constructor
  · rw [GoroutineDecoder.logicalStack, hg]
    rfl
  constructor
  · rw [GoroutineDecoder.wakeCause, hg]
    rfl
  · intro frame
    rw [GoroutineDecoder.localsAt, hg]
    rfl

/-- The answers for a number no goroutine has. -/
theorem queries_unknown (hwalk : walkGoroutines view decoder.layout = .ok gs)
    (hfind : (gs.find? fun g => g.goid = task.raw.toInt64) = none) :
    decoder.logicalStack view task = .error (.unknownTask task) ∧
      decoder.wakeCause view task = .error (.unknownTask task) ∧
      ∀ frame, decoder.localsAt view task frame = .error (.unknownTask task) := by
  have hg : decoder.goroutine view task = .error (.unknownTask task) := by
    rw [goroutine_eq hwalk, hfind]
  constructor
  · rw [GoroutineDecoder.logicalStack, hg]
    rfl
  constructor
  · rw [GoroutineDecoder.wakeCause, hg]
    rfl
  · intro frame
    rw [GoroutineDecoder.localsAt, hg]
    rfl

/-- The tree has the goroutines with a positive number. -/
theorem node_decodeTasks
    (h : TaskTree.tryFromNodes (GoroutineDecoder.taskNodes (GoroutineDecoder.liveIds gs) [] gs) =
      .ok tree) :
    tree.node task =
      if 0 < task.raw.toInt64 then
        (gs.find? fun g => g.goid = task.raw.toInt64).map
          (nodeFor · (GoroutineDecoder.liveIds gs))
      else none := by
  rw [TaskTree.node_tryFromNodes h]
  split
  · rename_i hpos
    exact find_taskNodes hpos (by simp)
  · rename_i hpos
    rw [List.find?_eq_none]
    intro n hn heq
    have hid : n.id = task := by simpa using heq
    exact hpos (hid ▸ taskNodes_pos hn)

/-- The goroutine decoder agrees with its tree on a number exactly when it is not the number of
a system goroutine. -/
theorem agrees_iff (hwalk : walkGoroutines view decoder.layout = .ok gs)
    (htree : TaskTree.tryFromNodes
      (GoroutineDecoder.taskNodes (GoroutineDecoder.liveIds gs) [] gs) = .ok tree) :
    Agrees decoder.semantic view tree task gs (nodeFor · (GoroutineDecoder.liveIds gs))
        (stackOf view) wakeOf ↔
      ¬ (task.raw.toInt64 ≤ 0 ∧ ∃ g ∈ gs, g.goid = task.raw.toInt64) := by
  have hnode := @node_decodeTasks tree gs task htree
  constructor
  · rintro hagrees ⟨hneg, g, hg, hgoid⟩
    rw [if_neg (Int64.not_lt.mpr hneg)] at hnode
    -- a goroutine has the number, so the answers are not refusals
    cases hfind : gs.find? fun g => g.goid = task.raw.toInt64 with
    | none => exact absurd hgoid (by simpa using List.find?_eq_none.mp hfind g hg)
    | some found =>
      have hrefused := (hagrees.absent hnode).2.1
      have hanswered := (queries_found hwalk hfind).2.1
      cases hrefused.symm.trans hanswered
  · intro hcond
    constructor
    · intro habsent
      apply queries_unknown hwalk
      rw [hnode] at habsent
      split at habsent
      · simpa using habsent
      · rename_i hpos
        rw [List.find?_eq_none]
        intro g hg heq
        exact hcond ⟨Int64.not_lt.mp hpos, g, hg, by simpa using heq⟩
    · intro n hpresent
      rw [hnode] at hpresent
      split at hpresent
      · obtain ⟨g, hfind, rfl⟩ := Option.map_eq_some_iff.mp hpresent
        obtain ⟨-, before, after, rfl, hbefore⟩ := List.find?_eq_some_iff_append.mp hfind
        refine ⟨before, g, after, rfl, ?_, rfl, queries_found hwalk hfind⟩
        intro other hother hid
        simpa [(nodeFor_id other _ task).mp hid] using hbefore other hother
      · cases hpresent

end Go

/-! ## Async Rust tasks -/

namespace AsyncRust

variable {decoder : TokioDecoder} {view : ProcessView} {tree : TaskTree}
  {nodes : List DecodedNode} {task : TaskId}

theorem enumerate_of_decodeTasks (h : decoder.decodeTasks view = .ok tree) :
    ∃ nodes, decoder.enumerate view = .ok nodes ∧
      TaskTree.tryFromNodes (nodes.map TokioDecoder.taskNode) = .ok tree :=
  Effect.except_bind_ok h

/-- The answers for a task of the walk. -/
theorem queries_found {n : DecodedNode} (hnodes : decoder.enumerate view = .ok nodes)
    (hfind : (nodes.find? fun n => n.id = task) = some n) :
    decoder.logicalStack view task = logicalStack view decoder.layouts n.base n.typeName ∧
      decoder.wakeCause view task = .ok n.wake ∧
      ∀ frame, decoder.localsAt view task frame = .ok [] := by
  have hn : TokioDecoder.nodeFor nodes task = .ok n := by
    rw [TokioDecoder.nodeFor, hfind]
    rfl
  constructor
  · rw [TokioDecoder.logicalStack, hnodes]
    change (TokioDecoder.nodeFor nodes task >>= _) = _
    rw [hn]
    rfl
  constructor
  · rw [TokioDecoder.wakeCause, hnodes]
    change (TokioDecoder.nodeFor nodes task >>= _) = _
    rw [hn]
    rfl
  · intro frame
    rw [TokioDecoder.localsAt, hnodes]
    change (TokioDecoder.nodeFor nodes task >>= _) = _
    rw [hn]
    rfl

/-- The answers for a number no task has. -/
theorem queries_unknown (hnodes : decoder.enumerate view = .ok nodes)
    (hfind : (nodes.find? fun n => n.id = task) = none) :
    decoder.logicalStack view task = .error (.unknownTask task) ∧
      decoder.wakeCause view task = .error (.unknownTask task) ∧
      ∀ frame, decoder.localsAt view task frame = .error (.unknownTask task) := by
  have hn : TokioDecoder.nodeFor nodes task = .error (.unknownTask task) := by
    rw [TokioDecoder.nodeFor, hfind]
    rfl
  constructor
  · rw [TokioDecoder.logicalStack, hnodes]
    change (TokioDecoder.nodeFor nodes task >>= _) = _
    rw [hn]
    rfl
  constructor
  · rw [TokioDecoder.wakeCause, hnodes]
    change (TokioDecoder.nodeFor nodes task >>= _) = _
    rw [hn]
    rfl
  · intro frame
    rw [TokioDecoder.localsAt, hnodes]
    change (TokioDecoder.nodeFor nodes task >>= _) = _
    rw [hn]
    rfl

/-- The Tokio decoder agrees with its tree on every number. -/
theorem agrees (hnodes : decoder.enumerate view = .ok nodes)
    (htree : TaskTree.tryFromNodes (nodes.map TokioDecoder.taskNode) = .ok tree) :
    Agrees decoder.semantic view tree task nodes TokioDecoder.taskNode
      (fun n => logicalStack view decoder.layouts n.base n.typeName) DecodedNode.wake := by
  have hnode : tree.node task =
      (nodes.find? fun n => n.id = task).map TokioDecoder.taskNode := by
    rw [TaskTree.node_tryFromNodes htree, List.find?_map]
    rfl
  constructor
  · intro habsent
    rw [hnode, Option.map_eq_none_iff] at habsent
    exact queries_unknown hnodes habsent
  · intro n hpresent
    rw [hnode] at hpresent
    obtain ⟨source, hfind, rfl⟩ := Option.map_eq_some_iff.mp hpresent
    obtain ⟨-, before, after, rfl, hbefore⟩ := List.find?_eq_some_iff_append.mp hfind
    refine ⟨before, source, after, rfl, ?_, rfl, queries_found hnodes hfind⟩
    intro other hother hid
    have hid' : other.id = task := hid
    simpa [hid'] using hbefore other hother

end AsyncRust

/-! ## Both decoders -/

/-- **When the per-task answers agree with the tree.** On every memory the goroutine decoder
decodes, its answers for a number agree with the tree exactly when the number, read as a signed
one, is not the number of a live system goroutine. The Tokio decoder's answers always agree, and
every task of its tree is decoded from one coroutine. -/
theorem queries_agree_iff (view : ProcessView) (tree : TaskTree) (task : TaskId) :
    (∀ decoder : Go.GoroutineDecoder, decoder.decodeTasks view = .ok tree →
      ∃ gs, Go.walkGoroutines view decoder.layout = .ok gs ∧
        (Agrees decoder.semantic view tree task gs
            (Go.nodeFor · (Go.GoroutineDecoder.liveIds gs)) (Go.stackOf view) Go.wakeOf ↔
          ¬ (task.raw.toInt64 ≤ 0 ∧ ∃ g ∈ gs, g.goid = task.raw.toInt64))) ∧
    (∀ decoder : AsyncRust.TokioDecoder, decoder.decodeTasks view = .ok tree →
      ∃ nodes, decoder.enumerate view = .ok nodes ∧
        (∀ n ∈ nodes, AsyncRust.Decoded view decoder.layouts n) ∧
        Agrees decoder.semantic view tree task nodes AsyncRust.TokioDecoder.taskNode
          (fun n => AsyncRust.logicalStack view decoder.layouts n.base n.typeName)
          AsyncRust.DecodedNode.wake) := by
  constructor
  · intro decoder h
    obtain ⟨gs, hwalk, htree⟩ := Go.walk_of_decodeTasks h
    exact ⟨gs, hwalk, Go.agrees_iff hwalk htree⟩
  · intro decoder h
    obtain ⟨nodes, hnodes, htree⟩ := AsyncRust.enumerate_of_decodeTasks h
    obtain ⟨roots, -, hcovered⟩ := AsyncRust.enumerate_covered hnodes
    exact ⟨nodes, hnodes, hcovered.decoded, AsyncRust.agrees hnodes htree⟩

/-! ### Small targets -/

/-- A process that is nothing but memory. -/
def memoryView (m : ByteMemory) : ProcessView where
  threadIds := []
  registers thread := .error (.unknownThread thread)
  readMemory addr len := .ok (m.range addr len)
  physicalFrames thread := .error (.unknownThread thread)
  threadPointer _ := .ok none
  executableBase := none

/-- The decoder for Go 1.24, with `runtime.allgs` at `0x10000`. -/
def go124 : Go.GoroutineDecoder where
  layout :=
    { ptrSize := 8, allgsAddr := 0x10000, loadBias := 0, mProcid := some 72
      g := { goid := 160, atomicstatus := 152, waitreason := 184, stackLo := 0, stackHi := 8,
             schedPc := 64, schedSp := 56, gopc := 288, startpc := 304, m := 48,
             parentGoid := some 280 } }

/-- A memory of zeros but for words of eight bytes. -/
def words (cells : List (UInt64 × Nat)) : ByteMemory :=
  cells.foldl (fun m cell => m.write cell.1 (LittleEndian.encode 8 cell.2)) fun _ => 0

/-- An `allgs` with one goroutine of the given number, in a memory of zeros. -/
def oneGoroutine (goid : Nat) : ByteMemory :=
  words [(0x10000, 0x20000), (0x10008, 1), (0x20000, 0x100000), (0x100000 + 160, goid)]

/-- Three goroutines, the last two created by the first; the second waits for a channel. -/
def family : ByteMemory :=
  words [(0x10000, 0x20000), (0x10008, 3), (0x20000, 0x100000), (0x20008, 0x100400),
    (0x20010, 0x100800), (0x100000 + 160, 1), (0x100400 + 160, 2), (0x100400 + 152, 4),
    (0x100400 + 184, 14), (0x100400 + 280, 1), (0x100800 + 160, 3), (0x100800 + 280, 1)]

/-- A decoder for two tasks, both with the future of `sleeper`. -/
def sleeperDecoder : AsyncRust.TokioDecoder where
  layouts := AsyncRust.AsyncLayouts.new.insert
    { typeName := "probe::sleeper::\x7basync_fn_env#0\x7d"
      discrOffset := 120
      discrSize := 1
      variants := (∅ : KeyMap UInt64 AsyncRust.VariantInfo).insert 0
        { kind := .unresumed, awaitLocation := none, awaitee := none, children := [] } }
  roots := [⟨1, 0x1000, "probe::sleeper::\x7basync_fn_env#0\x7d", none⟩,
    ⟨2, 0x2000, "probe::sleeper::\x7basync_fn_env#0\x7d", none⟩]
  plan := none

/-- The answers for goroutine 2 of three, and for task 2 of two. -/
theorem queries_agree_small :
    (∃ tree, go124.decodeTasks (memoryView family) = .ok tree ∧
      (∀ id ∈ [1, 2, 3], (tree.node ⟨id⟩).isSome) ∧
      ∃ gs, Go.walkGoroutines (memoryView family) go124.layout = .ok gs ∧
        (Agrees go124.semantic (memoryView family) tree ⟨2⟩ gs
            (Go.nodeFor · (Go.GoroutineDecoder.liveIds gs))
            (Go.stackOf (memoryView family)) Go.wakeOf ↔
          ¬ ((2 : UInt64).toInt64 ≤ 0 ∧ ∃ g ∈ gs, g.goid = (2 : UInt64).toInt64))) ∧
    ∃ tree, sleeperDecoder.decodeTasks (memoryView fun _ => 0) = .ok tree ∧
      (∀ id ∈ [1, 2], (tree.node ⟨id⟩).isSome) ∧
      ∃ nodes, sleeperDecoder.enumerate (memoryView fun _ => 0) = .ok nodes ∧
        (∀ n ∈ nodes, AsyncRust.Decoded (memoryView fun _ => 0) sleeperDecoder.layouts n) ∧
        Agrees sleeperDecoder.semantic (memoryView fun _ => 0) tree ⟨2⟩ nodes
          AsyncRust.TokioDecoder.taskNode
          (fun n => AsyncRust.logicalStack (memoryView fun _ => 0) sleeperDecoder.layouts n.base
            n.typeName)
          AsyncRust.DecodedNode.wake := by
  obtain ⟨goTree, hgo, hgoIds⟩ : ∃ tree, go124.decodeTasks (memoryView family) = .ok tree ∧
      ∀ id ∈ [1, 2, 3], (tree.node ⟨id⟩).isSome := by
    refine ⟨_, rfl, ?_⟩
    simp only [List.forall_mem_cons]
    exact ⟨rfl, rfl, rfl, List.forall_mem_nil _⟩
  obtain ⟨tree, hrust, hrustIds⟩ : ∃ tree,
      sleeperDecoder.decodeTasks (memoryView fun _ => 0) = .ok tree ∧
        ∀ id ∈ [1, 2], (tree.node ⟨id⟩).isSome := by
    refine ⟨_, rfl, ?_⟩
    simp only [List.forall_mem_cons]
    exact ⟨rfl, rfl, List.forall_mem_nil _⟩
  exact ⟨⟨goTree, hgo, hgoIds, (queries_agree_iff _ goTree ⟨2⟩).1 go124 hgo⟩,
    tree, hrust, hrustIds, (queries_agree_iff _ tree ⟨2⟩).2 sleeperDecoder hrust⟩

/-- A goroutine with number 0 is not in the tree, yet task 0 has an answer. -/
theorem system_goroutine_answered :
    ¬ ∀ (decoder : Go.GoroutineDecoder) (view : ProcessView) (tree : TaskTree) (task : TaskId),
      decoder.decodeTasks view = .ok tree → tree.node task = none →
        decoder.wakeCause view task = .error (.unknownTask task) := by
  intro h
  have hrefused := h go124 (memoryView (oneGoroutine 0)) _ ⟨0⟩ rfl rfl
  cases hrefused

end Mirrorscope.Decoder
