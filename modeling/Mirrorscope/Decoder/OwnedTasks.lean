import Mirrorscope.Decoder.Queries

/-! # The tasks a Tokio runtime owns

From the `CONTEXT` of a thread the walk follows the scheduler handle to the sharded list of
owned tasks, and through each shard the intrusive list of task headers. Where the next link of a
task is, only the task's own vtable says. Nothing is known of the memory: a list may lead
anywhere, and only the bound on the number of tasks ends the walk.
-/

namespace Mirrorscope.Decoder.AsyncRust

/-! ## Errors -/

/-- A Tokio version. -/
structure TokioVersion where
  major : UInt16
  minor : UInt16
  patch : UInt16
deriving DecidableEq, Repr

/-- Why the live tasks of a process cannot be listed. -/
inductive EnumerateError where
  | unsupportedTokioVersion (version : TokioVersion)
  | tokioVersionUnknown
  | contextSymbolMissing
  | threadPointerUnavailable
  | loadBaseUnavailable
  | implausibleRuntime (reason : String)
  | noRuntimeHandle
  | noDebugInfo
  | parse (reason : String)
deriving DecidableEq, Repr

/-! ## Layout -/

/-- Where the fields of the runtime's private structures are. -/
structure TokioRuntimeLayout where
  contextCurrent : UInt64
  handleCellValue : UInt64
  arcData : UInt64
  handleShared : UInt64
  sharedOwned : UInt64
  ownedList : UInt64
  shardedLists : UInt64
  shardStride : UInt64
  mutexData : UInt64
  listHead : UInt64
  headerVtable : UInt64
  vtablePoll : UInt64
  vtableTrailerOffset : UInt64
  trailerOwnedNext : UInt64
  futureOffset : UInt64
deriving DecidableEq, Repr

/-- The layout of the current-thread scheduler of Tokio 1.44. -/
def tokio144 : TokioRuntimeLayout where
  contextCurrent := 8
  handleCellValue := 8
  arcData := 16
  handleShared := 0
  sharedOwned := 104
  ownedList := 0
  shardedLists := 0
  shardStride := 24
  mutexData := 8
  listHead := 0
  headerVtable := 16
  vtablePoll := 0
  vtableTrailerOffset := 56
  trailerOwnedNext := 8
  futureOffset := 56

/-- The layout of a version that has been verified. -/
def TokioRuntimeLayout.vendored (version : TokioVersion) :
    Except EnumerateError TokioRuntimeLayout :=
  if version.major = 1 ∧ version.minor = 44 then .ok tokio144
  else .error (.unsupportedTokioVersion version)

/-! ## The walk -/

def maxShards : UInt64 := (1 : UInt64) <<< 16

/-- How many tasks the walk lists at most. -/
def maxOwnedTasks : Nat := 1 <<< 20

/-- One task the walk has found. -/
structure RawTask where
  header : UInt64
  pollRuntime : UInt64
  future : UInt64
deriving DecidableEq, Repr

section Walk

variable (view : ProcessView)

def readU64 (addr : UInt64) : Except DecoderError UInt64 := do
  let bytes ← view.readMemory addr 8
  if bytes.length = 8 then pure (UInt64.ofNat (LittleEndian.decode bytes))
  else throw (.memoryReadFailed addr 8 "short read")

/-- A read that declines the walk where it fails. -/
def read (addr : UInt64) : Except EnumerateError UInt64 :=
  (readU64 view addr).mapError fun e => .implausibleRuntime e.display

variable (layout : TokioRuntimeLayout)

/-- The address of the owned tasks, if the thread has entered a runtime. -/
def ownedTasksAddr (contextAddr : UInt64) : Except DecoderError (Option UInt64) := do
  let handleCell := contextAddr + layout.contextCurrent
  let arcPtr ← readU64 view (handleCell + layout.handleCellValue)
  if arcPtr = 0 then pure none
  else
    let handle := arcPtr + layout.arcData
    let shared := handle + layout.handleShared
    pure (some (shared + layout.sharedOwned))

/-- Walk the list of one shard from `node` on. Each task counts against the bound before the
next link is followed. -/
def walkShard (node : UInt64) (out : List RawTask) : Except EnumerateError (List RawTask) :=
  if node = 0 then pure out
  -- the length is checked before each task, so a cycle ends here
  else if _hfull : out.length ≥ maxOwnedTasks then
    throw (.implausibleRuntime "task count exceeded MAX_TASKS; list likely cyclic")
  else do
    let vtable ← read view (node + layout.headerVtable)
    let pollRuntime ← read view (vtable + layout.vtablePoll)
    let trailerOffset ← read view (vtable + layout.vtableTrailerOffset)
    let task : RawTask := { header := node, pollRuntime, future := node + layout.futureOffset }
    let trailer := node + trailerOffset
    let next ← read view (trailer + layout.trailerOwnedNext)
    walkShard next (out ++ [task])
termination_by maxOwnedTasks - out.length
decreasing_by
  rw [List.length_append, List.length_singleton]
  omega

/-- Walk one shard of the sharded list. -/
def visitShard (dataPtr : UInt64) (out : List RawTask) (shard : Nat) :
    Except EnumerateError (List RawTask) := do
  let mutex := dataPtr + UInt64.ofNat shard * layout.shardStride
  let head ← read view (mutex + layout.mutexData + layout.listHead)
  walkShard view layout head out

def collectFromOwned (owned : UInt64) (out : List RawTask) :
    Except EnumerateError (List RawTask) := do
  let list := owned + layout.ownedList
  let dataPtr ← read view (list + layout.shardedLists)
  let len ← read view (list + layout.shardedLists + 8)
  if len > maxShards then
    throw (.implausibleRuntime ("ShardedList reports " ++ toString len ++ " shards"))
  else (List.range len.toNat).foldlM (visitShard view layout dataPtr) out

/-- Append the tasks of the runtime a thread has entered; whether it has entered one. -/
def walkContext (contextAddr : UInt64) (out : List RawTask) :
    Except EnumerateError (Bool × List RawTask) := do
  let owned ← (ownedTasksAddr view layout contextAddr).mapError
    fun e => .implausibleRuntime e.display
  match owned with
  | some owned => do
    let out ← collectFromOwned view layout owned out
    pure (true, out)
  | none => pure (false, out)

end Walk

/-! ## Any memory -/

/-- The runtime looks implausible. -/
def ImplausibleRuntime (e : EnumerateError) : Prop := ∃ reason, e = .implausibleRuntime reason

theorem mapError_fails {α : Type} (x : Except DecoderError α) :
    Effect.FailsAs ImplausibleRuntime (x.mapError fun e => .implausibleRuntime e.display) := by
  intro e h
  cases x with
  | ok a => cases h
  | error e' => exact ⟨e'.display, (Except.error.inj h).symm⟩

section Total

variable (view : ProcessView) (layout : TokioRuntimeLayout)

theorem read_fails (addr : UInt64) : Effect.FailsAs ImplausibleRuntime (read view addr) :=
  mapError_fails _

theorem walkShard_fails (node : UInt64) (out : List RawTask) :
    Effect.FailsAs ImplausibleRuntime (walkShard view layout node out) := by
  induction node, out using walkShard.induct layout with
  | case1 out =>
    rw [walkShard, if_pos rfl]
    exact .pure
  | case2 node out hnode hfull =>
    rw [walkShard, if_neg hnode, dif_pos hfull]
    exact .throw ⟨_, rfl⟩
  | case3 node out hnode hroom ih =>
    rw [walkShard, if_neg hnode, dif_neg hroom]
    refine .bind (read_fails view _) fun vtable => ?_
    refine .bind (read_fails view _) fun pollRuntime => ?_
    refine .bind (read_fails view _) fun trailerOffset => ?_
    refine .bind (read_fails view _) fun next => ?_
    exact ih pollRuntime next

theorem collectFromOwned_fails (owned : UInt64) (out : List RawTask) :
    Effect.FailsAs ImplausibleRuntime (collectFromOwned view layout owned out) := by
  refine .bind (read_fails view _) fun dataPtr => ?_
  refine .bind (read_fails view _) fun len => ?_
  split
  · exact .throw ⟨_, rfl⟩
  · refine .foldlM ?_
    intro out shard
    exact .bind (read_fails view _) fun head => walkShard_fails view layout head out

theorem walkContext_fails (contextAddr : UInt64) (out : List RawTask) :
    Effect.FailsAs ImplausibleRuntime (walkContext view layout contextAddr out) := by
  refine .bind (mapError_fails _) fun owned => ?_
  cases owned with
  | none => exact .pure
  | some owned => exact .bind (collectFromOwned_fails view layout owned out) fun out => .pure

end Total

/-! ## A runtime in memory -/

/-- The word at `addr` is `word`. -/
def Holds (view : ProcessView) (addr word : UInt64) : Prop :=
  view.readMemory addr 8 = .ok (LittleEndian.encode 8 word.toNat)

/-- A task as the runtime has it. -/
structure OwnedTask where
  header : UInt64
  vtable : UInt64
  poll : UInt64
  trailerOffset : UInt64
deriving DecidableEq, Repr

/-- What the walk is to say of a task. -/
def OwnedTask.raw (layout : TokioRuntimeLayout) (task : OwnedTask) : RawTask where
  header := task.header
  pollRuntime := task.poll
  future := task.header + layout.futureOffset

section Encoding

variable (view : ProcessView) (layout : TokioRuntimeLayout)

/-- The task is in memory, and linked to `next`. -/
structure TaskAt (task : OwnedTask) (next : UInt64) : Prop where
  header : task.header ≠ 0
  vtable : Holds view (task.header + layout.headerVtable) task.vtable
  poll : Holds view (task.vtable + layout.vtablePoll) task.poll
  trailerOffset : Holds view (task.vtable + layout.vtableTrailerOffset) task.trailerOffset
  next : Holds view (task.header + task.trailerOffset + layout.trailerOwnedNext) next

/-- A null-terminated list of tasks starts at `node`. -/
def ListAt : UInt64 → List OwnedTask → Prop
  | node, [] => node = 0
  | node, task :: tasks => node = task.header ∧
      ∃ next, TaskAt view layout task next ∧ ListAt next tasks

/-- A runtime: the handle, the array of shards, and the tasks of each shard. -/
structure Runtime where
  arc : UInt64
  dataPtr : UInt64
  shards : List (List OwnedTask)

/-- Where the fat pointer to the shards is. -/
def Runtime.lists (rt : Runtime) : UInt64 :=
  rt.arc + layout.arcData + layout.handleShared + layout.sharedOwned + layout.ownedList +
    layout.shardedLists

/-- The address of the handle in a thread's context. -/
def handleAddr (contextAddr : UInt64) : UInt64 :=
  contextAddr + layout.contextCurrent + layout.handleCellValue

/-- The head of the list of a shard. -/
def Runtime.headAddr (rt : Runtime) (shard : Nat) : UInt64 :=
  rt.dataPtr + UInt64.ofNat shard * layout.shardStride + layout.mutexData + layout.listHead

/-- The memory has this runtime, entered by the thread with this context. -/
structure Encodes (contextAddr : UInt64) (rt : Runtime) : Prop where
  handle : Holds view (handleAddr layout contextAddr) rt.arc
  entered : rt.arc ≠ 0
  dataPtr : Holds view (rt.lists layout) rt.dataPtr
  len : Holds view (rt.lists layout + 8) (UInt64.ofNat rt.shards.length)
  shards : ∀ shard tasks, rt.shards[shard]? = some tasks →
    ∃ head, Holds view (rt.headAddr layout shard) head ∧ ListAt view layout head tasks
  shardCount : rt.shards.length ≤ maxShards.toNat
  taskCount : rt.shards.flatten.length ≤ maxOwnedTasks

end Encoding

variable {view view' : ProcessView} {layout : TokioRuntimeLayout}

section Congr

variable (hmemory : view.readMemory = view'.readMemory)
include hmemory

theorem Holds.congr {addr word : UInt64} (h : Holds view addr word) : Holds view' addr word := by
  rw [Holds, ← hmemory]
  exact h

theorem TaskAt.congr {task : OwnedTask} {next : UInt64} (h : TaskAt view layout task next) :
    TaskAt view' layout task next :=
  ⟨h.header, h.vtable.congr hmemory, h.poll.congr hmemory, h.trailerOffset.congr hmemory,
    h.next.congr hmemory⟩

theorem listAt_congr {node : UInt64} {tasks : List OwnedTask} (h : ListAt view layout node tasks) :
    ListAt view' layout node tasks := by
  induction tasks generalizing node with
  | nil => exact h
  | cons task tasks ih =>
    obtain ⟨hnode, next, htask, hrest⟩ := h
    exact ⟨hnode, next, htask.congr hmemory, ih hrest⟩

/-- A runtime is in the memory, whatever else there is of the process. -/
theorem Encodes.congr {contextAddr : UInt64} {rt : Runtime}
    (h : Encodes view layout contextAddr rt) : Encodes view' layout contextAddr rt := by
  refine ⟨h.handle.congr hmemory, h.entered, h.dataPtr.congr hmemory, h.len.congr hmemory, ?_,
    h.shardCount, h.taskCount⟩
  intro shard tasks hshard
  obtain ⟨head, hhead, hlist⟩ := h.shards shard tasks hshard
  exact ⟨head, hhead.congr hmemory, listAt_congr hmemory hlist⟩

end Congr

theorem readU64_eq {addr word : UInt64} (h : Holds view addr word) :
    readU64 view addr = .ok word := by
  rw [readU64, h, Effect.except_ok_bind, if_pos (LittleEndian.length_encode _ _),
    LittleEndian.decode_encode, LittleEndian.ofNat_mod_u64]
  rfl

theorem read_eq {addr word : UInt64} (h : Holds view addr word) : read view addr = .ok word := by
  rw [read, readU64_eq h]
  rfl

/-- The walk over a list that ends, with room for its tasks. -/
theorem walkShard_eq {tasks : List OwnedTask} {node : UInt64} {out : List RawTask}
    (h : ListAt view layout node tasks) (hroom : out.length + tasks.length ≤ maxOwnedTasks) :
    walkShard view layout node out = .ok (out ++ tasks.map (OwnedTask.raw layout)) := by
  induction tasks generalizing node out with
  | nil =>
    have hnode : node = 0 := h
    rw [walkShard, if_pos hnode, List.map_nil, List.append_nil]
    rfl
  | cons task tasks ih =>
    rcases h with ⟨rfl, next, htask, hrest⟩
    rw [List.length_cons] at hroom
    have hfull : ¬ out.length ≥ maxOwnedTasks := by omega
    have hnext := @ih next (out ++ [task.raw layout]) hrest (by
      rw [List.length_append, List.length_singleton]
      omega)
    rw [walkShard, if_neg htask.header, dif_neg hfull, read_eq htask.vtable,
      Effect.except_ok_bind, read_eq htask.poll, Effect.except_ok_bind,
      read_eq htask.trailerOffset, Effect.except_ok_bind]
    dsimp only
    rw [read_eq htask.next, Effect.except_ok_bind]
    rw [List.append_assoc] at hnext
    exact hnext

/-- The walk over the first shards. -/
theorem foldlM_visitShard {contextAddr : UInt64} {rt : Runtime}
    (h : Encodes view layout contextAddr rt) {count : Nat} (hcount : count ≤ rt.shards.length) :
    (List.range count).foldlM (visitShard view layout rt.dataPtr) [] =
      .ok ((rt.shards.take count).flatten.map (OwnedTask.raw layout)) := by
  induction count with
  | zero => rfl
  | succ count ih =>
    have hlt : count < rt.shards.length := by omega
    rcases h.shards count rt.shards[count] (List.getElem?_eq_getElem hlt) with
      ⟨head, hhead, hlist⟩
    -- the tasks so far and those of this shard are among all tasks
    have htake : (rt.shards.take (count + 1)).flatten =
        (rt.shards.take count).flatten ++ rt.shards[count] := by
      rw [List.take_succ_eq_append_getElem hlt, List.flatten_append, List.flatten_singleton]
    have hroom : (rt.shards.take count).flatten.length + rt.shards[count].length ≤
        maxOwnedTasks := by
      have hsplit := congrArg List.length htake
      rw [List.length_append] at hsplit
      have hall := h.taskCount
      rw [← List.take_append_drop (count + 1) rt.shards, List.flatten_append,
        List.length_append] at hall
      omega
    rw [List.range_succ, List.foldlM_append, ih (by omega), Effect.except_ok_bind,
      List.foldlM_cons]
    have hvisit : visitShard view layout rt.dataPtr
        ((rt.shards.take count).flatten.map (OwnedTask.raw layout)) count =
        .ok ((rt.shards.take (count + 1)).flatten.map (OwnedTask.raw layout)) := by
      have hread := read_eq hhead
      unfold Runtime.headAddr at hread
      rw [visitShard, hread, Effect.except_ok_bind,
        walkShard_eq hlist (by rw [List.length_map]; exact hroom), htake, List.map_append]
    rw [hvisit]
    rfl

/-- Nothing is listed where no runtime is entered. -/
theorem walkContext_null {contextAddr : UInt64} (h : Holds view (handleAddr layout contextAddr) 0)
    (out : List RawTask) : walkContext view layout contextAddr out = .ok (false, out) := by
  have hread := readU64_eq h
  unfold handleAddr at hread
  rw [walkContext, ownedTasksAddr, hread]
  rfl

/-- The handle leads to the owned tasks. -/
theorem ownedTasksAddr_eq {contextAddr arc : UInt64}
    (h : Holds view (handleAddr layout contextAddr) arc) (harc : arc ≠ 0) :
    ownedTasksAddr view layout contextAddr =
      .ok (some (arc + layout.arcData + layout.handleShared + layout.sharedOwned)) := by
  have hread := readU64_eq h
  unfold handleAddr at hread
  rw [ownedTasksAddr, hread, Effect.except_ok_bind, if_neg harc]
  rfl

/-- All shards of a runtime. -/
theorem collectFromOwned_eq {contextAddr : UInt64} {rt : Runtime}
    (h : Encodes view layout contextAddr rt) :
    collectFromOwned view layout
      (rt.arc + layout.arcData + layout.handleShared + layout.sharedOwned) [] =
      .ok (rt.shards.flatten.map (OwnedTask.raw layout)) := by
  have hlen : (UInt64.ofNat rt.shards.length).toNat = rt.shards.length :=
    UInt64.toNat_ofNat_of_lt' (Nat.lt_of_le_of_lt h.shardCount (UInt64.toNat_lt _))
  have hshort : ¬ UInt64.ofNat rt.shards.length > maxShards := by
    intro hlong
    have hlt := UInt64.lt_iff_toNat_lt.mp hlong
    have hle := h.shardCount
    omega
  have hdata := read_eq h.dataPtr
  have hcount := read_eq h.len
  unfold Runtime.lists at hdata hcount
  rw [collectFromOwned, hdata, Effect.except_ok_bind, hcount, Effect.except_ok_bind,
    if_neg hshort, hlen, foldlM_visitShard h (Nat.le_refl _), List.take_length]

/-- The tasks of a runtime. -/
theorem walkContext_eq {contextAddr : UInt64} {rt : Runtime}
    (h : Encodes view layout contextAddr rt) :
    walkContext view layout contextAddr [] =
      .ok (true, rt.shards.flatten.map (OwnedTask.raw layout)) := by
  rw [walkContext, ownedTasksAddr_eq h.handle h.entered]
  show collectFromOwned view layout _ [] >>= _ = _
  rw [collectFromOwned_eq h]
  rfl

/-- **The walk over the owned tasks.** Of a runtime that is in memory it lists exactly the
tasks, shard by shard and in list order; where no runtime is entered it lists none; and on any
memory at all it ends, with a list or with the answer that the runtime looks implausible. -/
theorem walkContext_exact (view : ProcessView) (layout : TokioRuntimeLayout)
    (contextAddr : UInt64) :
    (∀ rt, Encodes view layout contextAddr rt →
      walkContext view layout contextAddr [] =
        .ok (true, rt.shards.flatten.map (OwnedTask.raw layout))) ∧
    (Holds view (handleAddr layout contextAddr) 0 →
      ∀ out, walkContext view layout contextAddr out = .ok (false, out)) ∧
    ∀ out, (∃ found out', walkContext view layout contextAddr out = .ok (found, out')) ∨
      ∃ reason, walkContext view layout contextAddr out = .error (.implausibleRuntime reason) := by
  refine ⟨fun rt h => walkContext_eq h, walkContext_null, ?_⟩
  intro out
  have hfails := walkContext_fails view layout contextAddr out
  cases hwalk : walkContext view layout contextAddr out with
  | ok result => exact .inl ⟨result.1, result.2, rfl⟩
  | error e =>
    rcases hfails e hwalk with ⟨reason, rfl⟩
    exact .inr ⟨reason, rfl⟩

/-- Words at their addresses, in a memory of zeros. -/
def wordsAt (words : List (UInt64 × Nat)) : ByteMemory :=
  words.foldl (fun m word => m.write word.1 (LittleEndian.encode 8 word.2)) fun _ => 0

/-- A runtime with two shards, the first with the tasks at `0x10000` and `0x20000`. -/
def twoShards : ByteMemory :=
  wordsAt [(0x1010, 0x5000), (0x5078, 0x6000), (0x5080, 2), (0x6008, 0x10000),
    (0x10010, 0x9000), (0x9000, 0xAAAA), (0x9038, 0x400), (0x10408, 0x20000),
    (0x20010, 0x9100), (0x9100, 0xBBBB), (0x9138, 0x600)]

/-- The runtime in that memory. -/
def twoShardsRuntime : Runtime where
  arc := 0x5000
  dataPtr := 0x6000
  shards := [[⟨0x10000, 0x9000, 0xAAAA, 0x400⟩, ⟨0x20000, 0x9100, 0xBBBB, 0x600⟩], []]

theorem encodes_twoShards : Encodes (memoryView twoShards) tokio144 0x1000 twoShardsRuntime := by
  constructor
  case handle => exact rfl
  case entered => decide
  case dataPtr => exact rfl
  case len => exact rfl
  case shardCount => decide
  case taskCount => decide
  case shards =>
    intro shard tasks hshard
    match shard with
    | 0 =>
      rcases Option.some.inj hshard with rfl
      exact ⟨0x10000, rfl, rfl, 0x20000, ⟨by decide, rfl, rfl, rfl, rfl⟩, rfl, 0,
        ⟨by decide, rfl, rfl, rfl, rfl⟩, rfl⟩
    | 1 =>
      rcases Option.some.inj hshard with rfl
      exact ⟨0, rfl, rfl⟩
    | shard + 2 => cases hshard

theorem walkContext_exact_twoShards :
    TokioRuntimeLayout.vendored ⟨1, 44, 2⟩ = .ok tokio144 ∧
    walkContext (memoryView twoShards) tokio144 0x1000 [] =
      .ok (true, [⟨0x10000, 0xAAAA, 0x10038⟩, ⟨0x20000, 0xBBBB, 0x20038⟩]) :=
  ⟨rfl, (walkContext_exact (memoryView twoShards) tokio144 0x1000).1 _ encodes_twoShards⟩

end Mirrorscope.Decoder.AsyncRust
