import Mirrorscope.Decoder.Model
import Mirrorscope.Lib.LittleEndian

/-! # Goroutines

The goroutine decoder: the run status and wait reason of a goroutine, the walk over
`runtime.allgs`, and the task tree and per-task answers built from it. Every answer walks the
target again.
-/

namespace Mirrorscope.Decoder.Go

/-! ## Status and wait reasons -/

/-- The bit set while the collector scans a goroutine's stack. -/
def gScan : UInt32 := 0x1000

/-- A goroutine's run status. -/
inductive GoStatus where
  | idle
  | runnable
  | running
  | syscall
  | waiting
  | dead
  | copystack
  | preempted
  | other (raw : UInt32)
deriving DecidableEq, Repr

def waitReasonStrings : List String :=
  ["", "GC assist marking", "IO wait", "chan receive (nil chan)", "chan send (nil chan)",
    "dumping heap", "garbage collection", "garbage collection scan", "panicwait", "select",
    "select (no cases)", "GC assist wait", "GC sweep wait", "GC scavenge wait", "chan receive",
    "chan send", "finalizer wait", "force gc (idle)", "semacquire", "sleep", "sync.Cond.Wait",
    "sync.Mutex.Lock", "sync.RWMutex.RLock", "sync.RWMutex.Lock", "sync.WaitGroup.Wait",
    "trace reader (blocked)", "wait for GC cycle", "GC worker (idle)", "GC worker (active)",
    "preempted", "debug call", "GC mark termination", "stopping the world",
    "flushing proc caches", "trace goroutine status", "trace proc status", "page trace flush",
    "coroutine", "GC weak to strong wait", "synctest.Run", "synctest.Wait",
    "chan receive (synctest)", "chan send (synctest)", "select (synctest)"]

/-- The runtime's phrase for a wait reason. -/
def waitReasonStr (waitReason : UInt8) : String := waitReasonStrings[waitReason.toNat]?.getD "?"

def blockReason (waitReason : UInt8) : BlockReason :=
  let detail := some (waitReasonStr waitReason)
  match waitReason.toNat with
  | 3 | 4 | 9 | 10 | 14 | 15 | 41 | 42 | 43 => .channel detail
  | 2 => .io detail
  | 18 | 20 | 21 | 22 | 23 => .lock detail
  | 24 => .join none
  | 19 => .timer
  | _ => .unknown

/-- What will unblock a goroutine that waits for this reason. -/
def wakeCauseOf (waitReason : UInt8) : WakeCause :=
  match waitReason.toNat with
  | 3 | 4 | 9 | 10 | 14 | 15 | 41 | 42 | 43 => .channel (some (waitReasonStr waitReason))
  | 2 => .io { fd := none, description := some (waitReasonStr waitReason) }
  | 19 => .timer
  | 18 | 20 | 21 | 22 | 23 | 24 => .manual
  | _ => .unknown

namespace GoStatus

def fromRaw (raw : UInt32) : GoStatus :=
  let masked := raw &&& ~~~gScan
  match masked.toNat with
  | 0 => .idle
  | 1 => .runnable
  | 2 => .running
  | 3 => .syscall
  | 4 => .waiting
  | 6 => .dead
  | 8 => .copystack
  | 9 => .preempted
  | _ => .other masked

/-- A slot that holds no goroutine. -/
def isDead : GoStatus → Bool
  | .dead => true
  | .other raw => raw == 5 || raw == 7
  | _ => false

def toTaskState (status : GoStatus) (waitReason : UInt8) : TaskState :=
  match status with
  | .running | .syscall => .running
  | .runnable | .copystack | .preempted | .idle => .runnable
  | .waiting => .blocked (blockReason waitReason)
  | .dead | .other _ => .completed

end GoStatus

/-! ## Layout -/

/-- Where the fields of a `g` struct are. -/
structure GStructOffsets where
  goid : UInt64
  atomicstatus : UInt64
  waitreason : UInt64
  stackLo : UInt64
  stackHi : UInt64
  schedPc : UInt64
  schedSp : UInt64
  gopc : UInt64
  startpc : UInt64
  m : UInt64
  parentGoid : Option UInt64
deriving DecidableEq, Repr

/-- What the walk needs to know of a runtime. -/
structure GoLayout where
  ptrSize : UInt8
  allgsAddr : UInt64
  loadBias : UInt64
  g : GStructOffsets
  mProcid : Option UInt64
deriving DecidableEq, Repr

def GoLayout.sliceLenOffset (layout : GoLayout) : UInt64 := layout.ptrSize.toUInt64

/-! ## The walk over `runtime.allgs` -/

def maxGoroutines : UInt64 := (1 : UInt64) <<< 20

/-- One goroutine, as its `g` struct has it. -/
structure GoroutineInfo where
  goid : Int64
  rawStatus : UInt32
  status : GoStatus
  state : TaskState
  waitReason : UInt8
  waitReasonStr : String
  gopc : UInt64
  startpc : UInt64
  schedPc : UInt64
  schedSp : UInt64
  stackLo : UInt64
  stackHi : UInt64
  mPtr : UInt64
  parentGoid : Option Int64
  thread : Option ThreadId
deriving DecidableEq, Repr

section Walk

variable (view : ProcessView) (layout : GoLayout)

def shortRead (addr : UInt64) (len : Nat) : DecoderError :=
  .memoryReadFailed addr len "short read from process view"

def readU64 (addr : UInt64) : Except DecoderError UInt64 := do
  let bytes ← view.readMemory addr 8
  if bytes.length = 8 then pure (UInt64.ofNat (LittleEndian.decode bytes))
  else throw (shortRead addr 8)

def readU32 (addr : UInt64) : Except DecoderError UInt32 := do
  let bytes ← view.readMemory addr 4
  if bytes.length = 4 then pure (UInt32.ofNat (LittleEndian.decode bytes))
  else throw (shortRead addr 4)

def readU8 (addr : UInt64) : Except DecoderError UInt8 := do
  match ← view.readMemory addr 1 with
  | byte :: _ => pure byte
  | [] => throw (shortRead addr 1)

/-- The data pointer and the length of `runtime.allgs`. -/
def readAllgsHeader : Except DecoderError (UInt64 × UInt64) := do
  let allgs := layout.allgsAddr + layout.loadBias
  let data ← readU64 view allgs
  let len ← readU64 view (allgs + layout.sliceLenOffset)
  if len > maxGoroutines then
    throw (.notApplicable
      ("runtime.allgs length " ++ toString len ++ " is implausible; layout likely misresolved"))
  else pure (data, len)

/-- The thread that runs a goroutine, through its M. -/
def resolveThread (status : GoStatus) (mPtr : UInt64) : Except DecoderError (Option ThreadId) :=
  match layout.mProcid with
  | some procid =>
    if (status = .running ∨ status = .syscall) ∧ mPtr ≠ 0 then do
      pure (some ⟨← readU64 view (mPtr + procid)⟩)
    else pure none
  | none => pure none

/-- The creator of a goroutine, where the runtime records it. -/
def readParentGoid (gp : UInt64) : Except DecoderError (Option Int64) :=
  match layout.g.parentGoid with
  | some off => do pure (some (← readU64 view (gp + off)).toInt64)
  | none => pure none

def readGoroutine (gp : UInt64) : Except DecoderError GoroutineInfo := do
  let g := layout.g
  let rawStatus ← readU32 view (gp + g.atomicstatus)
  let status := GoStatus.fromRaw rawStatus
  let waitReason ← readU8 view (gp + g.waitreason)
  let mPtr ← readU64 view (gp + g.m)
  let parentGoid ← readParentGoid view layout gp
  let thread ← resolveThread view layout status mPtr
  pure {
    goid := (← readU64 view (gp + g.goid)).toInt64
    rawStatus
    status
    state := status.toTaskState waitReason
    waitReason
    waitReasonStr := waitReasonStr waitReason
    gopc := ← readU64 view (gp + g.gopc)
    startpc := ← readU64 view (gp + g.startpc)
    schedPc := ← readU64 view (gp + g.schedPc)
    schedSp := ← readU64 view (gp + g.schedSp)
    stackLo := ← readU64 view (gp + g.stackLo)
    stackHi := ← readU64 view (gp + g.stackHi)
    mPtr
    parentGoid
    thread }

/-- Look at one slot of the slice; a null slot or a dead goroutine adds nothing. -/
def visitSlot (data : UInt64) (out : List GoroutineInfo) (index : Nat) :
    Except DecoderError (List GoroutineInfo) := do
  let gp ← readU64 view (data + UInt64.ofNat index * layout.ptrSize.toUInt64)
  if gp = 0 then pure out
  else do
    let info ← readGoroutine view layout gp
    pure (if info.status.isDead then out else out ++ [info])

/-- Every live goroutine, in slice order. -/
def walkGoroutines : Except DecoderError (List GoroutineInfo) := do
  let (data, len) ← readAllgsHeader view layout
  (List.range len.toNat).foldlM (visitSlot view layout data) []

end Walk

/-! ## The decoder -/

def suspendKind : BlockReason → SuspendKind
  | .channel _ => .channelRecv
  | .lock _ => .lock
  | .io _ => .io
  | .join _ => .join
  | .timer => .timer
  | .unknown => .other

/-- The node of a goroutine; its parent counts when it is live too. -/
def nodeFor (g : GoroutineInfo) (live : List Int64) : TaskNode where
  id := ⟨g.goid.toUInt64⟩
  name := "goroutine " ++ toString g.goid
  kind := .goroutine
  state := g.state
  parent := (g.parentGoid.filter fun p => 0 < p && p ≠ g.goid && live.contains p).map
    fun p => ⟨p.toUInt64⟩

/-- The stack of the thread a goroutine runs on. -/
def runningStack (view : ProcessView) (thread : ThreadId) :
    Except DecoderError (List LogicalFrame) :=
  match view.physicalFrames thread with
  | .ok frames => .ok (frames.map LogicalFrame.fromPhysical)
  | .error _ => .error (.unknownThread thread)

/-- The one frame of a parked goroutine. -/
def parkedStartFrame (g : GoroutineInfo) : LogicalFrame where
  displayName :=
    "goroutine " ++ toString g.goid ++ " (parked @ " ++ hex g.schedPc ++ ")"
  location := none
  suspend :=
    match g.state with
    | .blocked on => some { kind := suspendKind on, detail := some g.waitReasonStr }
    | _ => none
  origin := .synthesized

/-- The logical stack of a goroutine. -/
def stackOf (view : ProcessView) (g : GoroutineInfo) : Except DecoderError (List LogicalFrame) :=
  match g.thread with
  | some thread => runningStack view thread
  | none => .ok [parkedStartFrame g]

/-- What will wake a goroutine. -/
def wakeOf (g : GoroutineInfo) : WakeCause :=
  match g.state with
  | .blocked _ => wakeCauseOf g.waitReason
  | _ => .unknown

structure GoroutineDecoder where
  layout : GoLayout

namespace GoroutineDecoder

variable (decoder : GoroutineDecoder) (view : ProcessView)

/-- The goroutine a task number refers to. -/
def goroutine (task : TaskId) : Except DecoderError GoroutineInfo := do
  match (← walkGoroutines view decoder.layout).find? fun g => g.goid = task.raw.toInt64 with
  | some g => pure g
  | none => throw (.unknownTask task)

/-- One node for each user goroutine, the first with its number; `seen` has the numbers that
are taken. -/
def taskNodes (live : List Int64) : List Int64 → List GoroutineInfo → List TaskNode
  | _, [] => []
  | seen, g :: gs =>
    if g.goid ≤ 0 ∨ g.goid ∈ seen then taskNodes live seen gs
    else nodeFor g live :: taskNodes live (g.goid :: seen) gs

/-- The numbers of the user goroutines. -/
def liveIds (goroutines : List GoroutineInfo) : List Int64 :=
  (goroutines.map GoroutineInfo.goid).filter fun goid => 0 < goid

def decodeTasks : Except DecoderError TaskTree := do
  let goroutines ← walkGoroutines view decoder.layout
  TaskTree.tryFromNodes (taskNodes (liveIds goroutines) [] goroutines)

def logicalStack (task : TaskId) : Except DecoderError (List LogicalFrame) := do
  stackOf view (← decoder.goroutine view task)

def wakeCause (task : TaskId) : Except DecoderError WakeCause := do
  pure (wakeOf (← decoder.goroutine view task))

/-- Locals are not evaluated; the task has to exist. -/
def localsAt (task : TaskId) (_frame : LogicalFrame) : Except DecoderError (List Variable) := do
  let _ ← decoder.goroutine view task
  pure []

end GoroutineDecoder

end Mirrorscope.Decoder.Go
