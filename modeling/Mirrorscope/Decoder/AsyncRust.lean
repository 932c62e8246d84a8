import Mirrorscope.Decoder.Model

/-! # Async Rust tasks

The Tokio decoder: coroutine layouts, the walk along the awaited futures of one task, the
fan-out of a task into the coroutines its active variant holds, and the task tree and
per-task answers built from them. Sums of addresses and offsets inside of a task are those of
a release build, and wrap around.
-/

namespace Mirrorscope.Decoder.AsyncRust

/-! ## Layouts -/

/-- A state of a coroutine. -/
inductive VariantKind where
  | unresumed
  | returned
  | panicked
  | suspend (point : UInt16)
deriving DecidableEq, Repr

def VariantKind.isSuspend : VariantKind → Bool
  | .suspend _ => true
  | _ => false

/-- A future stored inline in a coroutine. -/
structure ChildRef where
  offset : UInt64
  typeName : String
deriving DecidableEq, Repr

/-- One variant of a coroutine's state machine: the future it awaits, and the other
coroutines it holds. -/
structure VariantInfo where
  kind : VariantKind
  awaitLocation : Option SourceLocation
  awaitee : Option ChildRef
  children : List ChildRef
deriving DecidableEq, Repr

/-- The layout of a coroutine type. Its size, which is read off the debug information with the
rest, is left out: nothing asks for it. -/
structure AsyncFnLayout where
  typeName : String
  discrOffset : UInt64
  discrSize : UInt8
  variants : KeyMap UInt64 VariantInfo

namespace AsyncFnLayout

def variantFor (layout : AsyncFnLayout) (discr : UInt64) : Option VariantInfo :=
  layout.variants[discr]?

def shortName (layout : AsyncFnLayout) : String :=
  lastComponent "::\x7basync_fn_env" layout.typeName

end AsyncFnLayout

/-- The coroutine layouts of a binary, each under its own type name. -/
structure AsyncLayouts where
  byName : KeyMap String AsyncFnLayout
  keyed : ∀ (name : String) (layout : AsyncFnLayout), byName[name]? = some layout →
    layout.typeName = name

namespace AsyncLayouts

def new : AsyncLayouts where
  byName := ∅
  keyed name layout h := by simp at h

def insert (layouts : AsyncLayouts) (layout : AsyncFnLayout) : AsyncLayouts where
  byName := layouts.byName.insert layout.typeName layout
  keyed name other h := by
    rw [KeyMap.get_insert] at h
    split at h
    · rename_i hname
      rw [← Option.some.inj h, hname]
    · exact layouts.keyed name other h

def get (layouts : AsyncLayouts) (typeName : String) : Option AsyncFnLayout :=
  layouts.byName[typeName]?

def isCoroutine (layouts : AsyncLayouts) (typeName : String) : Bool :=
  (layouts.get typeName).isSome

end AsyncLayouts

/-! ## States and leaf futures -/

def running : UInt64 := 0b0001
def complete : UInt64 := 0b0010
def notified : UInt64 := 0b0100
def cancelled : UInt64 := 0b100000

/-- The state a task header tells of. -/
def classifyHeaderState (state : UInt64) : TaskState :=
  if state &&& complete ≠ 0 ∨ state &&& cancelled ≠ 0 then .completed
  else if state &&& running ≠ 0 then .running
  else if state &&& notified ≠ 0 then .runnable
  else .blocked .unknown

/-- The state a coroutine's own variant tells of. -/
def stateFromVariant : VariantKind → TaskState
  | .unresumed => .runnable
  | .returned | .panicked => .completed
  | .suspend _ => .blocked .unknown

/-- What an awaited leaf future stands for. -/
structure LeafClass where
  suspend : SuspendKind
  wake : WakeCause
  block : BlockReason
deriving DecidableEq, Repr

/-- The last path component of a type name, without its generics. -/
def shortType (typeName : String) : String := lastComponent "<" typeName

/-- Classify a leaf future by its type name; the first match counts. -/
def classifyLeaf (typeName : String) : LeafClass :=
  let detail := some (shortType typeName)
  if containsAny typeName ["time::sleep::Sleep", "time::Sleep", "Timeout"] then
    { suspend := .timer, wake := .timer, block := .timer }
  else if containsAny typeName ["Recv", "channel", "mpsc", "oneshot", "broadcast", "watch"] then
    { suspend := .channelRecv, wake := .channel detail, block := .channel detail }
  else if containsAny typeName ["Mutex", "RwLock", "Semaphore", "Barrier"] then
    { suspend := .lock, wake := .manual, block := .lock detail }
  else if containsAny typeName ["TcpStream", "net::", "io::", "AsyncFd", "poll_read"] then
    { suspend := .io, wake := .io { fd := none, description := detail }, block := .io detail }
  else { suspend := .other, wake := .unknown, block := .unknown }

/-! ## Decoding one coroutine -/

def maxAwaitDepth : Nat := 64

/-- The little-endian number in the bytes; bytes beyond the eighth wrap around as a shift by
more than the width does. -/
def orBytes (bytes : List UInt8) : UInt64 :=
  (bytes.zipIdx.map fun (b, i) => b.toUInt64 <<< UInt64.ofNat (8 * i)).foldl (· ||| ·) 0

section Decode

variable (view : ProcessView)

def readDiscriminant (base : UInt64) (layout : AsyncFnLayout) : Except DecoderError UInt64 := do
  let bytes ← view.readMemory (base + layout.discrOffset) layout.discrSize.toNat
  pure (orBytes bytes)

/-- The variant a coroutine is in. -/
def activeVariant (base : UInt64) (layout : AsyncFnLayout) :
    Except DecoderError (UInt64 × VariantInfo) := do
  let discr ← readDiscriminant view base layout
  match layout.variantFor discr with
  | some variant => pure (discr, variant)
  | none => throw (.notApplicable ("coroutine " ++ layout.typeName ++ " has discriminant " ++
      toString discr ++ " matching no variant"))

variable (layouts : AsyncLayouts)

/-- Follow the awaited futures for at most `depth` coroutines. -/
def leafTypeFrom : Nat → UInt64 → AsyncFnLayout → Except DecoderError (Option String)
  | 0, _, _ => pure none
  | depth + 1, base, layout => do
    let (_, variant) ← activeVariant view base layout
    match variant.awaitee with
    | none => pure none
    | some awaitee =>
      match layouts.get awaitee.typeName with
      | some next => leafTypeFrom depth (base + awaitee.offset) next
      | none => pure (some awaitee.typeName)

/-- The innermost awaited future that is no coroutine. -/
def leafType (base : UInt64) (layout : AsyncFnLayout) : Except DecoderError (Option String) :=
  leafTypeFrom view layouts maxAwaitDepth base layout

/-- The state of a task before its leaf future is known. -/
def baseState (variant : VariantInfo) : Option UInt64 → Except DecoderError TaskState
  | some addr => do
    let bytes ← view.readMemory addr 8
    pure (classifyHeaderState (orBytes (bytes.take 8)))
  | none => pure (stateFromVariant variant.kind)

def taskState (base : UInt64) (layout : AsyncFnLayout) (headerAddr : Option UInt64) :
    Except DecoderError TaskState := do
  let (_, variant) ← activeVariant view base layout
  match ← baseState view variant headerAddr with
  | .blocked _ => do
    match ← leafType view layouts base layout with
    | some leaf => pure (.blocked (classifyLeaf leaf).block)
    | none => pure (.blocked .unknown)
  | other => pure other

def wakeCause (base : UInt64) (layout : AsyncFnLayout) : Except DecoderError WakeCause := do
  match ← leafType view layouts base layout with
  | some leaf => pure (classifyLeaf leaf).wake
  | none => pure .unknown

/-- The coroutines the active variant holds, with their addresses. -/
def fanOutChildren (base : UInt64) (layout : AsyncFnLayout) :
    Except DecoderError (List (UInt64 × String)) := do
  let (_, variant) ← activeVariant view base layout
  pure (variant.children.map fun c => (base + c.offset, c.typeName))

/-! ### Logical stacks -/

/-- What a frame of a logical stack shows: a coroutine in memory, or the leaf future. -/
inductive StackFrame where
  | coroutine (base : UInt64) (layout : AsyncFnLayout) (variant : VariantInfo)
      (suspend : Option SuspendPoint)
  | leaf (child : ChildRef)

def leafSuspend (child : ChildRef) : SuspendPoint where
  kind := (classifyLeaf child.typeName).suspend
  detail := some (shortType child.typeName)

/-- The frame as the client sees it. -/
def StackFrame.logicalFrame : StackFrame → LogicalFrame
  | .coroutine _ layout variant suspend =>
    { displayName := layout.shortName, location := variant.awaitLocation, suspend,
      origin := .synthesized }
  | .leaf child =>
    { displayName := shortType child.typeName, location := none,
      suspend := some (leafSuspend child), origin := .synthesized }

/-- The frames of at most `depth` coroutines, from the given one inwards. -/
def stackFrom : Nat → UInt64 → String → Except DecoderError (List StackFrame)
  | 0, _, _ => pure []
  | depth + 1, base, typeName => do
    match layouts.get typeName with
    | none => throw (.notApplicable ("no layout for coroutine type " ++ typeName))
    | some layout => do
      let (_, variant) ← activeVariant view base layout
      if ¬ variant.kind.isSuspend then pure [.coroutine base layout variant none]
      else
        match variant.awaitee with
        | none => pure [.coroutine base layout variant none]
        | some child =>
          if layouts.isCoroutine child.typeName then do
            let suspend := { kind := .other, detail := some (shortType child.typeName) }
            let rest ← stackFrom depth (base + child.offset) child.typeName
            pure (.coroutine base layout variant (some suspend) :: rest)
          -- a leaf future ends the stack, and has no coroutine to go on to
          else
            pure [.coroutine base layout variant (some (leafSuspend child)), .leaf child]

def logicalStack (base : UInt64) (typeName : String) :
    Except DecoderError (List LogicalFrame) := do
  pure ((← stackFrom view layouts maxAwaitDepth base typeName).map StackFrame.logicalFrame)

end Decode

/-! ## The decoder -/

def maxTasks : Nat := 1 <<< 16

/-- A task to decode: a coroutine, and the task header where it is known. -/
structure TaskRoot where
  id : UInt64
  base : UInt64
  typeName : String
  headerAddr : Option UInt64
deriving DecidableEq, Repr

/-- A decoder for one binary. `plan` finds the live tasks of a process, where the binary allows
for it; it says why it does not. -/
structure TokioDecoder where
  layouts : AsyncLayouts
  roots : List TaskRoot
  plan : Option (ProcessView → AsyncLayouts → Except String (List TaskRoot))

/-- A decoded task. -/
structure DecodedNode where
  id : TaskId
  parent : Option TaskId
  base : UInt64
  typeName : String
  state : TaskState
  wake : WakeCause
deriving DecidableEq, Repr

/-- The next free number and the tasks so far. -/
structure Expansion where
  nextId : UInt64
  out : List DecodedNode

namespace TokioDecoder

variable (decoder : TokioDecoder) (view : ProcessView)

def effectiveRoots : Except DecoderError (List TaskRoot) :=
  if decoder.roots ≠ [] then pure decoder.roots
  else
    match decoder.plan with
    | none => throw (.notApplicable ("no task roots and no enumeration plan (target outside the " ++
        "verified tokio-enumeration window; see async_rust::enumerate)"))
    | some plan =>
      match plan view decoder.layouts with
      | .error e => throw (.notApplicable ("live tokio task enumeration declined: " ++ e))
      | .ok [] =>
        throw (.notApplicable "tokio runtime present but no decodable spawned tasks were found")
      | .ok roots => pure roots

def fanOutExceeded : DecoderError :=
  .notApplicable "task fan-out exceeded MAX_TASKS; layout likely misresolved"

/-- Decode one coroutine into a node. -/
def decodeNode (base : UInt64) (typeName : String) (headerAddr : Option UInt64) (id : TaskId)
    (parent : Option TaskId) : Except DecoderError (DecodedNode × List (UInt64 × String)) := do
  match decoder.layouts.get typeName with
  | none => throw (.notApplicable ("no coroutine layout for task type " ++ typeName))
  | some layout => do
    let state ← taskState view decoder.layouts base layout headerAddr
    let wake ← AsyncRust.wakeCause view decoder.layouts base layout
    let children ← fanOutChildren view base layout
    pure ({ id, parent, base, typeName, state, wake }, children)

/-- Decode a coroutine and everything it fans out to, depth first. Every level adds a node
before it goes deeper, so `depth` levels are enough once `depth` and the nodes together exceed
the bound on tasks. -/
def expand : Nat → UInt64 → String → Option UInt64 → TaskId → Option TaskId → Expansion →
    Except DecoderError Expansion
  | 0, _, _, _, _, _, _ => throw fanOutExceeded
  | depth + 1, base, typeName, headerAddr, id, parent, acc => do
    if acc.out.length ≥ maxTasks then throw fanOutExceeded
    else do
      let (node, children) ← decoder.decodeNode view base typeName headerAddr id parent
      children.foldlM
        (fun acc (childBase, childType) =>
          expand depth childBase childType none ⟨acc.nextId⟩ (some id)
            { acc with nextId := acc.nextId + 1 })
        { acc with out := acc.out ++ [node] }

/-- One past the greatest root number. -/
def firstFreeId (roots : List TaskRoot) : UInt64 :=
  (roots.map TaskRoot.id).foldl max 0 + 1

/-- All tasks: every root with its fan-out, in order. -/
def enumerate : Except DecoderError (List DecodedNode) := do
  let roots ← decoder.effectiveRoots view
  let acc ← roots.foldlM
    (fun acc root =>
      decoder.expand view (maxTasks + 1) root.base root.typeName root.headerAddr ⟨root.id⟩ none
        acc)
    { nextId := firstFreeId roots, out := [] }
  pure acc.out

/-- The display name of a task. -/
def shortName (typeName : String) : String := lastComponent "::\x7basync_fn_env" typeName

def taskNode (n : DecodedNode) : TaskNode where
  id := n.id
  name := shortName n.typeName
  kind := .asyncTask
  state := n.state
  parent := n.parent

def nodeFor (nodes : List DecodedNode) (task : TaskId) : Except DecoderError DecodedNode :=
  match nodes.find? fun n => n.id = task with
  | some n => pure n
  | none => throw (.unknownTask task)

def decodeTasks : Except DecoderError TaskTree := do
  let nodes ← decoder.enumerate view
  TaskTree.tryFromNodes (nodes.map taskNode)

def logicalStack (task : TaskId) : Except DecoderError (List LogicalFrame) := do
  let nodes ← decoder.enumerate view
  let node ← nodeFor nodes task
  AsyncRust.logicalStack view decoder.layouts node.base node.typeName

def wakeCause (task : TaskId) : Except DecoderError WakeCause := do
  let nodes ← decoder.enumerate view
  pure (← nodeFor nodes task).wake

/-- Locals are not evaluated; the task has to exist. -/
def localsAt (task : TaskId) (_frame : LogicalFrame) : Except DecoderError (List Variable) := do
  let nodes ← decoder.enumerate view
  let _ ← nodeFor nodes task
  pure []

end TokioDecoder

end Mirrorscope.Decoder.AsyncRust
