import Mirrorscope.Lib.Effect
import Mirrorscope.Lib.KeyMap

/-! # The decoder model

What a decoder reconstructs from a paused process, whatever the language: tasks with their
states, logical frames, wake causes, and the tree the tasks form. Numbers that a process
stores in 64 bits are `UInt64`, and sums of addresses wrap.
-/

namespace Mirrorscope.Decoder

/-! ## Names in type paths -/

/-- The text before the first occurrence of `sep`, or all of it. -/
def beforeFirst (sep : List Char) : List Char → List Char
  | [] => []
  | c :: cs => if sep.isPrefixOf (c :: cs) then [] else c :: beforeFirst sep cs

/-- The text after the last occurrence of `sep`. -/
def afterLast (sep : List Char) : List Char → Option (List Char)
  | [] => none
  | c :: cs =>
    match afterLast sep cs with
    | some rest => some rest
    | none => if sep.isPrefixOf (c :: cs) then some ((c :: cs).drop sep.length) else none

/-- The last component of a path, once everything from `stop` on is cut off. -/
def lastComponent (stop : String) (path : String) : String :=
  let head := beforeFirst stop.toList path.toList
  String.ofList ((afterLast "::".toList head).getD head)

/-- The needle occurs in the text. -/
def occursIn (needle : List Char) : List Char → Bool
  | [] => needle.isEmpty
  | c :: cs => needle.isPrefixOf (c :: cs) || occursIn needle cs

/-- One of the needles occurs in the text. -/
def containsAny (haystack : String) (needles : List String) : Bool :=
  needles.any fun needle => occursIn needle.toList haystack.toList

/-! ## Tasks -/

/-- The number of a task. -/
structure TaskId where
  raw : UInt64
deriving DecidableEq, Repr

/-- The number of an operating-system thread. -/
structure ThreadId where
  raw : UInt64
deriving DecidableEq, Repr

inductive TaskKind where
  | thread
  | asyncTask
  | goroutine
  | coroutine
deriving DecidableEq, Repr

/-- Why a task is blocked. -/
inductive BlockReason where
  | channel (detail : Option String)
  | lock (detail : Option String)
  | io (detail : Option String)
  | join (on : Option TaskId)
  | timer
  | unknown
deriving DecidableEq, Repr

inductive TaskState where
  | runnable
  | running
  | blocked (on : BlockReason)
  | completed
deriving DecidableEq, Repr

/-- One node of a task tree. -/
structure TaskNode where
  id : TaskId
  name : String
  kind : TaskKind
  state : TaskState
  parent : Option TaskId
deriving DecidableEq, Repr

structure IoWakeDetail where
  fd : Option Int
  description : Option String
deriving DecidableEq, Repr

/-- Why a task left the blocked state. -/
inductive WakeCause where
  | timer
  | io (detail : IoWakeDetail)
  | channel (detail : Option String)
  | manual
  | unknown
deriving DecidableEq, Repr

/-- A local variable, rendered. -/
structure Variable where
  name : String
  value : String
  typeHint : Option String
deriving DecidableEq, Repr

/-! ## Frames -/

structure SourceLocation where
  path : String
  line : UInt32
  column : UInt32
deriving DecidableEq, Repr

/-- What a suspended frame waits for. -/
inductive SuspendKind where
  | channelRecv
  | channelSend
  | timer
  | io
  | join
  | select
  | lock
  | other
deriving DecidableEq, Repr

structure SuspendPoint where
  kind : SuspendKind
  detail : Option String
deriving DecidableEq, Repr

inductive FrameOrigin where
  | physical
  | synthesized
deriving DecidableEq, Repr

/-- One frame of a logical stack. -/
structure LogicalFrame where
  displayName : String
  location : Option SourceLocation
  suspend : Option SuspendPoint
  origin : FrameOrigin
deriving DecidableEq, Repr

/-- One frame of an unwound call stack. -/
structure PhysicalFrame where
  pc : UInt64
  sp : UInt64
  functionName : Option String
  location : Option SourceLocation
deriving DecidableEq, Repr

/-- A number in lower-case hexadecimal with its `0x` mark. -/
def hex (n : UInt64) : String := "0x" ++ String.ofList (Nat.toDigits 16 n.toNat)

/-- A physical frame as a logical one. -/
def LogicalFrame.fromPhysical (frame : PhysicalFrame) : LogicalFrame where
  displayName := frame.functionName.getD (hex frame.pc)
  location := frame.location
  suspend := none
  origin := .physical

/-! ## Process views -/

inductive DecoderError where
  | notApplicable (reason : String)
  | unknownTask (task : TaskId)
  | unknownThread (thread : ThreadId)
  | memoryReadFailed (addr : UInt64) (len : Nat) (reason : String)
  | invalidTaskTree (reason : String)
  | registerReadFailed (thread : ThreadId) (reason : String)
  | physicalFramesFailed (thread : ThreadId) (reason : String)
deriving DecidableEq, Repr

/-- The text of an error. -/
def DecoderError.display : DecoderError → String
  | .notApplicable reason => "decoder does not apply to this process: " ++ reason
  | .unknownTask task => "unknown task TaskId(" ++ toString task.raw ++ ")"
  | .unknownThread thread => "unknown thread ThreadId(" ++ toString thread.raw ++ ")"
  | .memoryReadFailed addr len reason =>
    "failed to read " ++ toString len ++ " byte(s) at address " ++ hex addr ++ ": " ++ reason
  | .invalidTaskTree reason => "invalid task tree: " ++ reason
  | .registerReadFailed thread reason =>
    "failed to read registers for thread ThreadId(" ++ toString thread.raw ++ "): " ++ reason
  | .physicalFramesFailed thread reason =>
    "failed to unwind physical frames for thread ThreadId(" ++ toString thread.raw ++ "): " ++
      reason

structure Registers where
  pc : UInt64
  sp : UInt64
deriving DecidableEq, Repr

/-- A paused process as a decoder sees it. Reads are functions: the memory does not change. -/
structure ProcessView where
  threadIds : List ThreadId
  registers : ThreadId → Except DecoderError Registers
  readMemory : UInt64 → Nat → Except DecoderError (List UInt8)
  physicalFrames : ThreadId → Except DecoderError (List PhysicalFrame)
  threadPointer : ThreadId → Except DecoderError (Option UInt64)
  executableBase : Option UInt64

/-! ## Task trees -/

/-- A task tree: the nodes by number, the children of each, and the nodes without a parent. -/
structure TaskTree where
  nodes : KeyMap UInt64 TaskNode
  childIds : KeyMap UInt64 (List TaskId)
  roots : List TaskId

namespace TaskTree

/-- Enter a node; its number must be new. -/
def insertNode (byId : KeyMap UInt64 TaskNode) (node : TaskNode) :
    Except DecoderError (KeyMap UInt64 TaskNode) :=
  if byId[node.id.raw]?.isSome then .error (.invalidTaskTree "duplicate task id")
  else .ok (byId.insert node.id.raw node)

/-- Hang a node under its parent, or among the roots. -/
def link (byId : KeyMap UInt64 TaskNode)
    (acc : KeyMap UInt64 (List TaskId) × List TaskId) (node : TaskNode) :
    Except DecoderError (KeyMap UInt64 (List TaskId) × List TaskId) :=
  match node.parent with
  | some parent =>
    if byId[parent.raw]?.isSome then
      .ok (acc.1.insert parent.raw ((acc.1[parent.raw]?).getD [] ++ [node.id]), acc.2)
    else
      .error (.invalidTaskTree
        ("task TaskId(" ++ toString node.id.raw ++ ") has a dangling parent reference"))
  | none => .ok (acc.1, acc.2 ++ [node.id])

def tryFromNodes (nodes : List TaskNode) : Except DecoderError TaskTree := do
  let byId ← nodes.foldlM insertNode ∅
  let (childIds, roots) ← byId.values.foldlM (link byId) (∅, [])
  pure { nodes := byId, childIds, roots }

def node (tree : TaskTree) (id : TaskId) : Option TaskNode := tree.nodes[id.raw]?

def children (tree : TaskTree) (id : TaskId) : List TaskId := (tree.childIds[id.raw]?).getD []

/-! ### The nodes of a tree -/

/-- Entering nodes one by one keeps what was there and adds each under its number. -/
theorem foldlM_insertNode {nodes : List TaskNode} {byId byId' : KeyMap UInt64 TaskNode}
    (h : nodes.foldlM insertNode byId = .ok byId') (id : UInt64) :
    byId'[id]? = (byId[id]?).or (nodes.find? fun node => node.id.raw = id) ∧
      (byId[id]?.isSome → ∀ node ∈ nodes, node.id.raw ≠ id) := by
  induction nodes generalizing byId with
  | nil =>
    rcases Except.ok.inj h with rfl
    simp
  | cons node nodes ih =>
    rw [List.foldlM_cons] at h
    obtain ⟨byId₁, hinsert, hrest⟩ := Effect.except_bind_ok h
    unfold insertNode at hinsert
    split at hinsert
    · cases hinsert
    · rename_i hnew
      rcases Except.ok.inj hinsert with rfl
      obtain ⟨hget, hfresh⟩ := ih hrest
      rw [KeyMap.get_insert] at hget hfresh
      by_cases hid : node.id.raw = id
      · subst hid
        simp only [if_true] at hget hfresh
        have hnone : byId[node.id.raw]? = none := by simpa using hnew
        simp [hget, hnone]
      · rw [if_neg hid] at hget hfresh
        constructor
        · simp [hget, hid]
        · intro hsome other hother
          rcases List.mem_cons.mp hother with rfl | hother
          · exact hid
          · exact hfresh hsome other hother

/-- The nodes of a tree are the given ones, by number. -/
theorem node_tryFromNodes {nodes : List TaskNode} {tree : TaskTree}
    (h : tryFromNodes nodes = .ok tree) (id : TaskId) :
    tree.node id = nodes.find? fun node => node.id = id := by
  obtain ⟨byId, hbyId, hrest⟩ := Effect.except_bind_ok h
  obtain ⟨linked, -, hpure⟩ := Effect.except_bind_ok hrest
  rcases Except.ok.inj hpure with rfl
  have hget := (foldlM_insertNode hbyId id.raw).1
  simp only [node, hget, KeyMap.get_empty, Option.none_or]
  congr 1
  funext node
  cases hnode : node.id
  cases id
  simp

/-- Entered nodes have different numbers. -/
theorem foldlM_insertNode_pairwise {nodes : List TaskNode} {byId byId' : KeyMap UInt64 TaskNode}
    (h : nodes.foldlM insertNode byId = .ok byId') :
    nodes.Pairwise fun a b => a.id ≠ b.id := by
  induction nodes generalizing byId with
  | nil => exact .nil
  | cons first nodes ih =>
    rw [List.foldlM_cons] at h
    obtain ⟨byId₁, hinsert, hrest⟩ := Effect.except_bind_ok h
    refine .cons ?_ (ih hrest)
    intro other hother hid
    have htaken : byId₁[first.id.raw]?.isSome := by
      unfold insertNode at hinsert
      split at hinsert
      · cases hinsert
      · rcases Except.ok.inj hinsert with rfl
        simp
    exact (foldlM_insertNode hrest first.id.raw).2 htaken other hother (by rw [hid])

/-- The nodes of a tree have different numbers. -/
theorem pairwise_tryFromNodes {nodes : List TaskNode} {tree : TaskTree}
    (h : tryFromNodes nodes = .ok tree) : nodes.Pairwise fun a b => a.id ≠ b.id := by
  obtain ⟨byId, hbyId, -⟩ := Effect.except_bind_ok h
  exact foldlM_insertNode_pairwise hbyId

end TaskTree

end Mirrorscope.Decoder
