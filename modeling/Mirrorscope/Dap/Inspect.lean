import Mirrorscope.Dap.ReplayBackend
import Mirrorscope.Decoder.LiveView

/-! # Inspecting a stopped target

What the replay backend answers about the tracee it is stopped at: its threads, the stack of the
first of them, its registers and its tasks. The answers are read off the tracee afresh each time,
and reading changes neither the session nor the system.
-/

namespace Mirrorscope.Dap

open Checked (Prog lift mapErr)
open Decoder (ErrorTexts LogicalFrame ProcessView SemanticDecoder TaskId
  TaskKind TaskNode TaskState TaskTree ThreadedView selectDecoder)
open Linux
open Replay (ReplaySession)
open Run (Hosted)
open Unwind (IterFrames ObjectFiles Procfs RemoteUnwinder)

/-! ## Frames, tasks and registers as values -/

/-- The final component of a path, or all of it where there is none. -/
def fileName (path : String) : String :=
  let components := (Text.split '/' path.toList).filter fun c => c ≠ [] ∧ c ≠ ['.']
  match components.getLast? with
  | some name => if name = ['.', '.'] then path else String.ofList name
  | none => path

/-- A frame as the client sees it; without a location it stands at line 0. -/
def logicalFrameToDap (index : Nat) (frame : LogicalFrame) : Value :=
  let id := ("id", Value.ofU64 (UInt64.ofNat index + 1))
  let name := ("name", Value.string frame.displayName)
  match frame.location with
  | none => .object [id, name, ("line", .ofU64 0), ("column", .ofU64 0)]
  | some location =>
    .object [id, name, ("line", .ofU64 location.line.toUInt64),
      ("column", .ofU64 location.column.toUInt64),
      ("source", .object [("name", .string (fileName location.path)),
        ("path", .string location.path)])]

/-- A stable label for a kind of task. -/
def taskKind : TaskKind → String
  | .thread => "thread"
  | .asyncTask => "async_task"
  | .goroutine => "goroutine"
  | .coroutine => "coroutine"

/-- A stable label for the state of a task. -/
def taskState : TaskState → String
  | .runnable => "runnable"
  | .running => "running"
  | .blocked _ => "blocked"
  | .completed => "completed"

def serializeTask (id : TaskId) (node : TaskNode) : Value :=
  .object [("id", .ofU64 id.raw), ("name", .string node.name),
    ("kind", .string (taskKind node.kind)), ("state", .string (taskState node.state)),
    ("parent", (node.parent.map fun parent => Value.ofU64 parent.raw).getD .null)]

/-- A register, in sixteen hexadecimal digits. -/
def registerVar (name : String) (value : UInt64) : Value :=
  .object [("name", .string name),
    ("value", .string ("0x" ++ String.ofList (Numeral.padded 16 16 value.toNat))),
    ("type", .string "u64"), ("variablesReference", .ofU64 0)]

/-- The note that stands where local variables would. -/
def localsNote : Value :=
  .object [("name", .string "(locals)"),
    ("value", .string ("DWARF local-variable evaluation is not yet implemented (Layer 5, " ++
      "issue-tracked); showing registers only.")),
    ("variablesReference", .ofU64 0)]

/-! ## What the backend answers -/

namespace ReplayBackend

/-- The reference of the one scope there is. -/
def registersRef : UInt64 := 1000

/-- The tracee, as long as it has not exited. -/
def traceePid (b : ReplayBackend) : Except BackendError Pid :=
  if b.exited.isSome then .error .noTracee else .ok b.session.pid

def scopes (_arguments : Value) : Value :=
  .object [("scopes", .array [.object [("name", .string "Registers"),
    ("variablesReference", .ofU64 registersRef), ("expensive", .bool false)]])]

/-- The threads that the roots of a tree are, numbered from 1. -/
def threadList (tree : TaskTree) : Value :=
  .object [("threads", .array (tree.roots.zipIdx.map fun root =>
    .object [("id", .ofU64 (UInt64.ofNat root.2 + 1)),
      ("name", .string (((tree.node root.1).map TaskNode.name).getD ""))]))]

def stackFrames (frames : List LogicalFrame) : Value :=
  let stack := frames.zipIdx.map fun frame => logicalFrameToDap frame.2 frame.1
  .object [("stackFrames", .array stack), ("totalFrames", .ofU64 (UInt64.ofNat stack.length))]

def taskList (tree : TaskTree) (flat : List TaskId) : Value :=
  .object [("tasks", .array ((tree.taskTimeline flat).map fun task =>
    serializeTask task.1 task.2))]

variable {ω : Type} (arch : Arch) [Ptrace arch ω] [Procfs ω] (files : ObjectFiles)
  (iterFrames : IterFrames) (texts : ErrorTexts) (rest : ProcessView)

/-- A decoder, and a fresh view of the stopped tracee. -/
def decode (b : Hosted ReplayBackend ω) : Prog BackendError (SemanticDecoder × ProcessView) := do
  let pid ← lift (traceePid b.object)
  let view ← mapErr (fun e => .engine (texts.view e)) (ThreadedView.forPid files pid b.host)
  pure (selectDecoder, view.toProcessView arch texts iterFrames rest)

/-- The task tree of the stopped tracee. -/
def decodeTasks (b : Hosted ReplayBackend ω) :
    Prog BackendError (SemanticDecoder × ProcessView × TaskTree) := do
  let (decoder, view) ← decode arch files iterFrames texts rest b
  let tree ← lift ((decoder.decodeTasks view).mapError fun e => .engine e.display)
  pure (decoder, view, tree)

def threads (b : Hosted ReplayBackend ω) : Prog BackendError Value := do
  let (_, _, tree) ← decodeTasks arch files iterFrames texts rest b
  pure (threadList tree)

/-- The stack of the first task. -/
def stackTrace (_arguments : Value) (b : Hosted ReplayBackend ω) : Prog BackendError Value := do
  let (decoder, view, tree) ← decodeTasks arch files iterFrames texts rest b
  match tree.roots.head? with
  | none => pure (stackFrames [])
  | some task =>
    let frames ← lift ((decoder.logicalStack view task).mapError fun e => .engine e.display)
    pure (stackFrames frames)

/-- The tasks, flattened in preorder; the flattening nests no deeper than there are tasks. -/
def taskTimeline (b : Hosted ReplayBackend ω) : Prog BackendError Value := do
  let (_, _, tree) ← decodeTasks arch files iterFrames texts rest b
  pure (taskList tree ((tree.flattenPreorder (tree.len + 1)).getD []))

/-- The registers of the tracee, under their own reference only. -/
def «variables» (arguments : Value) (b : Hosted ReplayBackend ω) : Prog BackendError Value :=
  if (arguments.get "variablesReference").bind Value.asU64 ≠ some registersRef then
    pure (.object [("variables", .array [])])
  else do
    let pid ← lift (traceePid b.object)
    let unwinder ← mapErr (fun e => .engine (texts.remote e))
      (RemoteUnwinder.forPid files pid b.host)
    let regs ← lift ((unwinder.registers b.host).mapError fun e => .engine (texts.remote e))
    pure (.object [("variables", .array [registerVar "pc" regs.pc, registerVar "sp" regs.sp,
      registerVar "fp" regs.fp, registerVar "lr" regs.lr, localsNote])])

end ReplayBackend

end Mirrorscope.Dap
