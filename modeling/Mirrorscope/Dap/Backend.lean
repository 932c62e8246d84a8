import Mirrorscope.Dap.Protocol
import Mirrorscope.Lib.Effect
import Mirrorscope.Lib.Hosted

/-! # Debug backends

What the server asks of the target it serves, and the stub target it serves until a
recording is launched. A backend is an object in a system: its methods update it and
act on the system, and a method that fails keeps what it has done so far.
-/

namespace Mirrorscope.Dap

open Run (Hosted)

/-! ## Answers of a backend -/

/-- How a resumed target came to rest. -/
inductive StopInfo where
  | stopped (reason : String) (threadId : UInt64)
  | exited (code : Int)
deriving DecidableEq, Repr

/-- The execution control the client asked for. -/
inductive ResumeKind where
  | continue
  | reverseContinue
  | stepBack
  | next
  | stepIn
  | stepOut
deriving DecidableEq, Repr

/-- Why a backend could not answer. -/
inductive BackendError where
  | notSupported (message : String)
  | engine (message : String)
  | noTracee
  | badArgs (message : String)
deriving DecidableEq, Repr

namespace BackendError

/-- The text a client is shown. -/
def toString : BackendError → String
  | .notSupported message => message
  | .engine message => message
  | .noTracee =>
    "no live replay tracee: the target has exited or was not launched from a trace"
  | .badArgs message => "invalid request arguments: " ++ message

end BackendError

/-! ## Backends -/

/-- A method of a backend `β` in the system `ω`. -/
abbrev BackendMethod (β ω α : Type) : Type := EStateM BackendError (Hosted β ω) α

/-- A debug target the server can drive. `selectReplayBackend` opens a recording with a
checkpoint interval: the backend, `none` where the platform has no replay engine, or why the
recording cannot be opened. -/
class DebugBackend (β ω : Type) where
  launch : Value → BackendMethod β ω StopInfo
  threads : BackendMethod β ω Value
  stackTrace : Value → BackendMethod β ω Value
  scopes : Value → BackendMethod β ω Value
  «variables» : Value → BackendMethod β ω Value
  resume : ResumeKind → BackendMethod β ω StopInfo
  listCheckpoints : BackendMethod β ω Value
  taskTimeline : BackendMethod β ω Value
  jumpToEvent : Value → BackendMethod β ω StopInfo
  checkpointNote : β → Option String
  selectReplayBackend : String → UInt64 → ω → Except String (Option β) × ω

/-! ## The stub target -/

namespace Stub

def mainThreadId : UInt64 := 1

def threads : Value :=
  .object [("threads", .array [.object [("id", .ofU64 mainThreadId), ("name", .string "main")]])]

def stackTrace : Value :=
  .object [("stackFrames", .array [
    .object [("id", .ofU64 1),
      ("name", .string "main (stub target — recording/replay not yet wired)"),
      ("line", .ofU64 1), ("column", .ofU64 1)],
    .object [("id", .ofU64 2), ("name", .string "_start (stub)"),
      ("line", .ofU64 0), ("column", .ofU64 0)]]),
    ("totalFrames", .ofU64 2)]

def scopes : Value :=
  .object [("scopes", .array [.object [("name", .string "Locals"),
    ("variablesReference", .ofU64 1), ("expensive", .bool false)]])]

def «variables» : Value :=
  .object [("variables", .array [.object [("name", .string "mirrorscope"),
    ("value", .string "stub target — see issues #4/#6 for real state"),
    ("variablesReference", .ofU64 0)]])]

def reverseStubMessage : String :=
  "not wired to the replay engine: reverse execution needs a recording " ++
    "(launch with a \"trace\" argument)"

end Stub

namespace StopInfo

/-- A stop of the main thread. -/
def onMain (reason : String) : StopInfo := .stopped reason Stub.mainThreadId

end StopInfo

/-- The static stub target. -/
inductive StubBackend where
  | new
deriving DecidableEq, Repr

namespace StubBackend

def resume {ω : Type} : ResumeKind → BackendMethod StubBackend ω StopInfo
  | .stepBack | .reverseContinue => throw (.notSupported Stub.reverseStubMessage)
  | .continue | .next | .stepIn | .stepOut => pure (.onMain "step")

/-- The stub on a platform without a replay engine. -/
instance debugBackend {ω : Type} : DebugBackend StubBackend ω where
  launch _ := pure (.onMain "entry")
  threads := pure Stub.threads
  stackTrace _ := pure Stub.stackTrace
  scopes _ := pure Stub.scopes
  «variables» _ := pure Stub.«variables»
  resume := StubBackend.resume
  listCheckpoints := pure (.object [("checkpoints", .array [])])
  taskTimeline := pure (.object [("tasks", .array [])])
  jumpToEvent _ :=
    throw (.notSupported
      "jumpToEvent needs the replay engine: launch with a \"trace\" argument")
  checkpointNote _ := none
  selectReplayBackend _ _ w := (.ok none, w)

end StubBackend

end Mirrorscope.Dap
