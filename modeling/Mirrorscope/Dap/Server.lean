import Mirrorscope.Dap.Backend

/-! # The debug adapter server

The request loop: read a frame, dispatch the request to the backend, and write responses
and events. The reader is the list of what `read_frame` still yields, and the writer is
part of the system.
-/

namespace Mirrorscope.Dap

open Run (Hosted)

/-! ## Transport -/

/-- Why a frame could not be read or written. -/
inductive TransportError where
  | missingContentLength
  | invalidContentLength (value : String)
  | malformedJson (message : String)
  | io (message : String)
deriving DecidableEq, Repr

/-- A system with the client's end of the connection in it. -/
class FrameWriter (ω : Type) where
  writeFrame : Value → ω → Except TransportError Unit × ω

/-! ## The server -/

/-- The checkpoint interval of a launch that names none. -/
def defaultCheckpointInterval : UInt64 := 200

/-- A single-session server. -/
structure Server (β : Type) where
  nextSeq : UInt64
  backend : β

namespace Server

variable {β ω : Type}

/-- A server that has sent nothing yet. -/
def new (backend : β) : Server β := { nextSeq := 0, backend }

end Server

/-- A method of the server. -/
abbrev ServerMethod (β ω α : Type) : Type := EStateM TransportError (Hosted (Server β) ω) α

namespace Server

variable {β ω α : Type}

/-- Call a method of the backend, with its failure as an answer. -/
def asks (method : BackendMethod β ω α) : ServerMethod β ω (Except BackendError α) := fun w =>
  match method ⟨w.object.backend, w.host⟩ with
  | .ok a v => .ok (.ok a) ⟨{ w.object with backend := v.object }, v.host⟩
  | .error e v => .ok (.error e) ⟨{ w.object with backend := v.object }, v.host⟩

/-! ### Writing -/

def bumpSeq : ServerMethod β ω UInt64 := fun w =>
  let seq := w.object.nextSeq + 1
  .ok seq { w with object := { w.object with nextSeq := seq } }

section Writing

variable [FrameWriter ω]

def writeFrame (message : Value) : ServerMethod β ω Unit := fun w =>
  match FrameWriter.writeFrame message w.host with
  | (.ok (), host) => .ok () { w with host }
  | (.error e, host) => .error e { w with host }

def respondSuccess (request : Request) (body : Value) : ServerMethod β ω Unit := do
  let seq ← bumpSeq
  writeFrame (success seq request body)

def respondFailure (request : Request) (message : String) : ServerMethod β ω Unit := do
  let seq ← bumpSeq
  writeFrame (failure seq request message)

def emitEvent (name : String) (body : Value) : ServerMethod β ω Unit := do
  let seq ← bumpSeq
  writeFrame (event seq name body)

/-- The body of an `output` event. -/
def outputBody (message : String) : Value :=
  .object [("category", .string "stderr"), ("output", .string (message ++ "\n"))]

def emitOutput (message : String) : ServerMethod β ω Unit :=
  emitEvent "output" (outputBody message)

/-- The events a stop is reported by. -/
def emitStop : StopInfo → ServerMethod β ω Unit
  | .stopped reason threadId =>
    emitEvent "stopped" (.object [("reason", .string reason), ("threadId", .ofU64 threadId),
      ("allThreadsStopped", .bool true)])
  | .exited code => do
    emitEvent "exited" (.object [("exitCode", .number (.ofInt code))])
    emitEvent "terminated" (.object [])

/-- Surface a backend error. -/
def fail (request : Request) (error : BackendError) : ServerMethod β ω Unit := do
  let message := error.toString
  emitOutput message
  respondFailure request message

def answer (request : Request) : Except BackendError Value → ServerMethod β ω Unit
  | .ok body => respondSuccess request body
  | .error error => fail request error

end Writing

/-! ### Requests -/

section Requests

variable [FrameWriter ω] [DebugBackend β ω]

def onInitialize (request : Request) : ServerMethod β ω Unit := do
  let capabilities := .object [("supportsConfigurationDoneRequest", .bool true),
    ("supportsStepBack", .bool true), ("supportsRestartRequest", .bool false),
    ("supportsSetVariable", .bool false)]
  respondSuccess request capabilities
  emitEvent "initialized" (.object [])

/-- Open a recording. -/
def selectReplayBackend (trace : String) (checkpointInterval : UInt64) :
    ServerMethod β ω (Except String (Option β)) := fun w =>
  let (answer, host) := DebugBackend.selectReplayBackend trace checkpointInterval w.host
  .ok answer { w with host }

/-- Report how the launch went, with the backend's note on its checkpoints. -/
def launched (request : Request) : Except BackendError StopInfo → ServerMethod β ω Unit
  | .ok stop => do
    respondSuccess request (.object [])
    match DebugBackend.checkpointNote ω (← get).object.backend with
    | some note => do
      emitOutput note
      emitStop stop
    | none => emitStop stop
  | .error error => fail request error

/-- Start the backend that is now in place. -/
def launchBackend (request : Request) : ServerMethod β ω Unit := do
  launched request (← asks (DebugBackend.launch request.arguments))

/-- Launch on the backend the recording opened as; a recording that does not open is a
failure, and the backend stays the one that was served before. -/
def launchSelected (request : Request) : Except String (Option β) → ServerMethod β ω Unit
  | .ok (some backend) => do
    modify fun w => { w with object := { w.object with backend } }
    launchBackend request
  | .ok none => do
    emitOutput "replay backend unavailable on this platform; serving the stub target"
    launchBackend request
  | .error message => do
    emitOutput message
    respondFailure request message

def onLaunch (request : Request) : ServerMethod β ω Unit :=
  match (request.arguments.get "trace").bind Value.asStr with
  | some trace => do
    let checkpointInterval :=
      ((request.arguments.get "checkpointInterval").bind Value.asU64).getD
        defaultCheckpointInterval
    launchSelected request (← selectReplayBackend trace checkpointInterval)
  | none => launchBackend request

def onResume (request : Request) (kind : ResumeKind) : ServerMethod β ω Unit := do
  match ← asks (DebugBackend.resume kind) with
  | .ok stop => do
    let body :=
      if kind = .continue then .object [("allThreadsContinued", .bool true)] else .object []
    respondSuccess request body
    emitStop stop
  | .error error => fail request error

def onJump (request : Request) : ServerMethod β ω Unit := do
  match ← asks (DebugBackend.jumpToEvent request.arguments) with
  | .ok stop => do
    respondSuccess request (.object [])
    emitStop stop
  | .error error => fail request error

def dispatch (request : Request) : ServerMethod β ω Unit :=
  match request.command with
  | "initialize" => onInitialize request
  | "launch" | "attach" => onLaunch request
  | "configurationDone" | "disconnect" | "setBreakpoints" | "setExceptionBreakpoints" =>
    respondSuccess request (.object [])
  | "threads" => do answer request (← asks DebugBackend.threads)
  | "stackTrace" => do answer request (← asks (DebugBackend.stackTrace request.arguments))
  | "scopes" => do answer request (← asks (DebugBackend.scopes request.arguments))
  | "variables" => do answer request (← asks (DebugBackend.«variables» request.arguments))
  | "listCheckpoints" => do answer request (← asks DebugBackend.listCheckpoints)
  | "taskTimeline" => do answer request (← asks DebugBackend.taskTimeline)
  | "continue" => onResume request .continue
  | "reverseContinue" => onResume request .reverseContinue
  | "stepBack" => onResume request .stepBack
  | "next" => onResume request .next
  | "stepIn" => onResume request .stepIn
  | "stepOut" => onResume request .stepOut
  | "jumpToEvent" => onJump request
  | other => respondFailure request ("unsupported request: " ++ other)

/-- Serve until `disconnect`, the end of the stream or a broken frame. -/
def runBuffered : List (Except TransportError Value) → ServerMethod β ω Unit
  | [] => pure ()
  | .error e :: _ => throw e
  | .ok message :: reader =>
    match Request.fromValue message with
    | none => runBuffered reader
    | some request => do
      let disconnect := request.command == "disconnect"
      dispatch request
      if disconnect then pure () else runBuffered reader

end Requests

end Server

end Mirrorscope.Dap
