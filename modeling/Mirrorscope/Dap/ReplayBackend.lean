import Mirrorscope.Dap.Backend
import Mirrorscope.Replay.Session

/-! # The replay backend

The backend behind a recording: a replay session, and beside it an index into the
recorded events, the `SyscallExit` records of the trace. The calls that move the
target move the session to an event and the index with it.
-/

namespace Mirrorscope.Dap

open Linux Replay Run
open Trace (Cmdline Record)

/-- A backend driven by the replay engine. `cursor` is the index of the current stop in
`events`; the number of events means at or past the end. -/
structure ReplayBackend where
  session : ReplaySession
  events : List UInt64
  cursor : Nat
  exited : Option Int32
  multithreaded : Bool

/-- A method of the backend, which may run its target forever. -/
abbrev ReplayMethod (ω α : Type) : Type := Run BackendError (Hosted ReplayBackend ω) α

/-- The seq of every `SyscallExit` record, and whether the schedule is multi-threaded. -/
def readTraceMeta (records : List Record) : List UInt64 × Bool :=
  ((records.filter fun record => record.event.kind = .syscallExit).map (·.seq),
    traceIsMultithreaded records)

/-- `Iterator::rposition`: the index of the last element that passes. -/
def rposition {α : Type} (p : α → Bool) : List α → Option Nat
  | [] => none
  | x :: xs =>
    match rposition p xs with
    | some index => some (index + 1)
    | none => if p x then some 0 else none

namespace ReplayBackend

variable {ω : Type} (arch : Arch) [Ptrace arch ω] [Unwind ω] (text : ReplayError → String)

/-- An error of the engine, by its text. -/
def engine (error : ReplayError) : BackendError := .engine (text error)

/-- The session and the system its tracees live in. -/
def world (b : Hosted ReplayBackend ω) : World ω := ⟨b.object.session, b.host⟩

/-- Call a method of the session. -/
def onSession {α : Type} (m : Method ω α) : ReplayMethod ω α :=
  zoom world (fun w b => { object := { b.object with session := w.session }, host := w.os })
    (engine text) m

/-- Open a trace of these records: spawn the target and read the event timeline. -/
def «open» (cmdline : Cmdline) (records : List Record) (interval : UInt64) (host : ω) :
    Option (Except BackendError ReplayBackend × ω) :=
  let spawn : Method ω Unit := do
    Replay.launch arch
    checkpointInterval interval
  match exec spawn ⟨ReplaySession.ofTrace cmdline records, host⟩ with
  | none => none
  | some (.error e, w) => some (.error (engine text e), w.os)
  | some (.ok (), w) =>
    let (events, multithreaded) := readTraceMeta records
    some (.ok { session := w.session, events, cursor := 0, exited := none, multithreaded }, w.os)

/-! ## Moving the target -/

/-- Describe a stop, and note whether the target has ended. -/
def classify (reason : String) : ExitOutcome → ReplayMethod ω StopInfo
  | .running => do
    modifyObject fun b => { b with exited := none }
    pure (.onMain reason)
  | .exited code => do
    modifyObject fun b => { b with exited := some code }
    pure (.exited code.toInt)
  | .signaled signal => do
    modifyObject fun b => { b with exited := some (128 + signal) }
    pure (.exited (128 + signal).toInt)

/-- Drive the session to an event. An index out of range panics. -/
def goto (index : Nat) (reason : String) : ReplayMethod ω StopInfo := do
  let b ← object
  match b.events[index]? with
  | none => never
  | some seq => do
    let outcome ← onSession text (runTo arch seq)
    modifyObject fun b => { b with cursor := index }
    classify reason outcome

/-- Run the target to completion. -/
def runToEnd : ReplayMethod ω StopInfo := do
  let outcome ← onSession text (Replay.runToEnd arch)
  modifyObject fun b => { b with cursor := b.events.length }
  classify "step" outcome

/-! ## The calls of the server -/

def launch (_arguments : Value) : ReplayMethod ω StopInfo := do
  let b ← object
  if b.events.isEmpty then runToEnd arch text else goto arch text 0 "entry"

def resume : ResumeKind → ReplayMethod ω StopInfo
  | .continue => runToEnd arch text
  | .reverseContinue => do
    let b ← object
    if b.events.isEmpty then runToEnd arch text else goto arch text 0 "step"
  | .stepBack => do
    let b ← object
    if b.events.isEmpty then fail (.notSupported "no recorded events to step back over")
    else goto arch text (b.cursor - 1) "step"
  | .next | .stepIn | .stepOut => do
    let b ← object
    if b.events.length ≤ b.cursor + 1 then runToEnd arch text
    else goto arch text (b.cursor + 1) "step"

def jumpToEvent (arguments : Value) : ReplayMethod ω StopInfo :=
  match (arguments.get "seq").bind Value.asU64 with
  | none => fail (.badArgs "jumpToEvent requires a numeric \"seq\"")
  | some seq => do
    let outcome ← onSession text (runTo arch seq)
    let b ← object
    let reached := b.session.currentSeq.getD 0
    modifyObject fun b => { b with cursor := (rposition (fun s => s ≤ reached) b.events).getD 0 }
    classify "step" outcome

/-- The snapshots taken so far. -/
def listCheckpoints : ReplayMethod ω Value := do
  let b ← object
  pure (.object [("checkpoints",
    .array (b.session.checkpoints.map fun cp => .object [("seq", .ofU64 cp.seq)]))])

def checkpointNote (b : ReplayBackend) : Option String :=
  if b.multithreaded then
    some ("checkpointing disabled: this trace records a multi-threaded schedule, and fork " ++
      "snapshots can only capture a single live thread, so listCheckpoints will stay " ++
      "empty and stepBack/reverseContinue re-execute from process entry.")
  else none

/-- A call that moves the target. -/
inductive MoveCall where
  | launch (arguments : Value)
  | resume (kind : ResumeKind)
  | jumpToEvent (arguments : Value)

/-- Make a call that moves the target. -/
def move : MoveCall → ReplayMethod ω StopInfo
  | .launch arguments => launch arch text arguments
  | .resume kind => resume arch text kind
  | .jumpToEvent arguments => jumpToEvent arch text arguments

end ReplayBackend

end Mirrorscope.Dap
