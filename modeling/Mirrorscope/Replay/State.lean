import Mirrorscope.Capture.Payload
import Mirrorscope.Lib.Run
import Mirrorscope.Replay.Schedule

/-! # The replay session

The data of a replay session, its errors, and the shape of its computations: a
method reads and updates the session, calls into the kernel, and may return
early with an error that leaves both as they are at that point.
-/

namespace Mirrorscope.Replay

open Capture (PayloadError)
open Linux (Arch Call Errno Pid Ptrace Registers Signal)
open Trace (Cmdline EventKind Record TraceError)

/-- One resolved stack frame. -/
structure SymbolizedFrame where
  function : Option String
  file : Option String
  line : Option UInt32
  address : UInt64
deriving DecidableEq, Repr

/-- An error of the remote unwinder, by its text. -/
structure RemoteError where
  text : String
deriving DecidableEq, Repr

/-- What the replayer uses of the remote unwinder: loading the modules of a
process, reading the leaf registers (the pc), and unwinding from them. -/
class Unwind (ω : Type) where
  forPid : Pid → Call ω RemoteError Unit
  registers : Pid → Call ω RemoteError UInt64
  backtrace : Pid → UInt64 → Call ω RemoteError (List SymbolizedFrame)

/-- Errors validating a watchpoint request. -/
inductive WatchpointError where
  | invalidLen (len : UInt8)
  | misaligned (addr : UInt64) (len : UInt8)
deriving DecidableEq, Repr

/-- Errors while launching or driving a replay. -/
inductive ReplayError where
  | trace (error : TraceError)
  | payload (error : PayloadError)
  | noCmdline
  | spawn (error : ByteIO.IoError)
  | ptrace (error : Errno)
  | memory (addr : UInt64) (len : Nat) (source : Errno)
  | diverged (seq expectedNr foundNr : UInt64)
  | scheduleDiverged (seq : UInt64) (detail : String)
  | unexpectedRecord (seq : UInt64) (expected : String) (found : EventKind)
  | traceExhausted
  | checkpoint (seq : Option UInt64) (reason : String)
  | watchpointRequest (error : WatchpointError)
  | watchpoint (reason : String)
  | unwind (error : RemoteError)
deriving DecidableEq, Repr

/-- The errors that report a divergence from the recording. -/
def ReplayError.IsDivergence : ReplayError → Prop
  | diverged .. | scheduleDiverged .. | unexpectedRecord .. => True
  | _ => False

/-- How the replayed tracee left off. -/
inductive ExitOutcome where
  | exited (code : Int32)
  | signaled (signum : Int32)
  | running
deriving DecidableEq, Repr

/-- A syscall seen at its entry stop, awaiting its exit stop: where its injected
result goes, if it is one whose result is fed from the trace. -/
structure Pending where
  injectAddr : Option UInt64
deriving DecidableEq, Repr

inductive WatchKind where
  | write
  | readWrite
deriving DecidableEq, Repr

/-- The active watchpoint request. -/
structure Watchpoint where
  addr : UInt64
  len : UInt8
  kind : WatchKind
deriving DecidableEq, Repr

/-- One recorded access to the watched range. -/
structure WatchHit where
  seq : Option UInt64
  pc : UInt64
  oldValue : Option Bytes
  newValue : Bytes
  backtrace : List SymbolizedFrame
deriving DecidableEq, Repr

/-- The cached unwinder, bound to the process it was loaded for. -/
structure RemoteUnwinder where
  pid : Pid
deriving DecidableEq, Repr

/-- A fork snapshot and the bookkeeping to resume from it. -/
structure CheckpointInfo where
  seq : UInt64
  cursor : Nat
  currentSeq : Option UInt64
  lastRegs : Option Registers
  snapshot : Pid
deriving DecidableEq, Repr

/-! ## Multi-threaded state -/

/-- A syscall in flight on one thread between its entry and exit stops. -/
structure PendingSys where
  suppressed : Bool
  injectAddr : Option UInt64
deriving DecidableEq, Repr

/-- Per-thread replay bookkeeping. -/
structure ThreadRt where
  pending : Option PendingSys := none
  resumeSignal : Option Signal := none
deriving DecidableEq, Repr

/-- Live thread set and schedule state of a multi-threaded replay. -/
structure MtState where
  leader : Pid
  threads : KeyMap Pid ThreadRt
  tidmap : TidMap
  vforkSuspended : KeyMap Pid Pid
  expectedTid : Option UInt32

/-- The state with no thread in it yet. -/
def MtState.new (leader : Pid) : MtState where
  leader
  threads := ∅
  tidmap := TidMap.new
  vforkSuspended := ∅
  expectedTid := none

/-- Every live tracee pid currently followed, ascending. -/
def MtState.livePids (mt : MtState) : List Pid := mt.threads.keys

/-! ## The session -/

/-- A driven replay of a recorded target. -/
structure ReplaySession where
  pid : Pid
  cmdline : Cmdline
  records : List Record
  cursor : Nat := 0
  currentSeq : Option UInt64 := none
  pending : Option Pending := none
  resumeSignal : Option Signal := none
  lastRegs : Option Registers := none
  finished : Option ExitOutcome := none
  checkpointInterval : UInt64 := 0
  checkpoints : List CheckpointInfo := []
  watchpoint : Option Watchpoint := none
  watchHits : List WatchHit := []
  lastValue : Option Bytes := none
  unwinder : Option RemoteUnwinder := none
  multithreaded : Bool
  mt : Option MtState := none

/-- A session and the system its tracees live in. -/
structure World (ω : Type) where
  session : ReplaySession
  os : ω

/-- A method of the session. -/
abbrev Method (ω : Type) := Run ReplayError (World ω)

/-- Whether a drive to `stopAt` is over at `current`. -/
def reached (stopAt current : Option UInt64) : Bool :=
  match stopAt, current with
  | some target, some current => current ≥ target
  | _, _ => false

section

variable {ω α ε : Type}

/-- A call into the system, with its failure as a replay error. -/
def osOr (err : ε → ReplayError) (call : Call ω ε α) : Method ω α :=
  Run.lift fun w =>
    match call w.os with
    | (.ok a, os) => (.ok a, { w with os })
    | (.error e, os) => (.error (err e), { w with os })

/-- A call whose failure is an error number. -/
def os (call : Call ω Errno α) : Method ω α := osOr .ptrace call

/-- Read the session. -/
def self : Method ω ReplaySession := do
  let w ← Run.read
  pure w.session

/-- Update the session. -/
def modifySelf (f : ReplaySession → ReplaySession) : Method ω Unit :=
  Run.update fun w => { w with session := f w.session }

/-- `?` on a result of another error type. -/
def orFail (err : ε → ReplayError) : Except ε α → Method ω α
  | .ok a => pure a
  | .error e => Run.fail (err e)

/-- Every live tracee pid the session drives. -/
def ReplaySession.liveThreads (s : ReplaySession) : List Pid :=
  match s.mt with
  | some mt => mt.livePids
  | none => [s.pid]

/-! ## Execution of the primitives -/

@[simp] theorem exec_self (w : World ω) :
    Run.exec (self : Method ω ReplaySession) w = some (.ok w.session, w) := rfl

@[simp] theorem exec_modifySelf (f : ReplaySession → ReplaySession) (w : World ω) :
    Run.exec (modifySelf f) w = some (.ok (), { w with session := f w.session }) := rfl

@[simp] theorem exec_orFail_ok (err : ε → ReplayError) (a : α) (w : World ω) :
    Run.exec (orFail err (.ok a)) w = some (.ok a, w) := rfl

@[simp] theorem exec_orFail_error (err : ε → ReplayError) (e : ε) (w : World ω) :
    Run.exec (orFail err (.error e : Except ε α)) w = some (.error (err e), w) := rfl

theorem exec_osOr_ok {err : ε → ReplayError} {call : Call ω ε α} {w : World ω} {a : α} {os' : ω}
    (h : call w.os = (.ok a, os')) :
    Run.exec (osOr err call) w = some (.ok a, { w with os := os' }) := by
  simp [osOr, h]

theorem exec_osOr_error {err : ε → ReplayError} {call : Call ω ε α} {w : World ω} {e : ε}
    {os' : ω} (h : call w.os = (.error e, os')) :
    Run.exec (osOr err call) w = some (.error (err e), { w with os := os' }) := by
  simp [osOr, h]

/-- A call always returns and never touches the session. -/
theorem exec_osOr_inv {err : ε → ReplayError} {call : Call ω ε α} {w w' : World ω}
    {r : Except ReplayError α} (h : Run.exec (osOr err call) w = some (r, w')) :
    (∃ a os', call w.os = (.ok a, os') ∧ r = .ok a ∧ w' = { w with os := os' }) ∨
      ∃ e os', call w.os = (.error e, os') ∧ r = .error (err e) ∧ w' = { w with os := os' } := by
  rcases hc : call w.os with ⟨e | a, os'⟩
  · rw [exec_osOr_error hc] at h
    rcases Prod.mk.inj (Option.some.inj h) with ⟨rfl, rfl⟩
    exact .inr ⟨e, os', rfl, rfl, rfl⟩
  · rw [exec_osOr_ok hc] at h
    rcases Prod.mk.inj (Option.some.inj h) with ⟨rfl, rfl⟩
    exact .inl ⟨a, os', rfl, rfl, rfl⟩

end

end Mirrorscope.Replay
