import Mirrorscope.Replay.Mt
import Mirrorscope.Trace.Reader

/-! # Driving a replay

The single-tracee driver, checkpoints during forward replay, jumping to a
checkpoint or back to process entry, and the calls a debugger makes.
-/

namespace Mirrorscope.Replay

open Capture Linux
open Trace (Cmdline EventKind Record TraceReader)

variable {ω : Type} (arch : Arch) [Ptrace arch ω] [Unwind ω]

/-! ## Consuming records -/

/-- The first index from `cursor` on that is not a checkpoint record. -/
def skipFrom : List Record → Nat
  | [] => 0
  | record :: records => if record.event.kind = .checkpoint then skipFrom records + 1 else 0

def skipCheckpoints : Method ω Unit :=
  modifySelf fun s => { s with cursor := s.cursor + skipFrom (s.records.drop s.cursor) }

def nextRecord : Method ω Record := do
  skipCheckpoints
  let s ← self
  match s.records[s.cursor]? with
  | none => Run.fail .traceExhausted
  | some record => do
    modifySelf fun s => { s with cursor := s.cursor + 1 }
    pure record

def onEntry (regs : Registers) : Method ω Unit := do
  let record ← nextRecord
  match record.event.kind with
  | .syscallEnter => do
    let enter ← orFail .payload (SyscallEnter.decode record.event.payload)
    if enter.nr ≠ regs.nr then Run.fail (.diverged record.seq enter.nr regs.nr)
    else do
      modifySelf fun s => { s with currentSeq := some record.seq }
      let s ← self
      let injectAddr := injectionAddr arch regs.nr regs.args
      Run.when injectAddr.isSome (Regs.suppressSyscall arch s.pid)
      modifySelf fun s => { s with pending := some { injectAddr } }
  | found => Run.fail (.unexpectedRecord record.seq "SyscallEnter" found)

def onExit (pending : Pending) : Method ω Unit := do
  let record ← nextRecord
  match record.event.kind with
  | .syscallExit => do
    let exit ← orFail .payload (SyscallExit.decode record.event.payload)
    modifySelf fun s => { s with currentSeq := some record.seq }
    match pending.injectAddr with
    | some addr => do
      let s ← self
      writeMemory arch s.pid addr exit.data
      Regs.setReturn arch s.pid exit.ret
    | none => pure ()
  | found => Run.fail (.unexpectedRecord record.seq "SyscallExit" found)

def onSyscallStop : Method ω Unit := do
  let s ← self
  let regs ← Regs.read arch s.pid
  modifySelf fun s => { s with lastRegs := some regs, pending := none }
  match s.pending with
  | none => onEntry arch regs
  | some pending => onExit arch pending

/-- Consume the record at the cursor if it is a signal record; it must name the
signal of the stop. -/
def matchSignal (signal : Signal) : Method ω Unit := do
  let s ← self
  match s.records[s.cursor]? with
  | some record =>
    if record.event.kind = .signal then do
      let recorded ← orFail .payload (SignalDelivery.decode record.event.payload)
      if recorded.signum ≠ signal.num then
        Run.fail (.scheduleDiverged record.seq
          ("expected delivered signal " ++ toString recorded.signum ++ ", got " ++
            toString signal.num))
      else
        modifySelf fun s => { s with currentSeq := some record.seq, cursor := s.cursor + 1 }
    else pure ()
  | none => pure ()

/-- A signal stop; the signal is delivered whether or not it was recorded. -/
def onSignalStop (signal : Signal) : Method ω Unit := do
  skipCheckpoints
  matchSignal signal
  modifySelf fun s => { s with resumeSignal := some signal }

/-! ## Driving -/

/-- At a clean syscall boundary, take a snapshot if one is due. -/
def maybeCheckpoint : Method ω Unit := do
  let s ← self
  -- a fork copies the calling thread alone, and none is taken in the middle of a syscall
  if s.multithreaded then pure ()
  else if s.pending.isSome then pure ()
  else
    match s.currentSeq with
    | none => pure ()
    | some seq =>
      if ¬ isCheckpointDue (s.checkpoints.getLast?.map (·.seq)) seq s.checkpointInterval then
        pure ()
      else do
        let snapshot ← forkSnapshot arch s.pid
        modifySelf fun s =>
          { s with
            checkpoints := s.checkpoints ++
              [{ seq, cursor := s.cursor, currentSeq := s.currentSeq, lastRegs := s.lastRegs,
                 snapshot }] }

def finish (outcome : ExitOutcome) : Method ω (Option ExitOutcome) := do
  modifySelf fun s => { s with finished := some outcome }
  pure (some outcome)

/-- A `SIGTRAP` may be a watchpoint hit; any other stop is a signal. -/
def onStopped (pid : Pid) (signal : Signal) : Method ω Unit :=
  if signal = .trap then do
    let hit ← isWatchHit arch pid
    if hit then onWatchHit arch pid else onSignalStop signal
  else onSignalStop signal

/-- What a wait status means to the single-tracee driver. -/
def onStatus (pid : Pid) : WaitStatus → Method ω (Option ExitOutcome)
  | .ptraceSyscall _ => do
    onSyscallStop arch
    maybeCheckpoint arch
    pure none
  | .stopped _ signal => do
    onStopped arch pid signal
    pure none
  | .exited _ code => finish (.exited code)
  | .signaled _ sig _ => finish (.signaled sig.num)
  | _ => pure none

/-- One round of the single-tracee loop. -/
def driveRound (stopAt : Option UInt64) : Method ω (Option ExitOutcome) := do
  let s ← self
  if reached stopAt s.currentSeq then pure (some .running)
  else do
    modifySelf fun s => { s with resumeSignal := none }
    os (Ptrace.syscall arch s.pid s.resumeSignal)
    let status ← os (Ptrace.waitpid arch s.pid .none)
    onStatus arch s.pid status

def drive (stopAt : Option UInt64) : Method ω ExitOutcome := do
  let s ← self
  match s.finished with
  | some outcome => pure outcome
  | none =>
    if s.multithreaded then Mt.drive arch stopAt else Run.loop (driveRound arch stopAt)

/-! ## Jumping -/

/-- Kill and reap the active tracee, ignoring failures. -/
def killActive : Method ω Unit := do
  let s ← self
  match s.finished with
  | some _ => pure ()
  | none => do
    Run.attempt (os (Ptrace.kill arch s.pid))
    Run.attempt (os (Ptrace.waitpid arch s.pid .none))

/-- Re-arm the debug registers of a fresh tracee and drop the cached unwinder. -/
def rearmWatchpoint : Method ω Unit := do
  modifySelf fun s => { s with unwinder := none }
  let s ← self
  match s.watchpoint with
  | some wp => WatchHw.arm arch s.pid wp.addr wp.len wp.kind
  | none => pure ()

/-- Fork a fresh tracee from a checkpoint's snapshot and re-seat the session at
its boundary. An index out of range panics. -/
def restoreToCheckpoint (index : Nat) : Method ω Unit := do
  let s ← self
  match s.checkpoints[index]? with
  | none => Run.never
  | some checkpoint => do
    -- the snapshot itself stays for the restores to come
    let fresh ← forkSnapshot arch checkpoint.snapshot
    killActive arch
    modifySelf fun s =>
      { s with
        pid := fresh
        cursor := checkpoint.cursor
        currentSeq := checkpoint.currentSeq
        lastRegs := checkpoint.lastRegs
        pending := none
        resumeSignal := none
        finished := none
        mt := none }
    rearmWatchpoint arch

/-- Spawn the target and take it through its first stop, the exec's `SIGTRAP`. -/
def spawnStopped (cmdline : Cmdline) : Method ω Pid := do
  let pid ← osOr .spawn (Ptrace.spawnTraced arch cmdline)
  let _ ← os (Ptrace.waitpid arch pid .none)
  os (Ptrace.setoptions arch pid setupOptions)
  pure pid

/-- Re-spawn the target and reset the session to process entry. -/
def respawn : Method ω Unit := do
  killActive arch
  let s ← self
  let pid ← spawnStopped arch s.cmdline
  modifySelf fun s =>
    { s with
      pid
      cursor := 0
      currentSeq := none
      pending := none
      resumeSignal := none
      lastRegs := none
      finished := none
      mt := none }
  rearmWatchpoint arch

/-- Where to restart for a target: the nearest checkpoint at or before it, else
process entry. -/
structure StartPoint where
  index : Option Nat
  seq : UInt64
deriving DecidableEq, Repr

def planStart (s : ReplaySession) (target : UInt64) : StartPoint :=
  match nearestAtOrBefore (s.checkpoints.map (·.seq)) target with
  | some index => { index := some index, seq := ((s.checkpoints[index]?).map (·.seq)).getD 0 }
  | none => { index := none, seq := 0 }

/-- Go to a start point. -/
def restart (start : StartPoint) : Method ω Unit :=
  match start.index with
  | some index => restoreToCheckpoint arch index
  | none => respawn arch

/-! ## Calls -/

def runTo (seq : UInt64) : Method ω ExitOutcome := do
  let s ← self
  let start := planStart s seq
  Run.when (shouldRestart s.currentSeq start.seq seq) (restart arch start)
  drive arch (some seq)

def restoreTo (seq : UInt64) : Method ω Unit := do
  let s ← self
  restart arch (planStart s seq)

def stepTo (seq : UInt64) : Method ω ExitOutcome := drive arch (some seq)

def runToEnd : Method ω ExitOutcome := drive arch none

def checkpointInterval (interval : UInt64) : Method ω Unit :=
  modifySelf fun s => { s with checkpointInterval := interval }

/-- Do something for every element, in order. -/
def forEach {α : Type} (f : α → Method ω Unit) : List α → Method ω Unit
  | [] => pure ()
  | a :: as => do
    f a
    forEach f as

/-- Arm a watchpoint on every live thread. -/
def watch (addr : UInt64) (len : UInt8) (kind : WatchKind) : Method ω Unit := do
  orFail .watchpointRequest (validate addr len)
  let s ← self
  forEach (fun live => WatchHw.arm arch live addr len kind) s.liveThreads
  let value ← readMemory arch s.pid addr len.toNat
  modifySelf fun s => { s with lastValue := some value, watchpoint := some { addr, len, kind } }

/-- Disarm the watchpoint on every live thread and forget the request. -/
def clearWatch : Method ω Unit := do
  let s ← self
  modifySelf fun s => { s with watchpoint := none }
  Run.when (s.watchpoint.isSome && s.finished.isNone)
    (forEach (WatchHw.disarm arch) s.liveThreads)
  modifySelf fun s => { s with lastValue := none }

def takeWatchHits : Method ω (List WatchHit) := do
  let s ← self
  modifySelf fun s => { s with watchHits := [] }
  pure s.watchHits

/-- Kill and reap every tracee the session has, a leader after its siblings, ignoring
failures. -/
def drop : Method ω Unit := do
  let s ← self
  let followed : List Pid :=
    match s.mt with
    | some mt => mt.livePids
    | none => []
  let tracees :=
    if s.finished.isNone && !followed.contains s.pid then followed ++ [s.pid] else followed
  -- a stable sort by `pid == self.pid`
  let tracees := tracees.filter (· ≠ s.pid) ++ tracees.filter (· = s.pid)
  let snapshots := s.checkpoints.map (·.snapshot)
  forEach (fun pid => Run.attempt (os (Ptrace.kill arch pid))) tracees
  forEach (fun pid => Run.attempt (os (Ptrace.kill arch pid))) snapshots
  forEach (fun pid => Run.attempt (os (Ptrace.waitpid arch pid .wall))) tracees
  forEach (fun pid => Run.attempt (os (Ptrace.waitpid arch pid .wall))) snapshots

/-- A session over the records of a trace, before its target is spawned. -/
def ReplaySession.ofTrace (cmdline : Cmdline) (records : List Record) : ReplaySession :=
  { pid := 0, cmdline, records, multithreaded := traceIsMultithreaded records }

/-- Launch a session on a trace: spawn the target and seat the session at entry. -/
def launch : Method ω Unit := do
  let s ← self
  let pid ← spawnStopped arch s.cmdline
  modifySelf fun s => { s with pid }

/-- A call on a session. -/
inductive SessionCall where
  | runTo (seq : UInt64)
  | stepTo (seq : UInt64)
  | runToEnd
  | restoreTo (seq : UInt64)
  | checkpointInterval (interval : UInt64)
  | watch (addr : UInt64) (len : UInt8) (kind : WatchKind)
  | clearWatch
  | takeWatchHits
deriving DecidableEq, Repr

/-- Make a call; the calls that drive the tracee answer with how it left off. -/
def perform : SessionCall → Method ω (Option ExitOutcome)
  | .runTo seq => do
    let outcome ← runTo arch seq
    pure (some outcome)
  | .stepTo seq => do
    let outcome ← stepTo arch seq
    pure (some outcome)
  | .runToEnd => do
    let outcome ← runToEnd arch
    pure (some outcome)
  | .restoreTo seq => do
    restoreTo arch seq
    pure none
  | .checkpointInterval interval => do
    checkpointInterval interval
    pure none
  | .watch addr len kind => do
    watch arch addr len kind
    pure none
  | .clearWatch => do
    clearWatch arch
    pure none
  | .takeWatchHits => do
    let _ ← takeWatchHits
    pure none

/-- Whether a call goes back to a checkpoint or to process entry first. -/
def SessionCall.restarts (s : ReplaySession) : SessionCall → Bool
  | .runTo seq => shouldRestart s.currentSeq (planStart s seq).seq seq
  | .restoreTo _ => true
  | _ => false

/-- The states of a session: launched, then any calls, whether they fail or not. -/
inductive Reachable : World ω → Prop where
  | launch {cmdline : Cmdline} {records : List Record} {os : ω} {w : World ω}
      (h : Run.exec (launch arch) ⟨ReplaySession.ofTrace cmdline records, os⟩ = some (.ok (), w)) :
      Reachable w
  | call {w w' : World ω} {r : Except ReplayError (Option ExitOutcome)} (hw : Reachable w)
      (c : SessionCall) (h : Run.exec (perform arch c) w = some (r, w')) : Reachable w'

end Mirrorscope.Replay
