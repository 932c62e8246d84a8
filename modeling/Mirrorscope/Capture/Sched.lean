import Mirrorscope.Capture.Syscall
import Mirrorscope.Lib.KeyMap

/-! # The recording scheduler

Single-core serialization of a traced process: the scheduler resumes one thread,
waits for the next stop of any of them, records what happened, and chooses who runs
next.
-/

namespace Mirrorscope.Capture

open Linux
open Run (Hosted)
open Trace (Event EventKind)

/-- The options of the leader and of every followed thread. -/
def traceOptions : Options :=
  { tracesysgood := true, exitkill := true, traceclone := true, tracefork := true,
    tracevfork := true, traceexec := true }

/-- Per-thread capture state: the registers of a syscall entry that awaits its exit,
and the signal to deliver on the next resume. -/
structure Thread where
  pendingEnter : Option Registers := none
  resumeSignal : Option Signal := none
deriving DecidableEq, Repr

/-- The scheduler. Its writer is known by the events it has taken. -/
structure Scheduler where
  writer : List Event
  threads : KeyMap Pid Thread
  ready : List Pid
  running : Option Pid
  lastScheduled : Option Pid
  leader : Pid
  leaderExit : Option Int32
  eventsRecorded : Nat
  threadsFollowed : Nat
  /-- `vfork`ed children and the parents they release. -/
  vforkPending : KeyMap Pid Pid

namespace Scheduler

/-- The scheduler of a leader that is stopped at its exec, before anything ran. -/
def ofLeader (leader : Pid) : Scheduler where
  writer := []
  threads := (∅ : KeyMap Pid Thread).insert leader {}
  ready := [leader]
  running := none
  lastScheduled := some leader
  leader
  leaderExit := none
  eventsRecorded := 0
  threadsFollowed := 1
  vforkPending := ∅

def requeue (s : Scheduler) (pid : Pid) : Scheduler :=
  if (s.threads[pid]?).isSome && !s.ready.contains pid then { s with ready := s.ready ++ [pid] }
  else s

def clearRunning (s : Scheduler) (pid : Pid) : Scheduler :=
  if s.running = some pid then { s with running := none } else s

/-- Update one thread, if it is tracked. -/
def modifyThread (s : Scheduler) (pid : Pid) (f : Thread → Thread) : Scheduler :=
  match s.threads[pid]? with
  | some thread => { s with threads := s.threads.insert pid (f thread) }
  | none => s

/-- An event taken by the writer. -/
def emit (s : Scheduler) (event : Event) : Scheduler :=
  { s with writer := s.writer ++ [event], eventsRecorded := s.eventsRecorded + 1 }

end Scheduler

variable {ω : Type}

/-- A method of the scheduler. -/
abbrev Method (ω : Type) := Run CaptureError (Hosted Scheduler ω)

open Run (object modifyObject tryCall call)

section

variable [Host ω]

/-- `SERIALIZATION_CPU`. -/
def serializationCpu : Nat := 0

def pinToSerializationCpu (pid : Pid) : Method ω Unit :=
  call (.affinity pid serializationCpu) (Host.schedSetaffinity pid serializationCpu)

/-- `DEFAULT_QUANTUM`, in nanoseconds. -/
def defaultQuantum : Nat := 10 * 1000 * 1000

def arm : Method ω Unit := call .ptrace (Host.setInterval defaultQuantum)

def disarm : Method ω Unit := call .ptrace (Host.setInterval 0)

/-- A scheduler for a leader already stopped at its exec: the leader is pinned and
queued. -/
def new (leader : Pid) : Method ω Unit := do
  pinToSerializationCpu leader
  call .ptrace Host.timerCreate
  modifyObject fun _ => .ofLeader leader

def now : Method ω UInt64 :=
  Run.lift fun w =>
    let (ts, host) := Host.elapsed w.host
    (.ok ts, { w with host })

def append (event : Event) : Method ω Unit := do
  call .trace (Host.append event)
  modifyObject fun s => s.emit event

def recordSchedSwitch (next : Pid) : Method ω Unit := do
  let s ← object
  if s.lastScheduled = some next then pure ()
  else do
    modifyObject fun s => { s with lastScheduled := some next }
    let ts ← now
    append (.newWithTid .schedSwitch ts (tidOf next) (SchedSwitch.encode { tid := tidOf next }))

end

variable (arch : Arch) [Ptrace arch ω] [Host ω]

/-- Resume the next ready thread, if there is one. -/
def resumeNext : Method ω Unit := do
  let s ← object
  match s.ready with
  | [] => pure ()
  | next :: ready => do
    modifyObject fun s => { s with ready }
    recordSchedSwitch next
    let s ← object
    -- the signal it stopped with is taken, and delivered by the resumption
    modifyObject fun s => s.modifyThread next fun t => { t with resumeSignal := none }
    call .ptrace (Ptrace.syscall arch next ((s.threads[next]?).bind Thread.resumeSignal))
    modifyObject fun s => { s with running := some next }

def onSyscall (pid : Pid) : Method ω Unit := do
  let regs ← readSyscallRegs arch pid
  let ts ← now
  let s ← object
  modifyObject fun s => s.modifyThread pid fun t => { t with pendingEnter := none }
  match (s.threads[pid]?).bind Thread.pendingEnter with
  | none => do
    append (enterEvent ts (tidOf pid) regs)
    modifyObject fun s => s.modifyThread pid fun t => { t with pendingEnter := some regs }
  | some enter => do
    let event ← exitEvent arch ts (tidOf pid) pid enter regs.ret
    append event

/-- A thread creation: the child registers itself at its own first stop. -/
def onSpawn (parent : Pid) : Method ω Pid := do
  let child ← call .ptrace (Ptrace.getevent arch parent)
  let ts ← now
  append (.newWithTid .threadSpawn ts (tidOf parent)
    (ThreadSpawn.encode { parentTid := tidOf parent, childTid := tidOf child }))
  pure child

/-- Track a new child, pinned and under the trace options. -/
def registerChild (pid : Pid) : Method ω Unit := do
  pinToSerializationCpu pid
  call .ptrace (Ptrace.setoptions arch pid traceOptions)
  modifyObject fun s =>
    { s with threads := s.threads.insert pid {}, threadsFollowed := s.threadsFollowed + 1 }

/-- A signal stop. The first stop of a new child is swallowed, and so is a `SIGSTOP`. -/
def onStopped (pid : Pid) (sig : Signal) : Method ω Unit := do
  let s ← object
  -- a thread not known yet, whichever signal it stops with
  if (s.threads[pid]?).isNone then do
    registerChild arch pid
    modifyObject fun s => s.requeue pid
  else do
    modifyObject fun s => s.clearRunning pid
    Run.when (sig ≠ .stop) do
      let ts ← now
      append (.newWithTid .signal ts (tidOf pid) (SignalDelivery.encode { signum := sig.num }))
      modifyObject fun s => s.modifyThread pid fun t => { t with resumeSignal := some sig }
    modifyObject fun s => s.requeue pid

omit [Ptrace arch ω] in
/-- Release the parent of a `vfork`ed child that is gone. -/
def Scheduler.release (s : Scheduler) (pid : Pid) : Scheduler :=
  match s.vforkPending[pid]? with
  | some parent => { s with vforkPending := s.vforkPending.erase pid }.requeue parent
  | none => s

omit [Ptrace arch ω] in
/-- A thread is gone. A recording of one thread has no lifecycle events. -/
def onExit (pid : Pid) (code : Option Int32) : Method ω Unit := do
  modifyObject fun s => s.clearRunning pid
  let s ← object
  modifyObject fun s => { s with threads := s.threads.erase pid }
  Run.when ((s.threads[pid]?).isSome && decide (s.threadsFollowed > 1)) do
    let ts ← now
    append (.newWithTid .threadExit ts (tidOf pid) (ThreadExit.encode { tid := tidOf pid }))
  modifyObject fun s =>
    { s with
      ready := s.ready.filter fun p => p ≠ pid
      leaderExit := if pid = s.leader then code else s.leaderExit }
  modifyObject fun s => s.release pid

def handle : WaitStatus → Method ω Unit
  | .ptraceSyscall pid => do
    modifyObject fun s => s.clearRunning pid
    onSyscall arch pid
    modifyObject fun s => s.requeue pid
  | .ptraceEvent pid _ event => do
    modifyObject fun s => s.clearRunning pid
    if isSpawnEvent event then do
      let child ← onSpawn arch pid
      -- a `vfork` parent is suspended until its child is gone
      if event = EventCode.vfork then
        modifyObject fun s => { s with vforkPending := s.vforkPending.insert child pid }
      else modifyObject fun s => s.requeue pid
    else modifyObject fun s => s.requeue pid
  | .stopped pid sig => onStopped arch pid sig
  | .exited pid code => onExit pid (some code)
  | .signaled pid _ _ => onExit pid none
  | _ => pure ()

omit [Ptrace arch ω] in
/-- Stop a thread that may be gone already. -/
def stopThread (cur : Pid) : Method ω Unit := do
  match ← tryCall (Host.kill cur .stop) with
  | .ok () => pure ()
  | .error e => if e = Errno.ESRCH then pure () else Run.fail (.ptrace e)

/-- The running thread overran its quantum: stop it and reap the stop. -/
def preempt (cur : Pid) : Method ω Unit := do
  stopThread cur
  let status ← call .ptrace (Ptrace.waitpid arch cur .wallNoThread)
  handle arch status

def preemptRunning : Method ω Unit := do
  let s ← object
  match s.running with
  | some cur => preempt arch cur
  | none => pure ()

/-- `Pid::from_raw(-1)`: any child. -/
def anyChild : Pid := -1

/-- What a wait for any thread leads to; `some ()` ends the recording. -/
def react : Except Errno WaitStatus → Method ω (Option Unit)
  | .ok status => do
    disarm
    handle arch status
    pure none
  | .error e =>
    -- the timer of the quantum went off
    if e = Errno.EINTR then do
      disarm
      preemptRunning arch
      pure none
    -- no thread is left to wait for
    else if e = Errno.ECHILD then pure (some ())
    else Run.fail (.ptrace e)

/-- One turn of the loop; `some ()` ends the recording. -/
def turn : Method ω (Option Unit) := do
  let s ← object
  if s.threads.isEmpty then pure (some ())
  else do
    Run.when s.running.isNone (resumeNext arch)
    arm
    let status ← tryCall (Ptrace.waitpid arch anyChild .wallNoThread)
    react arch status

/-- Run every thread to completion. -/
def run : Method ω RecordOutcome := do
  let _ ← Run.loop (turn arch)
  let s ← object
  pure { exitCode := s.leaderExit, eventsRecorded := s.eventsRecorded,
         threadsFollowed := s.threadsFollowed }

end Mirrorscope.Capture
