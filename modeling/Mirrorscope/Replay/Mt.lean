import Mirrorscope.Replay.Checkpoint

/-! # Multi-threaded replay

The driver that enforces a recorded single-core schedule: it walks the records,
resumes exactly the live thread a record names, and checks that the stop it
reaches is the recorded one.
-/

namespace Mirrorscope.Replay.Mt

open Capture Linux
open Trace (EventKind Record)

variable {ω : Type} (arch : Arch) [Ptrace arch ω] [Unwind ω]

/-- How a syscall is handled: whether it is suppressed, and where its recorded
result goes. -/
def classify (nr : UInt64) (args : Args) : PendingSys :=
  match injectionAddr arch nr args with
  | some addr => { suppressed := true, injectAddr := some addr }
  | none => { suppressed := false, injectAddr := none }

/-- The options every followed thread runs under during replay. -/
def mtTraceOptions : Options :=
  { tracesysgood := true, exitkill := true, traceclone := true, tracefork := true,
    tracevfork := true, traceexec := true }

/-! ## Thread state -/

/-- The thread state; it panics unless `ensure_state` ran before. -/
def state : Method ω MtState := do
  let s ← self
  match s.mt with
  | some mt => pure mt
  | none => Run.never

def modifyState (f : MtState → MtState) : Method ω Unit := do
  let mt ← state
  modifySelf fun s => { s with mt := some (f mt) }

/-- Update one thread, if it is followed. -/
def MtState.modifyThread (mt : MtState) (live : Pid) (f : ThreadRt → ThreadRt) : MtState :=
  match mt.threads[live]? with
  | some thread => { mt with threads := mt.threads.insert live (f thread) }
  | none => mt

def takeResumeSignal (live : Pid) : Method ω (Option Signal) := do
  let mt ← state
  modifyState fun mt => MtState.modifyThread mt live fun t => { t with resumeSignal := none }
  pure (mt.threads[live]?.bind ThreadRt.resumeSignal)

def setPending (live : Pid) (pending : Option PendingSys) : Method ω Unit :=
  modifyState fun mt => MtState.modifyThread mt live fun t => { t with pending }

def takePending (live : Pid) : Method ω (Option PendingSys) := do
  let mt ← state
  modifyState fun mt => MtState.modifyThread mt live fun t => { t with pending := none }
  pure (mt.threads[live]?.bind ThreadRt.pending)

def removeThread (tid : UInt32) (live : Pid) : Method ω Unit :=
  modifyState fun mt =>
    { mt with
      threads := mt.threads.erase live
      tidmap := mt.tidmap.unbindRecorded tid
      vforkSuspended := mt.vforkSuspended.erase live }

def advance (seq : UInt64) : Method ω Unit :=
  modifySelf fun s => { s with currentSeq := some seq, cursor := s.cursor + 1 }

/-! ## Divergence -/

def stopDiverged (seq : UInt64) (tid : UInt32) (expected : String) (got : WaitStatus) :
    ReplayError :=
  .scheduleDiverged seq
    ("thread " ++ toString tid ++ ": expected " ++ expected ++ ", got " ++ got.debug)

def tidmapDiverged (seq : UInt64) (err : TidMapError) : ReplayError :=
  .scheduleDiverged seq ("recorded/live tid mapping conflict: " ++ err.debug)

/-- Check that a record is tagged with the tid the schedule expects; the first
concrete record is adopted. -/
def enforceTid (record : Record) : Method ω UInt32 :=
  match record.event.tid with
  | none =>
    Run.fail (.scheduleDiverged record.seq "v3 multi-threaded record is missing its tid")
  | some tid => do
    let mt ← state
    match mt.expectedTid with
    -- before any switch, the record itself says who runs
    | none => do
      modifyState fun mt => { mt with expectedTid := some tid }
      pure tid
    | some expected =>
      if expected = tid then pure tid
      else
        Run.fail (.scheduleDiverged record.seq
          s!"schedule says thread {expected} runs next, but the record is tagged tid {tid}")

/-- The live pid of a recorded tid; on an empty table the tid is the leader's. -/
def liveFor (tid : UInt32) (seq : UInt64) : Method ω Pid := do
  let mt ← state
  match mt.tidmap.liveOf tid with
  | some live => pure live
  | none =>
    if mt.tidmap.isEmpty then do
      let tidmap ← orFail (tidmapDiverged seq) (mt.tidmap.bind tid mt.leader)
      modifyState fun mt => { mt with tidmap }
      pure mt.leader
    else Run.fail (.scheduleDiverged seq s!"record names unbound tid {tid}")

/-! ## Stepping -/

/-- One round of `step_thread`: resume, wait, and go on past an exec or a
watchpoint hit. The signal is delivered on the first resume only. -/
def stepRound (live : Pid) (sig : Option Signal) : Method ω (Option WaitStatus) := do
  os (Ptrace.syscall arch live sig)
  let status ← os (Ptrace.waitpid arch live .wall)
  match status with
  | .ptraceEvent _ _ event => if event = EventCode.exec then pure none else pure (some status)
  | .stopped _ .trap => do
    let hit ← isWatchHit arch live
    if hit then do
      onWatchHit arch live
      pure none
    else pure (some status)
  | _ => pure (some status)

/-- Resume exactly `live` towards its next instrumented point. -/
def stepThread (live : Pid) (sig : Option Signal) : Method ω WaitStatus := do
  match ← stepRound arch live sig with
  | some status => pure status
  | none => Run.loop (stepRound arch live none)

/-! ## One record -/

def onSchedSwitch (record : Record) : Method ω Unit := do
  let switch ← orFail .payload (SchedSwitch.decode record.event.payload)
  modifyState fun mt => { mt with expectedTid := some switch.tid }
  advance record.seq

def onSyscallEnter (record : Record) : Method ω Unit := do
  let tid ← enforceTid record
  let live ← liveFor tid record.seq
  let sig ← takeResumeSignal live
  match ← stepThread arch live sig with
  | .ptraceSyscall _ => do
    let regs ← Regs.read arch live
    modifySelf fun s => { s with lastRegs := some regs }
    let enter ← orFail .payload (SyscallEnter.decode record.event.payload)
    if enter.nr ≠ regs.nr then Run.fail (.diverged record.seq enter.nr regs.nr)
    else do
      let pending := classify arch regs.nr regs.args
      Run.when pending.suppressed (Regs.suppressSyscall arch live)
      setPending live (some pending)
      advance record.seq
  | status => Run.fail (stopDiverged record.seq tid "a syscall-entry stop" status)

/-- Feed the recorded result of a suppressed syscall back. -/
def injectResult (live : Pid) (pending : PendingSys) (exit : SyscallExit) : Method ω Unit :=
  Run.when pending.suppressed
    (match pending.injectAddr with
    | some addr => do
      writeMemory arch live addr exit.data
      Regs.setReturn arch live exit.ret
    | none => Regs.setReturn arch live exit.ret)

def onSyscallExit (record : Record) : Method ω Unit := do
  let tid ← enforceTid record
  let live ← liveFor tid record.seq
  match ← stepThread arch live none with
  | .ptraceSyscall _ => do
    let regs ← Regs.read arch live
    modifySelf fun s => { s with lastRegs := some regs }
    let exit ← orFail .payload (SyscallExit.decode record.event.payload)
    match ← takePending live with
    | none =>
      Run.fail (.scheduleDiverged record.seq
        s!"syscall-exit for recorded tid {tid} with no matching entry")
    | some pending => do
      injectResult arch live pending exit
      advance record.seq
  | status => Run.fail (stopDiverged record.seq tid "a syscall-exit stop" status)

/-- Reap a freshly cloned child's initial stop and follow it. -/
def registerChild (child : Pid) (seq : UInt64) : Method ω Unit := do
  match ← os (Ptrace.waitpid arch child .wall) with
  | .stopped _ _ => os (Ptrace.setoptions arch child mtTraceOptions)
  | .ptraceEvent _ _ _ => os (Ptrace.setoptions arch child mtTraceOptions)
  | other =>
    Run.fail (.scheduleDiverged seq
      ("cloned child " ++ toString child ++ " did not stop as expected: " ++ other.debug))

def bindChild (seq : UInt64) (childTid : UInt32) (child parent : Pid) (vforked : Bool) :
    Method ω Unit := do
  let mt ← state
  let tidmap ← orFail (tidmapDiverged seq) (mt.tidmap.bind childTid child)
  modifyState fun mt =>
    { mt with
      tidmap
      threads := mt.threads.insert child {}
      vforkSuspended :=
        if vforked then mt.vforkSuspended.insert child parent else mt.vforkSuspended }

/-- Arm the session's watchpoint, if there is one, on a new thread. -/
def armChild (child : Pid) : Method ω Unit := do
  let s ← self
  match s.watchpoint with
  | some wp => WatchHw.arm arch child wp.addr wp.len wp.kind
  | none => pure ()

def onThreadSpawn (record : Record) : Method ω Unit := do
  let tid ← enforceTid record
  let parent ← liveFor tid record.seq
  let spawn ← orFail .payload (ThreadSpawn.decode record.event.payload)
  let sig ← takeResumeSignal parent
  let status ← stepThread arch parent sig
  match status with
  | .ptraceEvent _ _ event =>
    if isSpawnEvent event then do
      let child ← os (Ptrace.getevent arch parent)
      registerChild arch child record.seq
      bindChild record.seq spawn.childTid child parent (event == EventCode.vfork)
      armChild arch child
      advance record.seq
    else Run.fail (stopDiverged record.seq tid "a thread-spawn (clone) event" status)
  | _ => Run.fail (stopDiverged record.seq tid "a thread-spawn (clone) event" status)

/-- How a thread that is gone left off. -/
def exitOutcome : WaitStatus → Option ExitOutcome
  | .exited _ code => some (.exited code)
  | .signaled _ sig _ => some (.signaled sig.num)
  | _ => none

/-- `some` iff the leader exited, which ends the replay. -/
def onThreadExit (record : Record) : Method ω (Option ExitOutcome) := do
  let tid ← enforceTid record
  let live ← liveFor tid record.seq
  let sig ← takeResumeSignal live
  let status ← stepThread arch live sig
  match exitOutcome status with
  | none => Run.fail (stopDiverged record.seq tid "a thread exit" status)
  | some outcome => do
    let mt ← state
    removeThread tid live
    advance record.seq
    -- the leader's exit is the target's
    if live = mt.leader then do
      modifySelf fun s => { s with finished := some outcome }
      pure (some outcome)
    else pure none

def onSignal (record : Record) : Method ω Unit := do
  let tid ← enforceTid record
  let live ← liveFor tid record.seq
  let sig ← takeResumeSignal live
  match ← stepThread arch live sig with
  | .stopped _ delivered => do
    let recorded ← orFail .payload (SignalDelivery.decode record.event.payload)
    if recorded.signum ≠ delivered.num then
      Run.fail (.scheduleDiverged record.seq
        ("thread " ++ toString tid ++ ": expected delivered signal " ++
          toString recorded.signum ++ ", got " ++ toString delivered.num))
    else do
      modifyState fun mt =>
        MtState.modifyThread mt live fun t => { t with resumeSignal := some delivered }
      advance record.seq
  | status => Run.fail (stopDiverged record.seq tid "a signal-delivery stop" status)

/-! ## The driver -/

/-- Seat the leader as the only live thread, on first entry. -/
def ensureState : Method ω Unit := do
  let s ← self
  match s.mt with
  | some _ => pure ()
  | none => do
    os (Ptrace.setoptions arch s.pid mtTraceOptions)
    modifySelf fun s =>
      { s with
        mt := some { MtState.new s.pid with threads := (∅ : KeyMap Pid ThreadRt).insert s.pid {} } }

/-- Handle the record at the cursor. -/
def onRecord (record : Record) : Method ω (Option ExitOutcome) :=
  match record.event.kind with
  | .checkpoint => do
    modifySelf fun s => { s with cursor := s.cursor + 1 }
    pure none
  | .schedSwitch => do
    onSchedSwitch record
    pure none
  | .syscallEnter => do
    onSyscallEnter arch record
    pure none
  | .syscallExit => do
    onSyscallExit arch record
    pure none
  | .threadSpawn => do
    onThreadSpawn arch record
    pure none
  | .threadExit => onThreadExit arch record
  | .signal => do
    onSignal arch record
    pure none
  | other =>
    Run.fail (.unexpectedRecord record.seq "syscall or thread-lifecycle record" other)

/-- One round of the driver's loop. -/
def driveRound (stopAt : Option UInt64) : Method ω (Option ExitOutcome) := do
  let s ← self
  if reached stopAt s.currentSeq then pure (some .running)
  else
    match s.records[s.cursor]? with
    | none => Run.fail .traceExhausted
    | some record => onRecord arch record

/-- Drive forward until the target is reached, the leader exits, or replay diverges. -/
def drive (stopAt : Option UInt64) : Method ω ExitOutcome := do
  ensureState arch
  Run.loop (driveRound arch stopAt)

end Mirrorscope.Replay.Mt

namespace Mirrorscope.Replay

open Linux

/-! ## What an entry on one thread changes -/

theorem threads_modifyThread (mt : MtState) (live : Pid) (f : ThreadRt → ThreadRt) (x : Pid) :
    (Mt.MtState.modifyThread mt live f).threads[x]? =
      if live = x then mt.threads[x]?.map f else mt.threads[x]? := by
  unfold Mt.MtState.modifyThread
  by_cases h : live = x
  · subst h
    rw [if_pos rfl]
    split
    · rename_i thread hthread
      show (mt.threads.insert live (f thread))[live]? = _
      rw [KeyMap.get_insert, if_pos rfl, hthread]
      rfl
    · rename_i hnone
      rw [hnone]
      rfl
  · rw [if_neg h]
    split
    · rename_i thread _
      show (mt.threads.insert live (f thread))[x]? = _
      rw [KeyMap.get_insert, if_neg h]
    · rfl

theorem tidmap_modifyThread (mt : MtState) (live : Pid) (f : ThreadRt → ThreadRt) :
    (Mt.MtState.modifyThread mt live f).tidmap = mt.tidmap := by
  unfold Mt.MtState.modifyThread
  split
  · rfl
  · rfl

theorem leader_modifyThread (mt : MtState) (live : Pid) (f : ThreadRt → ThreadRt) :
    (Mt.MtState.modifyThread mt live f).leader = mt.leader := by
  unfold Mt.MtState.modifyThread
  split
  · rfl
  · rfl

theorem expectedTid_modifyThread (mt : MtState) (live : Pid) (f : ThreadRt → ThreadRt) :
    (Mt.MtState.modifyThread mt live f).expectedTid = mt.expectedTid := by
  unfold Mt.MtState.modifyThread
  split
  · rfl
  · rfl

end Mirrorscope.Replay
