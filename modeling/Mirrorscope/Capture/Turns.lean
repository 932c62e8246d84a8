import Mirrorscope.Capture.Sched

/-! # Turns of the scheduler

What one turn of the recording scheduler does to its state, as a relation on the state
alone: who is resumed, and how the reported status is handled. Every turn of the code
is such a step, whatever the host answers.

The code is a loop of turns over a host; here its answers are gone, and two relations on the
scheduler are left:
* `Starts`: a thread is resumed if none runs.
* `Handled`: a status is handled; one constructor for each way the code takes.
* `Turn`, `turn_of_exec`: a turn of the code is the one and then the other.
* `Recording`: the states between the turns, with the reports so far.
-/

namespace Mirrorscope.Capture

open Linux Run
open Trace (Event EventKind)

/-! ## Steps of the state -/

/-- The record of a switch to `next`. -/
def switchEvent (ts : UInt64) (next : Pid) : Event :=
  .newWithTid .schedSwitch ts (tidOf next) (SchedSwitch.encode { tid := tidOf next })

def spawnEvent (ts : UInt64) (parent child : Pid) : Event :=
  .newWithTid .threadSpawn ts (tidOf parent)
    (ThreadSpawn.encode { parentTid := tidOf parent, childTid := tidOf child })

def signalEvent (ts : UInt64) (pid : Pid) (sig : Signal) : Event :=
  .newWithTid .signal ts (tidOf pid) (SignalDelivery.encode { signum := sig.num })

def threadExitEvent (ts : UInt64) (pid : Pid) : Event :=
  .newWithTid .threadExit ts (tidOf pid) (ThreadExit.encode { tid := tidOf pid })

def syscallExitEvent (ts : UInt64) (pid : Pid) (enter : Registers) (ret : Int64) (data : Bytes) :
    Event :=
  .newWithTid .syscallExit ts (tidOf pid) (exitPayload enter ret data)

namespace Scheduler

/-- The syscall entry of a thread that awaits its exit. -/
def pendingOf (s : Scheduler) (pid : Pid) : Option Registers :=
  (s.threads[pid]?).bind Thread.pendingEnter

/-- The thread is tracked. -/
def Tracks (s : Scheduler) (pid : Pid) : Prop := (s.threads[pid]?).isSome = true

/-- `next` was chosen: a switch is recorded unless it ran last. -/
def switched (s : Scheduler) (ts : UInt64) (next : Pid) : Scheduler :=
  if s.lastScheduled = some next then s
  else { s with lastScheduled := some next }.emit (switchEvent ts next)

/-- `next` was taken from the front of the queue and resumed. -/
def resumed (s : Scheduler) (ts : UInt64) (next : Pid) (ready : List Pid) : Scheduler :=
  { (({ s with ready }.switched ts next).modifyThread next fun t => { t with resumeSignal := none })
    with running := some next }

/-- A thread is gone: it neither runs nor is it tracked. -/
def untracked (s : Scheduler) (pid : Pid) : Scheduler :=
  { s.clearRunning pid with threads := (s.clearRunning pid).threads.erase pid }

/-- A thread is gone from the queue, before its parent is released. -/
def removed (s : Scheduler) (pid : Pid) (code : Option Int32) : Scheduler :=
  { s with
    ready := s.ready.filter fun p => p ≠ pid
    leaderExit := if pid = s.leader then code else s.leaderExit }

end Scheduler

/-- The thread whose end a status reports, and its exit code. -/
def gone : WaitStatus → Option (Pid × Option Int32)
  | .exited pid code => some (pid, some code)
  | .signaled pid _ _ => some (pid, none)
  | _ => none

/-- Who runs until the next report: the running thread, the first of the queue, or no
one. -/
inductive Starts (s : Scheduler) : Scheduler → Prop where
  | running {pid : Pid} (h : s.running = some pid) : Starts s s
  | idle (hrunning : s.running = none) (hready : s.ready = []) : Starts s s
  | resumed {next : Pid} {ready : List Pid} (hrunning : s.running = none)
      (hready : s.ready = next :: ready) (ts : UInt64) : Starts s (s.resumed ts next ready)

/-- How a reported status is handled; `child` is the thread a spawn event names. -/
inductive Handled (s : Scheduler) : WaitStatus → Option Pid → Scheduler → Prop where
  | enter {pid : Pid} (hpending : s.pendingOf pid = none) (ts : UInt64) (regs : Registers) :
      Handled s (.ptraceSyscall pid) none
        (((((s.clearRunning pid).modifyThread pid fun t => { t with pendingEnter := none }).emit
          (enterEvent ts (tidOf pid) regs)).modifyThread pid fun t =>
            { t with pendingEnter := some regs }).requeue pid)
  | exit {pid : Pid} {enter : Registers} (hpending : s.pendingOf pid = some enter) (ts : UInt64)
      (ret : Int64) (data : Bytes) :
      Handled s (.ptraceSyscall pid) none
        ((((s.clearRunning pid).modifyThread pid fun t => { t with pendingEnter := none }).emit
          (syscallExitEvent ts pid enter ret data)).requeue pid)
  | spawn {pid child : Pid} {sig : Signal} {event : EventCode} (hspawn : isSpawnEvent event = true)
      (hvfork : event ≠ EventCode.vfork) (ts : UInt64) :
      Handled s (.ptraceEvent pid sig event) (some child)
        (((s.clearRunning pid).emit (spawnEvent ts pid child)).requeue pid)
  | vfork {pid child : Pid} {sig : Signal} (ts : UInt64) :
      Handled s (.ptraceEvent pid sig EventCode.vfork) (some child)
        { (s.clearRunning pid).emit (spawnEvent ts pid child) with
          vforkPending := (s.clearRunning pid).vforkPending.insert child pid }
  | event {pid : Pid} {sig : Signal} {event : EventCode} (hspawn : isSpawnEvent event = false) :
      Handled s (.ptraceEvent pid sig event) none ((s.clearRunning pid).requeue pid)
  | first {pid : Pid} {sig : Signal} (hnew : ¬ s.Tracks pid) :
      Handled s (.stopped pid sig) none
        ({ s with
            threads := s.threads.insert pid {},
            threadsFollowed := s.threadsFollowed + 1 }.requeue pid)
  | stopped {pid : Pid} (htracked : s.Tracks pid) :
      Handled s (.stopped pid .stop) none ((s.clearRunning pid).requeue pid)
  | signal {pid : Pid} {sig : Signal} (htracked : s.Tracks pid) (hsig : sig ≠ .stop)
      (ts : UInt64) :
      Handled s (.stopped pid sig) none
        ((((s.clearRunning pid).emit (signalEvent ts pid sig)).modifyThread pid fun t =>
          { t with resumeSignal := some sig }).requeue pid)
  | exited {status : WaitStatus} {pid : Pid} {code : Option Int32}
      (hgone : gone status = some (pid, code)) (hsilent : ¬ (s.Tracks pid ∧ s.threadsFollowed > 1)) :
      Handled s status none (((s.untracked pid).removed pid code).release pid)
  | exitRecorded {status : WaitStatus} {pid : Pid} {code : Option Int32}
      (hgone : gone status = some (pid, code)) (htracked : s.Tracks pid)
      (hmany : s.threadsFollowed > 1) (ts : UInt64) :
      Handled s status none
        ((((s.untracked pid).emit (threadExitEvent ts pid)).removed pid code).release pid)
  | continued {pid : Pid} : Handled s (.continued pid) none s
  | stillAlive : Handled s .stillAlive none s

/-! ## The code takes these steps -/

section Code

variable {ω : Type}

/-- Reading the clock always succeeds and leaves the scheduler as it is. -/
theorem exec_now_inv [Host ω] {w w' : Hosted Scheduler ω} {r : Except CaptureError UInt64}
    (h : exec (now : Method ω UInt64) w = some (r, w')) :
    w'.object = w.object ∧ ∃ ts, r = .ok ts := by
  obtain ⟨hr, hw⟩ := Prod.mk.inj (Option.some.inj h)
  exact ⟨by rw [← hw], _, hr.symm⟩

theorem append_ok [Host ω] {event : Event} {w w' : Hosted Scheduler ω}
    (h : exec (append event : Method ω Unit) w = some (.ok (), w')) :
    w'.object = w.object.emit event := by
  obtain ⟨_, u, hcall, hrest⟩ := bind_ok_inv h
  obtain ⟨-, rfl⟩ := exec_call_ok hcall
  obtain ⟨-, rfl⟩ := exec_modifyObject_inv hrest
  rfl

/-- A switch that is not recorded would be to the same thread. -/
theorem recordSchedSwitch_ok [Host ω] {next : Pid} {w w' : Hosted Scheduler ω}
    (h : exec (recordSchedSwitch next : Method ω Unit) w = some (.ok (), w')) :
    ∃ ts, w'.object = w.object.switched ts next := by
  obtain ⟨s, u, hobject, hrest⟩ := bind_ok_inv h
  obtain ⟨hs, rfl⟩ := exec_object_inv hobject
  rcases Except.ok.inj hs with rfl
  split at hrest
  · rename_i hlast
    obtain ⟨-, rfl⟩ := Prod.mk.inj (Option.some.inj hrest)
    exact ⟨0, by rw [Scheduler.switched, if_pos hlast]⟩
  · rename_i hlast
    obtain ⟨_, u₁, hmodify, hrest⟩ := bind_ok_inv hrest
    obtain ⟨-, rfl⟩ := exec_modifyObject_inv hmodify
    obtain ⟨ts, u₂, hnow, happend⟩ := bind_ok_inv hrest
    obtain ⟨hobject, -⟩ := exec_now_inv hnow
    refine ⟨ts, ?_⟩
    rw [append_ok happend, hobject, Scheduler.switched, if_neg hlast]
    rfl

variable {arch : Arch} [Ptrace arch ω]

theorem readSyscallRegs_ok {σ : Type} {pid : Pid} {w w' : Hosted σ ω} {regs : Registers}
    (h : exec (readSyscallRegs arch pid) w = some (.ok regs, w')) : w'.object = w.object := by
  obtain ⟨full, u, hcall, hrest⟩ := bind_ok_inv h
  obtain ⟨-, rfl⟩ := exec_call_ok hcall
  obtain ⟨-, rfl⟩ := Prod.mk.inj (Option.some.inj hrest)
  rfl

/-- The data of an exit is captured from the tracee, whatever it holds. -/
theorem exitEvent_ok {σ : Type} {ts : UInt64} {pid : Pid} {enter : Registers} {ret : Int64}
    {w w' : Hosted σ ω} {event : Event}
    (h : exec (exitEvent arch ts (tidOf pid) pid enter ret) w = some (.ok event, w')) :
    w'.object = w.object ∧ ∃ data, event = syscallExitEvent ts pid enter ret data := by
  unfold exitEvent at h
  split at h
  · obtain ⟨data, u, hread, hrest⟩ := bind_ok_inv h
    obtain ⟨copied, u₁, hcall, hpure⟩ := bind_ok_inv hread
    obtain ⟨-, rfl⟩ := exec_call_ok hcall
    obtain ⟨hdata, rfl⟩ := Prod.mk.inj (Option.some.inj hpure)
    obtain ⟨hevent, rfl⟩ := Prod.mk.inj (Option.some.inj hrest)
    exact ⟨rfl, data, (Except.ok.inj hevent).symm⟩
  · obtain ⟨hevent, rfl⟩ := Prod.mk.inj (Option.some.inj h)
    exact ⟨rfl, [], (Except.ok.inj hevent).symm⟩

variable [Host ω]

/-- Choosing who runs. -/
theorem schedule_ok {w w' : Hosted Scheduler ω}
    (h : exec (when w.object.running.isNone (resumeNext arch)) w = some (.ok (), w')) :
    Starts w.object w'.object := by
  cases hrunning : w.object.running with
  | some pid =>
    rw [hrunning] at h
    obtain ⟨-, rfl⟩ := Prod.mk.inj (Option.some.inj h)
    exact .running hrunning
  | none =>
    rw [hrunning] at h
    obtain ⟨s, u, hobject, hrest⟩ := bind_ok_inv h
    obtain ⟨hs, rfl⟩ := exec_object_inv hobject
    rcases Except.ok.inj hs with rfl
    split at hrest
    · rename_i hready
      obtain ⟨-, rfl⟩ := Prod.mk.inj (Option.some.inj hrest)
      exact .idle hrunning hready
    · rename_i next ready hready
      obtain ⟨_, u₁, hmodify, hrest⟩ := bind_ok_inv hrest
      obtain ⟨-, rfl⟩ := exec_modifyObject_inv hmodify
      obtain ⟨_, u₂, hswitch, hrest⟩ := bind_ok_inv hrest
      obtain ⟨ts, hswitched⟩ := recordSchedSwitch_ok hswitch
      obtain ⟨s, u₃, hobject, hrest⟩ := bind_ok_inv hrest
      obtain ⟨-, rfl⟩ := exec_object_inv hobject
      obtain ⟨_, u₄, hmodify, hrest⟩ := bind_ok_inv hrest
      obtain ⟨-, rfl⟩ := exec_modifyObject_inv hmodify
      obtain ⟨_, u₅, hcall, hrest⟩ := bind_ok_inv hrest
      obtain ⟨-, rfl⟩ := exec_call_ok hcall
      obtain ⟨-, rfl⟩ := exec_modifyObject_inv hrest
      have hresumed := Starts.resumed hrunning hready ts
      rw [Scheduler.resumed, ← hswitched] at hresumed
      exact hresumed

/-- The child that a spawn event names. -/
def childOf (arch : Arch) [Ptrace arch ω] (status : WaitStatus) (host : ω) : Option Pid :=
  match status with
  | .ptraceEvent pid _ event =>
    if isSpawnEvent event then (Ptrace.getevent arch pid host).1.toOption else none
  | _ => none

/-- A syscall stop is the entry of a call, or the exit of the pending one. -/
theorem onSyscall_ok {pid : Pid} {w w' : Hosted Scheduler ω}
    (h : exec (do onSyscall arch pid; modifyObject fun s => s.requeue pid)
      { w with object := w.object.clearRunning pid } = some (.ok (), w')) :
    Handled w.object (.ptraceSyscall pid) none w'.object := by
  obtain ⟨_, u, hsyscall, hrequeue⟩ := bind_ok_inv h
  obtain ⟨-, rfl⟩ := exec_modifyObject_inv hrequeue
  obtain ⟨regs, u₁, hregs, hrest⟩ := bind_ok_inv hsyscall
  obtain ⟨ts, u₂, hnow, hrest⟩ := bind_ok_inv hrest
  obtain ⟨s, u₃, hobject, hrest⟩ := bind_ok_inv hrest
  obtain ⟨hs, rfl⟩ := exec_object_inv hobject
  rcases Except.ok.inj hs with rfl
  obtain ⟨_, u₄, hmodify, hrest⟩ := bind_ok_inv hrest
  obtain ⟨-, rfl⟩ := exec_modifyObject_inv hmodify
  have hsame : u₂.object = w.object.clearRunning pid :=
    (exec_now_inv hnow).1.trans (readSyscallRegs_ok hregs)
  have hpending : (u₂.object.threads[pid]?).bind Thread.pendingEnter = w.object.pendingOf pid := by
    rw [hsame, Scheduler.pendingOf, Scheduler.clearRunning]
    split
    · rfl
    · rfl
  rw [hpending] at hrest
  split at hrest
  · rename_i hnone
    obtain ⟨_, u₅, happend, hrest⟩ := bind_ok_inv hrest
    obtain ⟨-, rfl⟩ := exec_modifyObject_inv hrest
    have hstep := Handled.enter hnone ts regs
    rw [← hsame, ← append_ok happend] at hstep
    exact hstep
  · rename_i enter hsome
    obtain ⟨event, u₅, hevent, happend⟩ := bind_ok_inv hrest
    obtain ⟨hobject, data, rfl⟩ := exitEvent_ok hevent
    have hstep := Handled.exit hsome ts regs.ret data
    rw [← hsame] at hstep
    rw [append_ok happend, hobject]
    exact hstep

/-- The child is the one that the kernel names. -/
theorem onSpawn_ok {parent child : Pid} {w w' : Hosted Scheduler ω}
    (h : exec (onSpawn arch parent) w = some (.ok child, w')) :
    (Ptrace.getevent arch parent w.host).1 = .ok child ∧
      ∃ ts, w'.object = w.object.emit (spawnEvent ts parent child) := by
  obtain ⟨child', u, hcall, hrest⟩ := bind_ok_inv h
  obtain ⟨hanswer, rfl⟩ := exec_call_ok hcall
  obtain ⟨ts, u₁, hnow, hrest⟩ := bind_ok_inv hrest
  obtain ⟨_, u₂, happend, hpure⟩ := bind_ok_inv hrest
  obtain ⟨hchild, rfl⟩ := Prod.mk.inj (Option.some.inj hpure)
  rcases Except.ok.inj hchild with rfl
  exact ⟨hanswer, ts, by rw [append_ok happend, (exec_now_inv hnow).1]; rfl⟩

/-- The first stop of a new thread, the end of a quantum, or a signal. -/
theorem onStopped_ok {pid : Pid} {sig : Signal} {w w' : Hosted Scheduler ω}
    (h : exec (onStopped arch pid sig) w = some (.ok (), w')) :
    Handled w.object (.stopped pid sig) none w'.object := by
  obtain ⟨s, u, hobject, hrest⟩ := bind_ok_inv h
  obtain ⟨hs, rfl⟩ := exec_object_inv hobject
  rcases Except.ok.inj hs with rfl
  split at hrest
  · rename_i hnew
    obtain ⟨_, u₁, hregister, hrequeue⟩ := bind_ok_inv hrest
    obtain ⟨-, rfl⟩ := exec_modifyObject_inv hrequeue
    obtain ⟨_, u₂, hpin, hrest⟩ := bind_ok_inv hregister
    obtain ⟨-, rfl⟩ := exec_call_ok hpin
    obtain ⟨_, u₃, hoptions, hinsert⟩ := bind_ok_inv hrest
    obtain ⟨-, rfl⟩ := exec_call_ok hoptions
    obtain ⟨-, rfl⟩ := exec_modifyObject_inv hinsert
    refine Handled.first ?_
    rw [Scheduler.Tracks, Option.isNone_iff_eq_none.mp hnew]
    simp
  · rename_i htracked
    have htracked : w.object.Tracks pid := by
      simpa [Scheduler.Tracks, Option.isSome_iff_ne_none] using htracked
    obtain ⟨_, u₁, hclear, hrest⟩ := bind_ok_inv hrest
    obtain ⟨-, rfl⟩ := exec_modifyObject_inv hclear
    obtain ⟨_, u₂, hrecord, hrequeue⟩ := bind_ok_inv hrest
    obtain ⟨-, rfl⟩ := exec_modifyObject_inv hrequeue
    -- The stop of a quantum is the scheduler's own, and is not recorded.
    by_cases hsig : sig = .stop
    · subst hsig
      obtain ⟨-, rfl⟩ := Prod.mk.inj (Option.some.inj hrecord)
      exact .stopped htracked
    · rw [decide_eq_true hsig, when_true] at hrecord
      obtain ⟨ts, u₃, hnow, hrest⟩ := bind_ok_inv hrecord
      obtain ⟨_, u₄, happend, hsignal⟩ := bind_ok_inv hrest
      obtain ⟨-, rfl⟩ := exec_modifyObject_inv hsignal
      have hstep := Handled.signal htracked hsig ts
      have hobject : u₄.object = (w.object.clearRunning pid).emit (signalEvent ts pid sig) := by
        rw [append_ok happend, (exec_now_inv hnow).1]
        rfl
      rw [← hobject] at hstep
      exact hstep

theorem threads_clearRunning (s : Scheduler) (pid : Pid) :
    (s.clearRunning pid).threads = s.threads := by
  unfold Scheduler.clearRunning
  split
  · rfl
  · rfl

theorem threadsFollowed_clearRunning (s : Scheduler) (pid : Pid) :
    (s.clearRunning pid).threadsFollowed = s.threadsFollowed := by
  unfold Scheduler.clearRunning
  split
  · rfl
  · rfl

omit [Ptrace arch ω] in
/-- The exit of a thread, recorded where it is tracked among several. -/
theorem onExit_ok {status : WaitStatus} {pid : Pid} {code : Option Int32} {w w' : Hosted Scheduler ω}
    (hgone : gone status = some (pid, code))
    (h : exec (onExit pid code : Method ω Unit) w = some (.ok (), w')) :
    Handled w.object status none w'.object := by
  obtain ⟨_, u, hclear, hrest⟩ := bind_ok_inv h
  obtain ⟨-, rfl⟩ := exec_modifyObject_inv hclear
  obtain ⟨s, u, hobject, hrest⟩ := bind_ok_inv hrest
  obtain ⟨hs, rfl⟩ := exec_object_inv hobject
  rcases Except.ok.inj hs with rfl
  obtain ⟨_, u₁, herase, hrest⟩ := bind_ok_inv hrest
  obtain ⟨-, rfl⟩ := exec_modifyObject_inv herase
  obtain ⟨_, u₂, hrecord, hrest⟩ := bind_ok_inv hrest
  obtain ⟨_, u₃, hremove, hrelease⟩ := bind_ok_inv hrest
  obtain ⟨-, rfl⟩ := exec_modifyObject_inv hremove
  obtain ⟨-, rfl⟩ := exec_modifyObject_inv hrelease
  -- clearing the running slot changes neither who is tracked nor how many there were
  have hrecord : exec (when ((w.object.threads[pid]?).isSome && decide (w.object.threadsFollowed > 1))
      (do let ts ← now; append (threadExitEvent ts pid)) : Method ω Unit)
      { w with object := w.object.untracked pid } = some (.ok (), u₂) := by
    rw [← threads_clearRunning w.object pid, ← threadsFollowed_clearRunning w.object pid]
    exact hrecord
  by_cases hmany : w.object.Tracks pid ∧ w.object.threadsFollowed > 1
  · rw [show (w.object.threads[pid]?).isSome = true from hmany.1, decide_eq_true hmany.2] at hrecord
    obtain ⟨ts, u₄, hnow, happend⟩ := bind_ok_inv hrecord
    have hstep := Handled.exitRecorded hgone hmany.1 hmany.2 ts
    have hobject : u₂.object = (w.object.untracked pid).emit (threadExitEvent ts pid) := by
      rw [append_ok happend, (exec_now_inv hnow).1]
    rw [← hobject] at hstep
    exact hstep
  · have hsilent : ((w.object.threads[pid]?).isSome && decide (w.object.threadsFollowed > 1)) =
        false := by
      rw [Bool.eq_false_iff]
      intro hboth
      rw [Bool.and_eq_true, decide_eq_true_eq] at hboth
      exact hmany hboth
    rw [hsilent] at hrecord
    obtain ⟨-, rfl⟩ := Prod.mk.inj (Option.some.inj hrecord)
    exact .exited hgone hmany

/-- Handling a status is one of the steps. -/
theorem handle_ok {status : WaitStatus} {w w' : Hosted Scheduler ω}
    (h : exec (handle arch status) w = some (.ok (), w')) :
    Handled w.object status (childOf arch status w.host) w'.object := by
  cases status with
  | exited pid code => exact onExit_ok rfl h
  | signaled pid sig core => exact onExit_ok rfl h
  | stopped pid sig => exact onStopped_ok h
  | continued pid =>
    obtain ⟨-, rfl⟩ := Prod.mk.inj (Option.some.inj h)
    exact .continued
  | stillAlive =>
    obtain ⟨-, rfl⟩ := Prod.mk.inj (Option.some.inj h)
    exact .stillAlive
  | ptraceSyscall pid =>
    obtain ⟨_, u, hclear, hrest⟩ := bind_ok_inv h
    obtain ⟨-, rfl⟩ := exec_modifyObject_inv hclear
    exact onSyscall_ok hrest
  | ptraceEvent pid sig event =>
    obtain ⟨_, u, hclear, hrest⟩ := bind_ok_inv h
    obtain ⟨-, rfl⟩ := exec_modifyObject_inv hclear
    split at hrest
    · -- The handler asks for the child, which is the one of the report.
      rename_i hspawn
      obtain ⟨child, u₁, honSpawn, hrest⟩ := bind_ok_inv hrest
      obtain ⟨hanswer, ts, hobject⟩ := onSpawn_ok honSpawn
      have hchild : childOf arch (.ptraceEvent pid sig event) w.host = some child := by
        rw [childOf, if_pos hspawn, hanswer]
        rfl
      rw [hchild]
      split at hrest
      · rename_i hvfork
        obtain ⟨-, rfl⟩ := exec_modifyObject_inv hrest
        subst hvfork
        have hstep : Handled w.object (.ptraceEvent pid sig EventCode.vfork) (some child) _ :=
          .vfork ts
        rw [hobject]
        exact hstep
      · rename_i hvfork
        obtain ⟨-, rfl⟩ := exec_modifyObject_inv hrest
        have hstep : Handled w.object (.ptraceEvent pid sig event) (some child) _ :=
          .spawn hspawn hvfork ts
        rw [← hobject] at hstep
        exact hstep
    · rename_i hspawn
      obtain ⟨-, rfl⟩ := exec_modifyObject_inv hrest
      have hchild : childOf arch (.ptraceEvent pid sig event) w.host = none := by
        rw [childOf, if_neg hspawn]
      rw [hchild]
      exact .event (Bool.eq_false_iff.mpr hspawn)

/-! ## Turns and their reports -/

/-- What is reported in a turn: the state of the scheduler then, the status, and the child
that a spawn event names. -/
structure Report where
  state : Scheduler
  status : WaitStatus
  child : Option Pid

/-- Up to the wait of a turn. -/
def schedule (arch : Arch) [Ptrace arch ω] : Method ω Unit := do
  let s ← object
  when s.running.isNone (resumeNext arch)
  arm

/-- A turn of the code that goes on, with the status it handles: that of the wait for any
thread, or of the one for a preempted thread. A wait that is interrupted while no thread
runs reports nothing. -/
inductive Turn (arch : Arch) [Ptrace arch ω] (w : Hosted Scheduler ω) :
    Option Report → Hosted Scheduler ω → Prop where
  | reported {w₁ w₂ w₃ w' : Hosted Scheduler ω} {status : WaitStatus}
      (hthreads : w.object.threads.isEmpty = false)
      (hschedule : exec (schedule arch) w = some (.ok (), w₁))
      (hwait : exec (tryCall (Ptrace.waitpid arch anyChild .wallNoThread) : Method ω _) w₁ =
        some (.ok (.ok status), w₂))
      (hdisarm : exec disarm w₂ = some (.ok (), w₃))
      (hhandle : exec (handle arch status) w₃ = some (.ok (), w')) :
      Turn arch w (some ⟨w₁.object, status, childOf arch status w₃.host⟩) w'
  | preempted {w₁ w₂ w₃ w₄ w₅ w' : Hosted Scheduler ω} {cur : Pid} {status : WaitStatus}
      (hthreads : w.object.threads.isEmpty = false)
      (hschedule : exec (schedule arch) w = some (.ok (), w₁))
      (hwait : exec (tryCall (Ptrace.waitpid arch anyChild .wallNoThread) : Method ω _) w₁ =
        some (.ok (.error Errno.EINTR), w₂))
      (hdisarm : exec disarm w₂ = some (.ok (), w₃)) (hrunning : w₃.object.running = some cur)
      (hstop : exec (stopThread cur) w₃ = some (.ok (), w₄))
      (hreap : exec (call .ptrace (Ptrace.waitpid arch cur .wallNoThread) : Method ω _) w₄ =
        some (.ok status, w₅))
      (hhandle : exec (handle arch status) w₅ = some (.ok (), w')) :
      Turn arch w (some ⟨w₁.object, status, childOf arch status w₅.host⟩) w'
  | interrupted {w₁ w₂ w' : Hosted Scheduler ω} (hthreads : w.object.threads.isEmpty = false)
      (hschedule : exec (schedule arch) w = some (.ok (), w₁))
      (hwait : exec (tryCall (Ptrace.waitpid arch anyChild .wallNoThread) : Method ω _) w₁ =
        some (.ok (.error Errno.EINTR), w₂))
      (hdisarm : exec disarm w₂ = some (.ok (), w')) (hrunning : w'.object.running = none) :
      Turn arch w none w'

omit [Ptrace arch ω] in
theorem stopThread_ok {cur : Pid} {w w' : Hosted Scheduler ω}
    (h : exec (stopThread cur : Method ω Unit) w = some (.ok (), w')) : w'.object = w.object := by
  obtain ⟨killed, u, hkill, hrest⟩ := bind_ok_inv h
  obtain ⟨-, rfl⟩ := exec_tryCall_inv hkill
  split at hrest
  · rw [← (Prod.mk.inj (Option.some.inj hrest)).2]
  · split at hrest
    · rw [← (Prod.mk.inj (Option.some.inj hrest)).2]
    · cases hrest

/-- Scheduling is the first half of a turn. -/
theorem starts_of_schedule {w w' : Hosted Scheduler ω}
    (h : exec (schedule arch) w = some (.ok (), w')) : Starts w.object w'.object := by
  obtain ⟨s, u, hobject, hrest⟩ := bind_ok_inv h
  obtain ⟨hs, rfl⟩ := exec_object_inv hobject
  rcases Except.ok.inj hs with rfl
  obtain ⟨_, u₁, hresume, harm⟩ := bind_ok_inv hrest
  rw [exec_call_object harm]
  exact schedule_ok hresume

/-- The state at the report is the one after choosing who runs, and the report is handled
in it. -/
theorem Turn.steps {w w' : Hosted Scheduler ω} {report : Report}
    (h : Turn arch w (some report) w') :
    Starts w.object report.state ∧
      Handled report.state report.status report.child w'.object := by
  cases h with
  | reported hthreads hschedule hwait hdisarm hhandle =>
    refine ⟨starts_of_schedule hschedule, ?_⟩
    have hhandled := handle_ok hhandle
    rwa [exec_call_object hdisarm, (exec_tryCall_inv hwait).2] at hhandled
  | preempted hthreads hschedule hwait hdisarm hrunning hstop hreap hhandle =>
    refine ⟨starts_of_schedule hschedule, ?_⟩
    have hhandled := handle_ok hhandle
    rwa [exec_call_object hreap, stopThread_ok hstop, exec_call_object hdisarm,
      (exec_tryCall_inv hwait).2] at hhandled

theorem Turn.starts {w w' : Hosted Scheduler ω} (h : Turn arch w none w') :
    Starts w.object w'.object := by
  cases h with
  | interrupted hthreads hschedule hwait hdisarm hrunning =>
    have hstarts := starts_of_schedule hschedule
    rw [exec_call_object hdisarm, (exec_tryCall_inv hwait).2]
    exact hstarts

/-- The relation leaves nothing out: every turn of the loop that goes on is one of these, so the
recordings below are all runs of the loop. -/
theorem turn_of_exec {w w' : Hosted Scheduler ω} (h : exec (turn arch) w = some (.ok none, w')) :
    ∃ report, Turn arch w report w' := by
  obtain ⟨s, u, hobject, hrest⟩ := bind_ok_inv h
  obtain ⟨hs, rfl⟩ := exec_object_inv hobject
  rcases Except.ok.inj hs with rfl
  split at hrest
  · cases hrest
  rename_i hthreads
  have hthreads := Bool.eq_false_iff.mpr hthreads
  obtain ⟨_, u₁, hresume, hrest⟩ := bind_ok_inv hrest
  obtain ⟨_, u₂, harm, hrest⟩ := bind_ok_inv hrest
  obtain ⟨answer, u₃, hwait, hreact⟩ := bind_ok_inv hrest
  have hschedule : exec (schedule arch) w = some (.ok (), u₂) :=
    (bind_ok hresume).trans harm
  -- The wait reports a status, is interrupted by the timer, or fails.
  cases answer with
  | ok status =>
    obtain ⟨_, u₄, hdisarm, hrest⟩ := bind_ok_inv hreact
    obtain ⟨_, u₅, hhandle, hpure⟩ := bind_ok_inv hrest
    obtain ⟨-, rfl⟩ := Prod.mk.inj (Option.some.inj hpure)
    exact ⟨_, .reported hthreads hschedule hwait hdisarm hhandle⟩
  | error e =>
    simp only [react] at hreact
    split at hreact
    · rename_i hintr
      subst hintr
      obtain ⟨_, u₄, hdisarm, hrest⟩ := bind_ok_inv hreact
      obtain ⟨_, u₅, hpreempt, hpure⟩ := bind_ok_inv hrest
      obtain ⟨-, rfl⟩ := Prod.mk.inj (Option.some.inj hpure)
      obtain ⟨s, u₆, hobject, hpreempt⟩ := bind_ok_inv hpreempt
      obtain ⟨hs, rfl⟩ := exec_object_inv hobject
      rcases Except.ok.inj hs with rfl
      split at hpreempt
      · rename_i cur hrunning
        obtain ⟨_, u₇, hstop, hrest⟩ := bind_ok_inv hpreempt
        obtain ⟨status, u₈, hreap, hhandle⟩ := bind_ok_inv hrest
        exact ⟨_, .preempted hthreads hschedule hwait hdisarm hrunning hstop hreap hhandle⟩
      · rename_i hrunning
        obtain ⟨-, rfl⟩ := Prod.mk.inj (Option.some.inj hpreempt)
        exact ⟨_, .interrupted hthreads hschedule hwait hdisarm hrunning⟩
    · split at hreact
      · cases hreact
      · cases hreact

/-! ## Recordings -/

/-- A recording of a leader: the scheduler is made, then any number of turns; with the
reports of the turns so far. -/
inductive Recording (arch : Arch) [Ptrace arch ω] (leader : Pid) :
    List Report → Hosted Scheduler ω → Prop where
  | new {w w' : Hosted Scheduler ω} (h : exec (new leader) w = some (.ok (), w')) :
      Recording arch leader [] w'
  | turn {past : List Report} {w w' : Hosted Scheduler ω} {report : Option Report}
      (hw : Recording arch leader past w) (h : Turn arch w report w') :
      Recording arch leader (past ++ report.toList) w'

omit [Ptrace arch ω] in
theorem new_ok {leader : Pid} {w w' : Hosted Scheduler ω}
    (h : exec (new leader) w = some (.ok (), w')) : w'.object = .ofLeader leader := by
  obtain ⟨_, u, hpin, hrest⟩ := bind_ok_inv h
  obtain ⟨_, u₁, htimer, hmodify⟩ := bind_ok_inv hrest
  rw [(exec_modifyObject_inv hmodify).2]

end Code

end Mirrorscope.Capture
