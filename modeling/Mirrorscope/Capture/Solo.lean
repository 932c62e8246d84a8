import Mirrorscope.Capture.SoloTarget
import Mirrorscope.Capture.Turns

/-! # Recording a target of one thread

The recorder on a system that runs one target, with the preemptions it may see: the timer
interrupts a wait, and the `SIGSTOP` that is sent then is reported before the target's
own next stop, or after it, or not at all. Whatever the preemptions, what is recorded are
the stops of the script.
-/

namespace Mirrorscope.Capture

open Linux Run
open Trace (Cmdline Event)

variable {arch : Arch}

/-! ## The host -/

/-- How a wait goes: the target stops by itself, the timer interrupts the wait, or a
`SIGSTOP` that was sent stops the target first. -/
inductive WaitCourse where
  | own
  | interrupted
  | stopped
deriving DecidableEq, Repr

/-- A system with a recorder, and how its waits will go; once the list is used up, the
target stops by itself. -/
structure RecordingHost (M : Machine arch) where
  os : Os M
  waits : List WaitCourse
  /-- The timer runs. -/
  armed : Bool := false
  /-- A `SIGSTOP` was sent and has not stopped the target yet. -/
  sent : Bool := false
  /-- The target was stopped by a `SIGSTOP` on its way to its next stop. -/
  paused : Bool := false
  clock : Nat → UInt64
  ticks : Nat := 0

namespace RecordingHost

variable {M : Machine arch}

/-- A call into the system itself. -/
def onOs {ε α : Type} (call : Call (Os M) ε α) : Call (RecordingHost M) ε α := fun h =>
  let (answer, os) := call h.os
  (answer, { h with os })

/-- The process that a wait is for; there is only one child. -/
def waitedFor (os : Os M) (pid : Pid) : Pid :=
  if pid = anyChild then os.procs.keys.headD pid else pid

def syscall (pid : Pid) (sig : Option Signal) : Call (RecordingHost M) Errno Unit := fun h =>
  if h.paused then (.ok (), { h with paused := false }) else onOs (Os.syscall pid sig) h

/-- A wait of the scheduler. -/
def waitpid (pid : Pid) (flags : WaitFlags) : Call (RecordingHost M) Errno WaitStatus := fun h =>
  let own := onOs (Os.waitpid (waitedFor h.os pid) flags)
  match h.waits with
  | [] => own h
  | wait :: waits =>
    let h := { h with waits }
    match wait with
    | .interrupted => if h.armed then (.error Errno.EINTR, h) else own h
    | .stopped =>
      if h.sent then
        (.ok (.stopped (waitedFor h.os pid) .stop), { h with sent := false, paused := true })
      else own h
    | .own => own h

instance : Ptrace arch (RecordingHost M) where
  spawnTraced cmdline := onOs (Os.spawnTraced cmdline)
  syscall := syscall
  step pid := onOs (Os.step pid)
  kill pid := onOs (Os.kill pid)
  -- the first wait, for the exec of the target, is not the scheduler's
  waitpid pid flags :=
    if flags = .wallNoThread then waitpid pid flags else onOs (Os.waitpid pid flags)
  setoptions pid options := onOs (Os.setoptions pid options)
  getevent pid := onOs (Os.getevent pid)
  getregs pid := onOs (Os.getregs pid)
  setregs pid regs := onOs (Os.setregs pid regs)
  setSyscallNr pid nr := onOs (Os.setSyscallNr pid nr)
  processVmReadv pid addr len := onOs (Os.processVmReadv pid addr len)
  processVmWritev pid addr data := onOs (Os.processVmWritev pid addr data)
  pokeUser _ _ _ h := (.ok (), h)
  setHwWatch _ _ _ h := (.ok (), h)
  getsiginfo pid := onOs (Os.getsiginfo pid)

instance : Host (RecordingHost M) where
  kill pid sig h :=
    match h.os.procs[pid]? with
    | none => (.error Errno.ESRCH, h)
    | some _ => (.ok (), { h with sent := h.sent || sig = .stop })
  schedSetaffinity _ _ h := (.ok (), h)
  timerCreate h := (.ok (), h)
  setInterval interval h := (.ok (), { h with armed := interval ≠ 0 })
  elapsed h := (h.clock h.ticks, { h with ticks := h.ticks + 1 })
  append _ h := (.ok (), h)

end RecordingHost

/-! ## The command -/

section

variable {ω : Type} [Ptrace arch ω] [Host ω]

variable (arch) in
/-- Spawn a target, take it through its first stop, the exec's `SIGTRAP`, and record it. -/
def recordCommand (cmdline : Cmdline) : Method ω RecordOutcome := do
  let leader ← call .spawn (Ptrace.spawnTraced arch cmdline)
  let _ ← call .ptrace (Ptrace.waitpid arch leader .none)
  call .ptrace (Ptrace.setoptions arch leader traceOptions)
  new leader
  run arch

end

/-! ## The scheduler of one thread -/

/-- The scheduler of a thread that is alone. -/
def solo (leader : Pid) (log : List Event) (thread : Thread) (ready : List Pid)
    (running : Option Pid) : Scheduler where
  writer := log
  threads := (∅ : KeyMap Pid Thread).insert leader thread
  ready
  running
  lastScheduled := some leader
  leader
  leaderExit := none
  eventsRecorded := log.length
  threadsFollowed := 1
  vforkPending := ∅

section Solo

variable {leader : Pid} {log : List Event} {thread : Thread} {ready : List Pid}
  {running : Option Pid}

@[simp] theorem threads_solo :
    (solo leader log thread ready running).threads[leader]? = some thread := by
  rw [solo, KeyMap.get_insert, if_pos rfl]

@[simp] theorem isEmpty_threads_solo :
    (solo leader log thread ready running).threads.isEmpty = false := by
  rw [Bool.eq_false_iff]
  intro h
  have hnone := (KeyMap.isEmpty_iff _).mp h leader
  rw [threads_solo] at hnone
  cases hnone

@[simp] theorem emit_solo (event : Event) :
    (solo leader log thread ready running).emit event =
      solo leader (log ++ [event]) thread ready running := by
  simp [solo, Scheduler.emit]

@[simp] theorem modifyThread_solo (f : Thread → Thread) :
    (solo leader log thread ready running).modifyThread leader f =
      solo leader log (f thread) ready running := by
  rw [Scheduler.modifyThread, threads_solo]
  have hinsert : ((∅ : KeyMap Pid Thread).insert leader thread).insert leader (f thread) =
      (∅ : KeyMap Pid Thread).insert leader (f thread) := by
    apply Std.ExtTreeMap.ext_getElem?
    intro k
    simp only [KeyMap.get_insert]
    split
    · rfl
    · rfl
  simp only [solo, hinsert]

@[simp] theorem clearRunning_solo :
    (solo leader log thread ready (some leader)).clearRunning leader =
      solo leader log thread ready none := by
  exact if_pos rfl

@[simp] theorem requeue_solo :
    (solo leader log thread [] running).requeue leader =
      solo leader log thread [leader] running := by
  rw [Scheduler.requeue, threads_solo]
  rfl

end Solo

/-! ## Turns -/

section Turns

variable {arch : Arch} {M : Machine arch} {leader : Pid} {log : List Event} {thread : Thread}
  {host host' : RecordingHost M} {status : WaitStatus}

theorem exec_resumeNext
    (h : Ptrace.syscall arch leader thread.resumeSignal host = (.ok (), host')) :
    exec (resumeNext arch) ⟨solo leader log thread [leader] none, host⟩ = some (.ok (),
      ⟨solo leader log { thread with resumeSignal := none } [] (some leader), host'⟩) := by
  have hswitch : exec (recordSchedSwitch leader : Method (RecordingHost M) Unit)
      ⟨solo leader log thread [] none, host⟩ =
        some (.ok (), ⟨solo leader log thread [] none, host⟩) := by
    refine (bind_ok (exec_object _)).trans ?_
    rw [if_pos (show (solo leader log thread [] none).lastScheduled = some leader from rfl)]
    rfl
  refine (bind_ok (exec_object _)).trans ?_
  refine (bind_ok (exec_modifyObject _ _)).trans ?_
  refine (bind_ok hswitch).trans ?_
  refine (bind_ok (exec_object _)).trans ?_
  refine (bind_ok (exec_modifyObject _ _)).trans ?_
  simp only [threads_solo, modifyThread_solo, Option.bind_some]
  exact bind_ok (exec_call h)

/-- A turn begins: the thread is resumed and the timer set. -/
theorem exec_turn
    (h : Ptrace.syscall arch leader thread.resumeSignal host = (.ok (), host')) :
    exec (turn arch) ⟨solo leader log thread [leader] none, host⟩ =
      exec (do
        let answer ← tryCall (Ptrace.waitpid arch anyChild .wallNoThread)
        react arch answer)
        ⟨solo leader log { thread with resumeSignal := none } [] (some leader),
          { host' with armed := true }⟩ := by
  refine (bind_ok (exec_object _)).trans ?_
  simp only [isEmpty_threads_solo, Bool.false_eq_true, if_false]
  refine (bind_ok (exec_resumeNext h)).trans ?_
  exact bind_ok (exec_call rfl)

theorem exec_disarm (s : Scheduler) :
    exec (disarm : Method (RecordingHost M) Unit) ⟨s, host⟩ =
      some (.ok (), ⟨s, { host with armed := false }⟩) := rfl

/-- A stop is handled. -/
theorem exec_react_ok {s : Scheduler} {w' : Hosted Scheduler (RecordingHost M)}
    (h : exec (handle arch status) ⟨s, { host with armed := false }⟩ = some (.ok (), w')) :
    exec (react arch (.ok status)) ⟨s, host⟩ = some (.ok none, w') := by
  refine (bind_ok (exec_disarm s)).trans ?_
  exact bind_ok h

/-- An interrupted wait: the thread is sent a `SIGSTOP`, and its next stop is handled. -/
theorem exec_react_interrupted {w' : Hosted Scheduler (RecordingHost M)} {v : Nat × Nat}
    (hproc : host.os.procs[leader]? = some v)
    (hwait : Ptrace.waitpid arch leader .wallNoThread { host with armed := false, sent := true } =
      (.ok status, host'))
    (h : exec (handle arch status) ⟨solo leader log thread [] (some leader), host'⟩ =
      some (.ok (), w')) :
    exec (react arch (.error Errno.EINTR)) ⟨solo leader log thread [] (some leader), host⟩ =
      some (.ok none, w') := by
  -- The timer went off: the leader is sent a stop and waited for, and what it then
  -- reports is handled as any report.
  have hkill : Host.kill leader .stop { host with armed := false } =
      (.ok (), { host with armed := false, sent := true }) := by
    simp [Host.kill, hproc]
  have hstop : exec (stopThread leader)
      ⟨solo leader log thread [] (some leader), { host with armed := false }⟩ = some (.ok (),
        ⟨solo leader log thread [] (some leader), { host with armed := false, sent := true }⟩) := by
    refine (bind_ok (exec_tryCall hkill)).trans ?_
    rfl
  have hpreempt : exec (preemptRunning arch)
      ⟨solo leader log thread [] (some leader), { host with armed := false }⟩ =
        some (.ok (), w') := by
    refine (bind_ok (exec_object _)).trans ?_
    refine (bind_ok hstop).trans ?_
    refine (bind_ok (exec_call hwait)).trans ?_
    exact h
  refine (bind_ok (exec_disarm _)).trans ?_
  exact bind_ok hpreempt

/-- A `SIGSTOP` is swallowed. -/
theorem exec_handle_stop :
    exec (handle arch (.stopped leader .stop)) ⟨solo leader log thread [] (some leader), host⟩ =
      some (.ok (), ⟨solo leader log thread [leader] none, host⟩) := by
  refine (bind_ok (exec_object _)).trans ?_
  simp only [threads_solo, Option.isNone_some, Bool.false_eq_true, if_false]
  refine (bind_ok (exec_modifyObject _ _)).trans ?_
  simp only [clearRunning_solo]
  refine (bind_ok (m := Run.when _ _) rfl).trans ?_
  simp only [exec_modifyObject, requeue_solo]

/-- The leader is the only process there is. -/
def OnlyChild (leader : Pid) (os : Os M) : Prop :=
  ∀ p, os.procs[p]? = if p = leader then some (0, 0) else none

theorem OnlyChild.proc {os : Os M} (h : OnlyChild leader os) :
    os.procs[leader]? = some (0, 0) := by
  rw [h leader, if_pos rfl]

/-- A wait for any child is one for the leader. -/
theorem OnlyChild.waitedFor {os : Os M} (h : OnlyChild leader os) {pid : Pid}
    (hpid : pid = anyChild ∨ pid = leader) : RecordingHost.waitedFor os pid = leader := by
  unfold RecordingHost.waitedFor
  split
  · have hkeys : ∀ k ∈ os.procs.keys, k = leader := by
      intro k hk
      by_contra hne
      have hsome := (KeyMap.mem_keys_iff _ _).mp hk
      rw [h k, if_neg hne] at hsome
      cases hsome
    have hmem : leader ∈ os.procs.keys := by
      rw [KeyMap.mem_keys_iff, h.proc]
      rfl
    cases hcases : os.procs.keys with
    | nil =>
      rw [hcases] at hmem
      cases hmem
    | cons k _ => exact hkeys k (by rw [hcases]; exact List.mem_cons_self)
  · rename_i hne
    exact hpid.resolve_left hne

/-- What a wait for the leader, whose own stop is outstanding, answers. -/
theorem waitpid_cases {os' : Os M} {pid : Pid} (hpid : pid = anyChild ∨ pid = leader)
    (honly : OnlyChild leader host.os)
    (hown : Os.waitpid leader .wallNoThread host.os = (.ok status, os')) :
    (∃ waits, Ptrace.waitpid arch pid .wallNoThread host =
        (.ok status, { host with waits, os := os' })) ∨
      (host.armed = true ∧ ∃ waits, waits.length < host.waits.length ∧
        Ptrace.waitpid arch pid .wallNoThread host = (.error Errno.EINTR, { host with waits })) ∨
      ∃ waits, waits.length < host.waits.length ∧
        Ptrace.waitpid arch pid .wallNoThread host =
          (.ok (.stopped leader .stop), { host with waits, sent := false, paused := true }) := by
  have hwaited := honly.waitedFor hpid
  -- A wait of the script is passed on to the system, or comes in before it.
  have howned (waits : List WaitCourse) :
      RecordingHost.onOs (Os.waitpid (RecordingHost.waitedFor host.os pid) .wallNoThread)
        { host with waits } = (.ok status, { host with waits, os := os' }) := by
    simp only [RecordingHost.onOs, hwaited, hown]
  change (∃ waits, RecordingHost.waitpid pid .wallNoThread host = _) ∨ _ ∧ (∃ waits, _ ∧
    RecordingHost.waitpid pid .wallNoThread host = _) ∨ ∃ waits, _ ∧
      RecordingHost.waitpid pid .wallNoThread host = _
  unfold RecordingHost.waitpid
  cases hwaits : host.waits with
  | nil =>
    left
    exact ⟨host.waits, howned host.waits⟩
  | cons wait waits =>
    cases wait with
    | own => exact .inl ⟨waits, howned waits⟩
    | interrupted =>
      cases harmed : host.armed with
      | true => exact .inr (.inl ⟨rfl, waits, by simp, by simp⟩)
      | false => exact .inl ⟨waits, by simpa [harmed] using howned waits⟩
    | stopped =>
      cases hsent : host.sent with
      | true => exact .inr (.inr ⟨waits, by simp, by simp [hwaited]⟩)
      | false => exact .inl ⟨waits, by simpa [hsent] using howned waits⟩

/-- Whatever the preemptions, the leader's own next stop is handled in the end. -/
theorem exists_handled {os' : Os M} (n : Nat) : ∀ {host host' : RecordingHost M} {thread : Thread},
    host'.waits.length = n →
    Ptrace.syscall arch leader thread.resumeSignal host = (.ok (), host') →
    host'.paused = false → OnlyChild leader host'.os →
    Os.waitpid leader .wallNoThread host'.os = (.ok status, os') →
    ∃ host₂ : RecordingHost M, host₂.os = os' ∧ host₂.paused = false ∧
      ∀ w', exec (handle arch status)
          ⟨solo leader log { thread with resumeSignal := none } [] (some leader), host₂⟩ =
            some (.ok (), w') →
        ∃ k, Rounds (turn arch) (k + 1) ⟨solo leader log thread [leader] none, host⟩ w' := by
  induction n using Nat.strongRecOn with
  | ind n ih =>
    intro host host' thread hn hresume hpaused honly hown
    let armed : RecordingHost M := { host' with armed := true }
    -- a `SIGSTOP` comes first: the rest of the waits are those of the next turns
    have hagain {u : RecordingHost M} (hless : u.waits.length < n) (hos : u.os = host'.os)
        (hpaused : u.paused = true)
        (hturn : exec (turn arch) ⟨solo leader log thread [leader] none, host⟩ =
          some (.ok none,
            ⟨solo leader log { thread with resumeSignal := none } [leader] none, u⟩)) :
        ∃ host₂ : RecordingHost M, host₂.os = os' ∧ host₂.paused = false ∧
          ∀ w', exec (handle arch status)
              ⟨solo leader log { thread with resumeSignal := none } [] (some leader), host₂⟩ =
                some (.ok (), w') →
            ∃ k, Rounds (turn arch) (k + 1) ⟨solo leader log thread [leader] none, host⟩ w' := by
      have hresume' : Ptrace.syscall arch leader none u =
          (.ok (), { u with paused := false }) := if_pos hpaused
      obtain ⟨host₂, hos₂, hpaused₂, hrest⟩ :=
        @ih _ hless u { u with paused := false } { thread with resumeSignal := none } rfl hresume'
          rfl (by rw [← hos] at honly; exact honly) (by rw [← hos] at hown; exact hown)
      refine ⟨host₂, hos₂, hpaused₂, fun w' hw' => ?_⟩
      obtain ⟨k, hrounds⟩ := hrest w' hw'
      exact ⟨k + 1, .succ hturn hrounds⟩
    rcases @waitpid_cases arch M leader armed status os' anyChild (.inl rfl) honly hown with
      ⟨waits, hwait⟩ | ⟨-, waits, hless, hwait⟩ | ⟨waits, hless, hwait⟩
    · refine ⟨{ armed with waits, os := os', armed := false }, rfl, hpaused, fun w' hw' => ?_⟩
      refine ⟨0, .succ ?_ (.zero w')⟩
      rw [exec_turn hresume]
      refine (bind_ok (exec_tryCall hwait)).trans ?_
      exact exec_react_ok hw'
    · -- the timer
      let stopped : RecordingHost M := { armed with waits, armed := false, sent := true }
      rcases @waitpid_cases arch M leader stopped status os' leader (.inr rfl) honly hown with
        ⟨waits', hwait'⟩ | ⟨harmed, -⟩ | ⟨waits', hless', hwait'⟩
      · refine ⟨{ stopped with waits := waits', os := os' }, rfl, hpaused, fun w' hw' => ?_⟩
        refine ⟨0, .succ ?_ (.zero w')⟩
        rw [exec_turn hresume]
        refine (bind_ok (exec_tryCall hwait)).trans ?_
        exact exec_react_interrupted honly.proc hwait' hw'
      · cases harmed
      · refine hagain (u := { stopped with waits := waits', sent := false, paused := true })
          (by rw [← hn]; exact Nat.lt_trans hless' hless) rfl rfl ?_
        rw [exec_turn hresume]
        refine (bind_ok (exec_tryCall hwait)).trans ?_
        exact exec_react_interrupted honly.proc hwait' exec_handle_stop
    · refine hagain (u := { armed with waits, sent := false, paused := true, armed := false })
        (by rw [← hn]; exact hless) rfl rfl ?_
      rw [exec_turn hresume]
      refine (bind_ok (exec_tryCall hwait)).trans ?_
      exact exec_react_ok exec_handle_stop

end Turns
/-! ## What is recorded of a stop -/

section Handlers

variable {arch : Arch} {M : Machine arch} {leader : Pid} {log : List Event}
  {host : RecordingHost M} {sig : Option Signal}

/-- The host after the clock was read. -/
def RecordingHost.tick (host : RecordingHost M) : RecordingHost M :=
  { host with ticks := host.ticks + 1 }

theorem exec_now (s : Scheduler) : exec (now : Method (RecordingHost M) UInt64) ⟨s, host⟩ =
    some (.ok (host.clock host.ticks), ⟨s, host.tick⟩) := rfl

theorem exec_append (event : Event) {thread : Thread} {ready : List Pid} {running : Option Pid} :
    exec (append event) ⟨solo leader log thread ready running, host⟩ =
      some (.ok (), ⟨solo leader (log ++ [event]) thread ready running, host⟩) := by
  refine (bind_ok (exec_call rfl)).trans ?_
  rw [exec_modifyObject, emit_solo]

theorem exec_readSyscallRegs {full : FullRegs arch} (s : Scheduler)
    (h : Ptrace.getregs leader host = (.ok full, host)) :
    exec (readSyscallRegs arch leader) (⟨s, host⟩ : Hosted Scheduler (RecordingHost M)) =
      some (.ok (normalize arch full), ⟨s, host⟩) :=
  bind_ok (exec_call h)

/-- The entry of a syscall is recorded, and its exit awaited. -/
theorem exec_handle_entry {full : FullRegs arch}
    (h : Ptrace.getregs leader host = (.ok full, host)) :
    exec (handle arch (.ptraceSyscall leader))
        ⟨solo leader log ⟨none, sig⟩ [] (some leader), host⟩ =
      some (.ok (),
        ⟨solo leader
            (log ++ [enterEvent (host.clock host.ticks) (tidOf leader) (normalize arch full)])
            ⟨some (normalize arch full), sig⟩ [leader] none, host.tick⟩) := by
  -- Nothing is pending, so the stop is an entry.
  have hsyscall : exec (onSyscall arch leader)
      ⟨solo leader log ⟨none, sig⟩ [] none, host⟩ =
        some (.ok (), ⟨solo leader
            (log ++ [enterEvent (host.clock host.ticks) (tidOf leader) (normalize arch full)])
            ⟨some (normalize arch full), sig⟩ [] none, host.tick⟩) := by
    refine (bind_ok (exec_readSyscallRegs _ h)).trans ?_
    refine (bind_ok (exec_now _)).trans ?_
    refine (bind_ok (exec_object _)).trans ?_
    refine (bind_ok (exec_modifyObject _ _)).trans ?_
    simp only [threads_solo, modifyThread_solo, Option.bind_some]
    refine (bind_ok (exec_append _)).trans ?_
    rw [exec_modifyObject, modifyThread_solo]
  refine (bind_ok (exec_modifyObject _ _)).trans ?_
  simp only [clearRunning_solo]
  refine (bind_ok hsyscall).trans ?_
  rw [exec_modifyObject, requeue_solo]

/-- The exit of a syscall is recorded, with what the kernel wrote. -/
theorem exec_handle_exit {full : FullRegs arch} {enter : Registers}
    (h : Ptrace.getregs leader host = (.ok full, host)) {bytes : UInt64 → Nat → Bytes}
    (hread : ∀ addr len, Ptrace.processVmReadv arch leader addr len host.tick =
      (.ok (bytes addr len), host.tick))
    (hbytes : ∀ addr len, (bytes addr len).length = len) :
    ∃ data : Bytes, data.length = ((kernelWrittenRegion arch enter.nr enter.args
        (normalize arch full).ret).map Prod.snd).getD 0 ∧
      exec (handle arch (.ptraceSyscall leader))
          ⟨solo leader log ⟨some enter, sig⟩ [] (some leader), host⟩ =
        some (.ok (),
          ⟨solo leader
              (log ++ [syscallExitEvent (host.clock host.ticks) leader enter
                (normalize arch full).ret data])
              ⟨none, sig⟩ [leader] none, host.tick⟩) := by
  -- What the kernel wrote for the call is read back before the event is appended.
  obtain ⟨data, hlen, hevent⟩ : ∃ data : Bytes, data.length =
        ((kernelWrittenRegion arch enter.nr enter.args (normalize arch full).ret).map
          Prod.snd).getD 0 ∧
      exec (exitEvent arch (host.clock host.ticks) (tidOf leader) leader enter
          (normalize arch full).ret)
        (⟨solo leader log ⟨none, sig⟩ [] none, host.tick⟩ :
          Hosted Scheduler (RecordingHost M)) =
        some (.ok (syscallExitEvent (host.clock host.ticks) leader enter
          (normalize arch full).ret data), ⟨solo leader log ⟨none, sig⟩ [] none, host.tick⟩) := by
    unfold exitEvent
    split
    · rename_i addr len hregion
      refine ⟨bytes addr len ++ List.replicate (len - (bytes addr len).length) 0, ?_, ?_⟩
      · rw [List.length_append, List.length_replicate, hbytes, hregion]
        exact Nat.add_sub_cancel' (Nat.le_refl len)
      · refine (bind_ok (bind_ok (exec_call (hread addr len)))).trans ?_
        rfl
    · rename_i hregion
      exact ⟨[], by rw [hregion]; rfl, rfl⟩
  refine ⟨data, hlen, ?_⟩
  have hsyscall : exec (onSyscall arch leader)
      ⟨solo leader log ⟨some enter, sig⟩ [] none, host⟩ =
        some (.ok (), ⟨solo leader
            (log ++ [syscallExitEvent (host.clock host.ticks) leader enter
              (normalize arch full).ret data]) ⟨none, sig⟩ [] none, host.tick⟩) := by
    refine (bind_ok (exec_readSyscallRegs _ h)).trans ?_
    refine (bind_ok (exec_now _)).trans ?_
    refine (bind_ok (exec_object _)).trans ?_
    refine (bind_ok (exec_modifyObject _ _)).trans ?_
    simp only [threads_solo, modifyThread_solo, Option.bind_some]
    refine (bind_ok hevent).trans ?_
    exact exec_append _
  refine (bind_ok (exec_modifyObject _ _)).trans ?_
  simp only [clearRunning_solo]
  refine (bind_ok hsyscall).trans ?_
  rw [exec_modifyObject, requeue_solo]

/-- A signal is recorded, to be delivered when the thread goes on. -/
theorem exec_handle_signal {s : Signal} (hs : s ≠ .stop) {pending : Option Registers} :
    exec (handle arch (.stopped leader s))
        ⟨solo leader log ⟨pending, sig⟩ [] (some leader), host⟩ =
      some (.ok (),
        ⟨solo leader (log ++ [signalEvent (host.clock host.ticks) leader s]) ⟨pending, some s⟩
          [leader] none, host.tick⟩) := by
  refine (bind_ok (exec_object _)).trans ?_
  simp only [threads_solo, Option.isNone_some, Bool.false_eq_true, if_false]
  refine (bind_ok (exec_modifyObject _ _)).trans ?_
  simp only [clearRunning_solo, decide_eq_true hs, when_true]
  have hrecord : exec (do
        let ts ← now
        append (.newWithTid .signal ts (tidOf leader) (SignalDelivery.encode { signum := s.num }))
        modifyObject fun o => o.modifyThread leader fun t => { t with resumeSignal := some s })
      (⟨solo leader log ⟨pending, sig⟩ [] none, host⟩ : Hosted Scheduler (RecordingHost M)) =
        some (.ok (), ⟨solo leader (log ++ [signalEvent (host.clock host.ticks) leader s])
          ⟨pending, some s⟩ [] none, host.tick⟩) := by
    refine (bind_ok (exec_now _)).trans ?_
    refine (bind_ok (exec_append _)).trans ?_
    rw [exec_modifyObject, modifyThread_solo]
    rfl
  refine (bind_ok hrecord).trans ?_
  rw [exec_modifyObject, requeue_solo]

/-- An exec leaves no record. -/
theorem exec_handle_exec {thread : Thread} :
    exec (handle arch (.ptraceEvent leader .trap EventCode.exec))
        ⟨solo leader log thread [] (some leader), host⟩ =
      some (.ok (), ⟨solo leader log thread [leader] none, host⟩) := by
  refine (bind_ok (exec_modifyObject _ _)).trans ?_
  simp only [clearRunning_solo]
  have hspawn : isSpawnEvent EventCode.exec = false := by decide
  rw [hspawn, if_neg (by decide), exec_modifyObject, requeue_solo]

/-- The end of the only thread leaves no record; its exit code is kept. -/
theorem exec_handle_gone {status : WaitStatus} {code : Option Int32}
    (hgone : gone status = some (leader, code)) {thread : Thread} :
    ∃ s : Scheduler, s.threads.isEmpty = true ∧ s.writer = log ∧ s.leaderExit = code ∧
      exec (handle arch status) ⟨solo leader log thread [] (some leader), host⟩ =
        some (.ok (), ⟨s, host⟩) := by
  have hexit : ∃ s : Scheduler, s.threads.isEmpty = true ∧ s.writer = log ∧
      s.leaderExit = code ∧
      exec (onExit leader code) (⟨solo leader log thread [] (some leader), host⟩ :
        Hosted Scheduler (RecordingHost M)) = some (.ok (), ⟨s, host⟩) := by
    -- A leader that was never joined by another thread leaves no exit in the log.
    let alone := solo leader log thread [] none
    let s : Scheduler :=
      { alone with threads := alone.threads.erase leader, ready := [], leaderExit := code }
    refine ⟨s, ?_, rfl, rfl, ?_⟩
    · rw [KeyMap.isEmpty_iff]
      intro p
      rw [KeyMap.get_erase]
      split
      · rfl
      · rename_i hne
        change ((∅ : KeyMap Pid Thread).insert leader thread)[p]? = none
        rw [KeyMap.get_insert, if_neg hne, KeyMap.get_empty]
    · refine (bind_ok (exec_modifyObject _ _)).trans ?_
      simp only [clearRunning_solo]
      refine (bind_ok (exec_object _)).trans ?_
      refine (bind_ok (exec_modifyObject _ _)).trans ?_
      have hfew : decide ((solo leader log thread [] none).threadsFollowed > 1) = false :=
        decide_eq_false (Nat.lt_irrefl 1)
      simp only [threads_solo, hfew, Bool.and_false, when_false]
      refine (bind_ok (exec_pure _ _)).trans ?_
      refine (bind_ok (exec_modifyObject _ _)).trans ?_
      rw [exec_modifyObject, Scheduler.release]
      simp [solo, s, alone]
  cases status with
  | exited pid c =>
    obtain ⟨rfl, rfl⟩ := Prod.mk.inj (Option.some.inj hgone)
    exact hexit
  | signaled pid s core =>
    obtain ⟨rfl, rfl⟩ := Prod.mk.inj (Option.some.inj hgone)
    exact hexit
  | _ => cases hgone

end Handlers

/-! ## The target goes on -/

section Acts

variable {arch : Arch} {target : SoloTarget arch} {leader : Pid} {log : List Event}
  {pending : Option Registers} {sig : Option Signal} {P : Playing arch → Prop}

/-- The leader stands at a stop that was waited for, its program in a state with `P`. -/
structure Stands (leader : Pid) (P : Playing arch → Prop) (host : RecordingHost target.machine) :
    Prop where
  paused : host.paused = false
  only : OnlyChild leader host.os
  image : ∃ img : Image target.machine, host.os.images[0]? = some img ∧ img.stops 0 = none ∧
    img.options 0 = traceOptions ∧ P img.group

/-- Between two turns: the thread waits in the queue, with these stops ahead. -/
structure Poised (leader : Pid) (todo : List (Item arch)) (log : List Event)
    (pending : Option Registers) (sig : Option Signal)
    (w : Hosted Scheduler (RecordingHost target.machine)) : Prop where
  object : w.object = solo leader log ⟨pending, sig⟩ [leader] none
  stands : Stands leader (Ahead todo) w.host

/-- Resuming a thread that never makes another one. -/
theorem syscall_only {os : Os target.machine} (honly : OnlyChild leader os)
    {img : Image target.machine} (himg : os.images[0]? = some img) (hstop : img.stops 0 = none)
    (sig : Option Signal) (flags : WaitFlags) :
    ∃ os' os'' : Os target.machine, Os.syscall leader sig os = (.ok (), os') ∧
      OnlyChild leader os' ∧
      Os.waitpid leader flags os' = (.ok ((img.resume 0 sig).1.status leader), os'') ∧
      os''.images[0]? = some ((img.resume 0 sig).2.collect 0) ∧
      ((img.resume 0 sig).1.isExit = false → OnlyChild leader os'') := by
  have hat : os.At leader 0 0 img := ⟨honly.proc, himg⟩
  have hspawn := target.resume_isSpawn img 0 sig
  obtain ⟨os', hresume, hwait⟩ := Os.syscall_waitpid hat hstop sig flags
  refine ⟨os', _, hresume, ?_, hwait, ?_, ?_⟩
  · -- resuming leaves the processes as they are
    rw [Os.syscall, hat.find] at hresume
    simp only [hstop, Option.isSome_none, Bool.false_eq_true, if_false, hspawn] at hresume
    obtain ⟨-, rfl⟩ := Prod.mk.inj hresume
    exact honly
  · rw [Os.images_resumed hat, if_pos rfl]
  · intro hexit p
    rw [Os.procs_resumed, if_neg (by simp [hspawn]), if_neg (by simp [hexit])]
    exact honly p

/-- The next stop of the thread is handled; the thread stands at it, unless it is its end. -/
theorem Poised.next {todo : List (Item arch)}
    {w : Hosted Scheduler (RecordingHost target.machine)} (h : Poised leader todo log pending sig w)
    {stop : Stop}
    (hadvance : ∀ g : Playing arch, g.trapped = false →
      (g.advance traceOptions todo).2 = stop ∧ P (g.advance traceOptions todo).1) :
    ∃ host : RecordingHost target.machine, (stop.isExit = false → Stands leader P host) ∧
      ∀ w', exec (handle arch (stop.status leader))
          ⟨solo leader log ⟨pending, none⟩ [] (some leader), host⟩ = some (.ok (), w') →
        ∃ k, Rounds (turn arch) (k + 1) w w' := by
  obtain ⟨object, host⟩ := w
  obtain ⟨hobject, hpaused, honly, img, himg, hstop, hoptions, hahead⟩ := h
  obtain ⟨os', os'', hresume, honly', hwait, himg', honly''⟩ :=
    syscall_only honly himg hstop sig .wallNoThread
  have hnext := hadvance img.group hahead.2
  rw [target.resume_of_ahead img 0 sig hahead, hoptions] at hwait honly'' himg'
  simp only [hnext.1] at hwait honly''
  have hcall : Ptrace.syscall arch leader sig host =
      (.ok (), ({ host with os := os' } : RecordingHost target.machine)) := by
    change RecordingHost.syscall leader sig host = _
    rw [RecordingHost.syscall, if_neg (by simp [show host.paused = false from hpaused])]
    simp only [RecordingHost.onOs, hresume]
  obtain ⟨host₂, rfl, hpaused₂, hhandled⟩ :=
    @exists_handled _ _ leader log _ _ _ host _ ⟨pending, sig⟩ rfl hcall hpaused honly' hwait
  refine ⟨host₂, fun hexit => ⟨hpaused₂, honly'' hexit, _, himg', ?_, ?_, ?_⟩, ?_⟩
  · simp [Image.collect]
  · exact hoptions
  · exact hnext.2
  · rw [show object = _ from hobject]
    exact hhandled

theorem Stands.tick {host : RecordingHost target.machine} (h : Stands leader P host) :
    Stands leader P host.tick := ⟨h.paused, h.only, h.image⟩

theorem Stands.mono {host : RecordingHost target.machine} {Q : Playing arch → Prop}
    (h : Stands leader P host) (hPQ : ∀ g, P g → Q g) : Stands leader Q host := by
  obtain ⟨hpaused, honly, img, himg, hstop, hoptions, hP⟩ := h
  exact ⟨hpaused, honly, img, himg, hstop, hoptions, hPQ _ hP⟩

/-- What the recorder reads of a thread that stands at a stop. -/
theorem Stands.read {host : RecordingHost target.machine} (h : Stands leader P host) :
    ∃ g : Playing arch, P g ∧ Ptrace.getregs leader host = (.ok g.regs, host) ∧
      ∀ addr len, Ptrace.processVmReadv arch leader addr len host =
        (.ok (g.memory.range addr len), host) := by
  obtain ⟨-, honly, img, himg, -, -, hP⟩ := h
  have hat : host.os.At leader 0 0 img := ⟨honly.proc, himg⟩
  refine ⟨img.group, hP, ?_, fun addr len => ?_⟩
  · change RecordingHost.onOs (Os.getregs leader) host = _
    rw [RecordingHost.onOs, Os.getregs, hat.onImage, Os.setImage_self himg]
    rfl
  · change RecordingHost.onOs (Os.processVmReadv leader addr len) host = _
    rw [RecordingHost.onOs, Os.processVmReadv, hat.onImage, Os.setImage_self himg]
    rfl

variable {todo : List (Item arch)} {w : Hosted Scheduler (RecordingHost target.machine)}

theorem Poised.entry {full : FullRegs arch}
    (h : Poised leader (.entry full :: todo) log none sig w) :
    ∃ k w' ts, Rounds (turn arch) k w w' ∧
      Poised leader todo (log ++ [enterEvent ts (tidOf leader) (normalize arch full)])
        (some (normalize arch full)) none w' := by
  obtain ⟨host, hstands, hhandled⟩ := @Poised.next _ _ _ _ _ _
    (fun g => Ahead todo g ∧ g.regs = full) _ _ h .syscall
    (fun g hg => ⟨rfl, ⟨rfl, hg⟩, rfl⟩)
  obtain ⟨g, ⟨-, hregs⟩, hget, -⟩ := (hstands rfl).read
  rw [hregs] at hget
  obtain ⟨k, hrounds⟩ := hhandled _ (exec_handle_entry hget)
  exact ⟨_, _, _, hrounds, rfl, (hstands rfl).tick.mono fun _ hg => hg.1⟩

theorem Poised.exit {c : Crossing arch} {ofExec : Bool}
    (h : Poised leader (.exit c ofExec :: todo) log (some (normalize arch c.entry)) sig w) :
    ∃ k w' ts data, Rounds (turn arch) k w w' ∧ data.length = c.captured ∧
      Poised leader todo
        (log ++ [syscallExitEvent ts leader (normalize arch c.entry) (normalize arch c.exit).ret
          data]) none none w' := by
  obtain ⟨host, hstands, hhandled⟩ := @Poised.next _ _ _ _ _ _
    (fun g => Ahead todo g ∧ g.regs = c.exit) _ _ h .syscall
    (fun g hg => ⟨rfl, ⟨if_neg (by simp [traceOptions]), hg⟩, rfl⟩)
  obtain ⟨g, ⟨-, hregs⟩, hget, -⟩ := (hstands rfl).read
  obtain ⟨g', -, -, hread⟩ := (hstands rfl).tick.read
  rw [hregs] at hget
  obtain ⟨data, hlen, hexec⟩ := exec_handle_exit hget hread
    (fun addr len => ByteMemory.length_range _ _ _)
  obtain ⟨k, hrounds⟩ := hhandled _ hexec
  exact ⟨_, _, _, data, hrounds, hlen, rfl, (hstands rfl).tick.mono fun _ hg => hg.1⟩

theorem Poised.signal {s : Signal} (hs : s ≠ .stop)
    (h : Poised leader (.signal s :: todo) log pending sig w) :
    ∃ k w' ts, Rounds (turn arch) k w w' ∧
      Poised leader todo (log ++ [signalEvent ts leader s]) pending (some s) w' := by
  obtain ⟨host, hstands, hhandled⟩ := @Poised.next _ _ _ _ _ _ (Ahead todo) _ _ h (.signal s)
    (fun g hg => ⟨rfl, rfl, hg⟩)
  obtain ⟨k, hrounds⟩ := hhandled _ (exec_handle_signal hs)
  exact ⟨_, _, _, hrounds, rfl, (hstands rfl).tick⟩

/-- Under `PTRACE_O_TRACEEXEC` an exec is an event stop. -/
theorem Poised.execed (h : Poised leader (.execed :: todo) log pending sig w) :
    ∃ k w', Rounds (turn arch) k w w' ∧ Poised leader todo log pending none w' := by
  obtain ⟨host, hstands, hhandled⟩ := @Poised.next _ _ _ _ _ _ (Ahead todo) _ _ h
    (.event EventCode.exec) (fun g hg => ⟨rfl, rfl, hg⟩)
  obtain ⟨k, hrounds⟩ := hhandled _ exec_handle_exec
  exact ⟨_, _, hrounds, rfl, hstands rfl⟩

/-- The thread ends; nothing is recorded of it. -/
theorem Poised.ended {fate : Fate} (h : Poised leader [.ended fate] log pending sig w) :
    ∃ k w', Rounds (turn arch) k w w' ∧ w'.object.threads.isEmpty = true ∧
      w'.object.writer = log ∧ w'.object.leaderExit = fate.code := by
  obtain ⟨host, -, hhandled⟩ := @Poised.next _ _ _ _ _ _ (fun _ => True) _ _ h fate.stop
    (fun g _ => ⟨rfl, trivial⟩)
  have hgone : gone (fate.stop.status leader) = some (leader, fate.code) := by
    cases fate
    · rfl
    · rfl
  obtain ⟨s, hempty, hwriter, hcode, hexec⟩ := exec_handle_gone hgone
  obtain ⟨k, hrounds⟩ := hhandled _ hexec
  exact ⟨_, _, hrounds, hempty, hwriter, hcode⟩

end Acts

/-! ## The events of a target -/

/-- The events of the syscall `c`. -/
inductive LogsCrossing (leader : Pid) (c : Crossing arch) : List Event → Prop where
  | intro (ts ts' : UInt64) {data : Bytes} (hlen : data.length = c.captured) :
      LogsCrossing leader c [enterEvent ts (tidOf leader) (normalize arch c.entry),
        syscallExitEvent ts' leader (normalize arch c.entry) (normalize arch c.exit).ret data]

/-- The events of an act. -/
inductive LogsAct (leader : Pid) : Act arch → List Event → Prop where
  | call {c : Crossing arch} {events : List Event} (h : LogsCrossing leader c events) :
      LogsAct leader (.call c) events
  | signal {sig : Signal} {genuine : sig ≠ .stop} (ts : UInt64) :
      LogsAct leader (.signal sig genuine) [signalEvent ts leader sig]
  | exec {c : Crossing arch} {events : List Event} (h : LogsCrossing leader c events) :
      LogsAct leader (.exec c) events

/-- The events of a list of acts. -/
inductive LogsActs (leader : Pid) : List (Act arch) → List Event → Prop where
  | nil : LogsActs leader [] []
  | cons {act : Act arch} {acts : List (Act arch)} {first rest : List Event}
      (hfirst : LogsAct leader act first) (hrest : LogsActs leader acts rest) :
      LogsActs leader (act :: acts) (first ++ rest)

/-- The events of the end of a target: the entry of the syscall it ends in. -/
inductive LogsLast (leader : Pid) : Option (FullRegs arch) → List Event → Prop where
  | none : LogsLast leader none []
  | some {full : FullRegs arch} (ts : UInt64) :
      LogsLast leader (some full) [enterEvent ts (tidOf leader) (normalize arch full)]

/-- The events of a target. -/
def Logs (leader : Pid) (target : SoloTarget arch) (events : List Event) : Prop :=
  ∃ body last, events = body ++ last ∧ LogsActs leader target.acts body ∧
    LogsLast leader target.last last

section Runs

variable {target : SoloTarget arch} {leader : Pid} {log : List Event} {sig : Option Signal}
  {todo : List (Item arch)} {w : Hosted Scheduler (RecordingHost target.machine)}

/-- An act is recorded. -/
theorem Poised.act {act : Act arch} (h : Poised leader (act.items ++ todo) log none sig w) :
    ∃ k w' events sig', Rounds (turn arch) k w w' ∧ LogsAct leader act events ∧
      Poised leader todo (log ++ events) none sig' w' := by
  cases act with
  | call c =>
    obtain ⟨k, w₁, ts, hrounds, hinside⟩ := Poised.entry h
    obtain ⟨k', w₂, ts', data, hrounds', hlen, hafter⟩ := hinside.exit
    rw [List.append_assoc] at hafter
    exact ⟨_, w₂, _, _, hrounds.trans hrounds', .call (.intro ts ts' hlen), hafter⟩
  | signal s hs =>
    obtain ⟨k, w₁, ts, hrounds, hafter⟩ := Poised.signal hs h
    exact ⟨k, w₁, _, _, hrounds, .signal ts, hafter⟩
  | exec c =>
    obtain ⟨k, w₁, ts, hrounds, hinside⟩ := Poised.entry h
    obtain ⟨k', w₂, hrounds', hexeced⟩ := hinside.execed
    obtain ⟨k'', w₃, ts', data, hrounds'', hlen, hafter⟩ := hexeced.exit
    rw [List.append_assoc] at hafter
    exact ⟨_, w₃, _, _, (hrounds.trans hrounds').trans hrounds'', .exec (.intro ts ts' hlen),
      hafter⟩

/-- All acts are recorded, in their order. -/
theorem Poised.acts {acts : List (Act arch)}
    (h : Poised leader (acts.flatMap Act.items ++ todo) log none sig w) :
    ∃ k w' events sig', Rounds (turn arch) k w w' ∧ LogsActs leader acts events ∧
      Poised leader todo (log ++ events) none sig' w' := by
  induction acts generalizing log sig w with
  | nil => exact ⟨0, w, [], sig, .zero w, .nil, by rwa [List.append_nil]⟩
  | cons act acts ih =>
    rw [List.flatMap_cons, List.append_assoc] at h
    obtain ⟨k, w₁, first, sig₁, hrounds, hfirst, hnext⟩ := h.act
    obtain ⟨k', w₂, rest, sig₂, hrounds', hrest, hafter⟩ := ih hnext
    rw [List.append_assoc] at hafter
    exact ⟨_, w₂, _, sig₂, hrounds.trans hrounds', .cons hfirst hrest, hafter⟩

/-- A target is recorded to its end. -/
theorem Poised.recorded (h : Poised leader target.items log none sig w) :
    ∃ k w' events, Rounds (turn arch) k w w' ∧ Logs leader target events ∧
      w'.object.threads.isEmpty = true ∧ w'.object.writer = log ++ events ∧
      w'.object.leaderExit = target.fate.code := by
  obtain ⟨k, w₁, body, sig₁, hrounds, hbody, hend⟩ := Poised.acts h
  unfold SoloTarget.ending at hend
  cases hlast : target.last with
  | none =>
    rw [hlast] at hend
    obtain ⟨k', w₂, hrounds', hempty, hwriter, hcode⟩ := Poised.ended hend
    refine ⟨_, w₂, body, hrounds.trans hrounds', ⟨body, [], ?_, hbody, ?_⟩, hempty, hwriter, hcode⟩
    · rw [List.append_nil]
    · rw [hlast]
      exact .none
  | some full =>
    rw [hlast] at hend
    obtain ⟨k', w₂, ts, hrounds', hinside⟩ := Poised.entry hend
    obtain ⟨k'', w₃, hrounds'', hempty, hwriter, hcode⟩ := Poised.ended hinside
    rw [List.append_assoc] at hwriter
    refine ⟨_, w₃, _, (hrounds.trans hrounds').trans hrounds'', ⟨body, _, rfl, hbody, ?_⟩, hempty,
      hwriter, hcode⟩
    rw [hlast]
    exact .some ts

/-- A host on which nothing runs yet. -/
def RecordingHost.start (M : Machine arch) (policy : PidPolicy) (waits : List WaitCourse)
    (clock : Nat → UInt64) : RecordingHost M where
  os := { images := [], procs := ∅, messages := ∅, policy, count := 0 }
  waits
  clock

variable (target) (policy : PidPolicy) (waits : List WaitCourse) (clock : Nat → UInt64)
  (cmdline : Cmdline)

/-- The recording begins with all of the target's stops ahead. -/
theorem exec_prepare :
    ∃ (leader : Pid) (w : Hosted Scheduler (RecordingHost target.machine)),
      Poised leader target.items [] none none w ∧
      exec (recordCommand arch cmdline)
          ⟨.ofLeader 0, RecordingHost.start target.machine policy waits clock⟩ =
        exec (run arch) w := by
  let host := RecordingHost.start target.machine policy waits clock
  let leader := host.os.nextPid
  let img := Image.spawned target.machine cmdline
  let os₁ := { host.os with images := [img] }.register 0 0
  let os₂ := os₁.setImage 0 (img.collect 0)
  let traced : Image target.machine :=
    { img.collect 0 with options := Function.update img.options 0 traceOptions }
  let os₃ := os₂.setImage 0 traced
  have honly : OnlyChild leader os₁ := by
    intro p
    have hprocs : os₁.procs[p]? = if leader = p then some (0, 0) else (∅ : KeyMap Pid _)[p]? :=
      Os.procs_register ..
    rw [hprocs]
    by_cases hp : leader = p
    · rw [if_pos hp, if_pos hp.symm]
    · rw [if_neg hp, if_neg (Ne.symm hp)]
      exact KeyMap.get_empty p
  have hat₁ : os₁.At leader 0 0 img := ⟨honly.proc, rfl⟩
  have hat₂ : os₂.At leader 0 0 (img.collect 0) := hat₁.setImage
  have hat₃ : os₃.At leader 0 0 traced := hat₂.setImage
  have hspawn : Ptrace.spawnTraced arch cmdline host = (.ok leader, { host with os := os₁ }) := rfl
  have hwait : Ptrace.waitpid arch leader .none { host with os := os₁ } =
      (.ok (.stopped leader .trap), { host with os := os₂ }) := by
    change RecordingHost.onOs (Os.waitpid leader .none) _ = _
    rw [RecordingHost.onOs, Os.waitpid, hat₁.find]
    rfl
  have hoptions : Ptrace.setoptions arch leader traceOptions { host with os := os₂ } =
      (.ok (), { host with os := os₃ }) := by
    change RecordingHost.onOs (Os.setoptions leader traceOptions) _ = _
    rw [RecordingHost.onOs, Os.setoptions, hat₂.onImage]
    rfl
  refine ⟨leader, ⟨.ofLeader leader, { host with os := os₃ }⟩, ⟨rfl, rfl, honly, traced,
    hat₃.image, ?_, ?_, rfl, rfl⟩, ?_⟩
  · simp [traced, Image.collect]
  · simp [traced]
  · refine (bind_ok (exec_call hspawn)).trans ?_
    refine (bind_ok (exec_call hwait)).trans ?_
    refine (bind_ok (exec_call hoptions)).trans ?_
    rfl

/-- Whatever the preemptions, a target is recorded, with the events of its script and the
exit code it ends with. -/
theorem exec_recordCommand :
    ∃ leader outcome w, exec (recordCommand arch cmdline)
        ⟨.ofLeader 0, RecordingHost.start target.machine policy waits clock⟩ =
          some (.ok outcome, w) ∧
      Logs leader target w.object.writer ∧ outcome.exitCode = target.fate.code := by
  obtain ⟨leader, w, hpoised, hexec⟩ := exec_prepare target policy waits clock cmdline
  obtain ⟨k, w', events, hrounds, hlogs, hempty, hwriter, hcode⟩ := hpoised.recorded
  have hover : exec (turn arch) w' = some (.ok (some ()), w') := by
    refine (bind_ok (exec_object _)).trans ?_
    rw [hempty]
    rfl
  have hloop : exec (loop (turn arch)) w = some (.ok (), w') :=
    loop_returns hrounds (.inl ⟨(), hover, rfl⟩)
  let outcome : RecordOutcome :=
    { exitCode := w'.object.leaderExit, eventsRecorded := w'.object.eventsRecorded,
      threadsFollowed := w'.object.threadsFollowed }
  refine ⟨leader, outcome, w', ?_, ?_, hcode⟩
  · rw [hexec]
    exact bind_ok hloop
  · rw [hwriter]
    exact hlogs

end Runs

end Mirrorscope.Capture
