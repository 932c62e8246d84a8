import Mirrorscope.Replay.Checkpoint

/-! # What a snapshot leaves behind

A fork snapshot is a chain of calls, each of which may fail or report another
stop than the one the chain is waiting for. Here is what every way out of the
chain leaves of the tracee's registers and of the injected clone's child, and on
what condition that is nothing.

The chain is `injectClone`, and its outcomes are listed before anything is said about them:
* `Announced`, `ChildHeld`, `Cloned`: how far the chain has come. `Astray`: where it broke off.
* `WayOut`: every way out of a snapshot, with the last state of the system.
* `AsFound`: the tracee has its registers, and no child is left. `Clean`: the runs of which
  that can be said.
* `forkSnapshot_asFound_iff`: exactly these.
`Forking` and `AtLimit` are the systems of the two examples: a fork that succeeds and one that
is refused.
-/

namespace Mirrorscope.Replay

open Linux

/-! ## Tasks and their registers -/

section Files

variable {ρ : Type}

/-- Nothing happened to the tasks but that some may have died. -/
def Settles (file file' : Pid → Option ρ) : Prop := ∀ p, file' p = file p ∨ file' p = none

/-- No task is alive that was not before, `child` apart. -/
def OnlyNew (child : Pid) (file file' : Pid → Option ρ) : Prop :=
  ∀ p, file p = none → file' p ≠ none → p = child

/-- No task is alive that was not before. -/
def NoneNew (file file' : Pid → Option ρ) : Prop := ∀ p, file p = none → file' p = none

variable {file file' file'' : Pid → Option ρ}

theorem Settles.noneNew (h : Settles file file') : NoneNew file file' := by
  intro p hp
  rcases h p with hsame | hdied
  · rw [hsame, hp]
  · exact hdied

/-- What a task has after a settled step it had before, unless it is dead. -/
theorem Settles.holds {p : Pid} {r : ρ} (h : Settles file file')
    (hp : file p = none ∨ file p = some r) : file' p = none ∨ file' p = some r := by
  rcases h p with hsame | hdied
  · rwa [hsame]
  · exact .inl hdied

theorem NoneNew.trans (h : NoneNew file file') (h' : NoneNew file' file'') :
    NoneNew file file'' :=
  fun p hp => h' p (h p hp)

theorem NoneNew.onlyNew (h : NoneNew file file') (child : Pid) : OnlyNew child file file' :=
  fun p hp halive => absurd (h p hp) halive

/-- A step that makes `child` and nothing else, after one that makes nothing. -/
theorem NoneNew.trans_onlyNew {child : Pid} (h : NoneNew file file')
    (h' : OnlyNew child file' file'') : OnlyNew child file file'' :=
  fun p hp halive => h' p (h p hp) halive

theorem OnlyNew.trans {child : Pid} (h : OnlyNew child file file') (h' : NoneNew file' file'') :
    OnlyNew child file file'' :=
  fun p hp halive => h p hp fun hdead => halive (h' p hdead)

end Files

/-! ## The stops the chain waits for -/

/-- The stop of a tracee that has created a process. -/
def isForkStop : WaitStatus → Bool
  | .ptraceEvent _ _ event => isForkEvent event
  | _ => false

/-- The first stop of a new child. -/
def isHeldStop : WaitStatus → Bool
  | .stopped _ _ | .ptraceEvent _ _ _ => true
  | _ => false

/-- A syscall stop. -/
def isSyscallStop : WaitStatus → Bool
  | .ptraceSyscall _ => true
  | _ => false

variable {ω : Type}

/-- A wait reports a stop the chain goes on from. -/
def Awaited (expected : WaitStatus → Bool) (wait : Call ω Errno WaitStatus) (os os' : ω) : Prop :=
  ∃ status, wait os = (.ok status, os') ∧ expected status = true

/-- A call fails. -/
def Fails {α : Type} (call : Call ω Errno α) (os os' : ω) : Prop :=
  ∃ e, call os = (.error e, os')

/-- A wait fails, or reports a stop the chain does not go on from. -/
def Surprises (expected : WaitStatus → Bool) (wait : Call ω Errno WaitStatus) (os os' : ω) :
    Prop :=
  Fails wait os os' ∨ ∃ status, wait os = (.ok status, os') ∧ expected status = false

theorem fails_or_answers {α : Type} (call : Call ω Errno α) (os : ω) :
    (∃ os', Fails call os os') ∨ ∃ a os', call os = (.ok a, os') := by
  rcases hcall : call os with ⟨e | a, os'⟩
  · exact .inl ⟨os', e, hcall⟩
  · exact .inr ⟨a, os', rfl⟩

theorem surprises_or_reports (expected : WaitStatus → Bool) (wait : Call ω Errno WaitStatus)
    (os : ω) :
    (∃ os', Surprises expected wait os os') ∨ ∃ os', Awaited expected wait os os' := by
  rcases fails_or_answers wait os with ⟨os', hfails⟩ | ⟨status, os', hcall⟩
  · exact .inl ⟨os', .inl hfails⟩
  · cases hstatus : expected status with
    | true => exact .inr ⟨os', status, hcall, hstatus⟩
    | false => exact .inl ⟨os', .inr ⟨status, hcall, hstatus⟩⟩

/-! ## The chain of the injected clone -/

variable (arch : Arch) [Ptrace arch ω]

/-- The tracee stepped over the injected clone and its event named the child. -/
def Announced (pid : Pid) (os : ω) (child : Pid) (os' : ω) : Prop :=
  ∃ os₁ os₂, Ptrace.step arch pid os = (.ok (), os₁) ∧
    Awaited isForkStop (Ptrace.waitpid arch pid .none) os₁ os₂ ∧
    Ptrace.getevent arch pid os₂ = (.ok child, os')

/-- And the child was seen to stop and given its options. -/
def ChildHeld (pid : Pid) (os : ω) (child : Pid) (os' : ω) : Prop :=
  ∃ os₁ os₂, Announced arch pid os child os₁ ∧
    Awaited isHeldStop (Ptrace.waitpid arch child .none) os₁ os₂ ∧
    Ptrace.setoptions arch child setupOptions os₂ = (.ok (), os')

/-- And the tracee was brought to the exit stop of the clone: every call answered
as expected. -/
def Cloned (pid : Pid) (os : ω) (child : Pid) (os' : ω) : Prop :=
  ∃ os₁ os₂, ChildHeld arch pid os child os₁ ∧
    Ptrace.syscall arch pid none os₁ = (.ok (), os₂) ∧
    Awaited isSyscallStop (Ptrace.waitpid arch pid .none) os₂ os'

/-- The chain was left at one of its calls, which failed or reported another stop;
one constructor for each way out. -/
inductive Astray (pid : Pid) (os : ω) : ω → Prop where
  | step {os' : ω} (fails : Fails (Ptrace.step arch pid) os os') : Astray pid os os'
  | forkStop {os₁ os' : ω} (stepped : Ptrace.step arch pid os = (.ok (), os₁))
      (surprises : Surprises isForkStop (Ptrace.waitpid arch pid .none) os₁ os') :
      Astray pid os os'
  | message {os₁ os₂ os' : ω} (stepped : Ptrace.step arch pid os = (.ok (), os₁))
      (forked : Awaited isForkStop (Ptrace.waitpid arch pid .none) os₁ os₂)
      (fails : Fails (Ptrace.getevent arch pid) os₂ os') : Astray pid os os'
  | childStop {child : Pid} {os₁ os' : ω} (announced : Announced arch pid os child os₁)
      (surprises : Surprises isHeldStop (Ptrace.waitpid arch child .none) os₁ os') :
      Astray pid os os'
  | options {child : Pid} {os₁ os₂ os' : ω} (announced : Announced arch pid os child os₁)
      (stopped : Awaited isHeldStop (Ptrace.waitpid arch child .none) os₁ os₂)
      (fails : Fails (Ptrace.setoptions arch child setupOptions) os₂ os') : Astray pid os os'
  | resume {child : Pid} {os₁ os' : ω} (held : ChildHeld arch pid os child os₁)
      (fails : Fails (Ptrace.syscall arch pid none) os₁ os') : Astray pid os os'
  | exitStop {child : Pid} {os₁ os₂ os' : ω} (held : ChildHeld arch pid os child os₁)
      (resumed : Ptrace.syscall arch pid none os₁ = (.ok (), os₂))
      (surprises : Surprises isSyscallStop (Ptrace.waitpid arch pid .none) os₂ os') :
      Astray pid os os'

/-- The chain is walked to its end or left on the way. -/
theorem cloned_or_astray (pid : Pid) (os : ω) :
    (∃ child os', Cloned arch pid os child os') ∨ ∃ os', Astray arch pid os os' := by
  -- Call by call: either the chain is left here, or it goes on from the state the call left.
  rcases fails_or_answers (Ptrace.step arch pid) os with ⟨a, hfails⟩ | ⟨⟨⟩, a, hstep⟩
  · exact .inr ⟨a, .step hfails⟩
  rcases surprises_or_reports isForkStop (Ptrace.waitpid arch pid .none) a with
    ⟨b, hwrong⟩ | ⟨b, hfork⟩
  · exact .inr ⟨b, .forkStop hstep hwrong⟩
  rcases fails_or_answers (Ptrace.getevent arch pid) b with ⟨c, hfails⟩ | ⟨child, c, hevent⟩
  · exact .inr ⟨c, .message hstep hfork hfails⟩
  have hannounced : Announced arch pid os child c := ⟨a, b, hstep, hfork, hevent⟩
  rcases surprises_or_reports isHeldStop (Ptrace.waitpid arch child .none) c with
    ⟨d, hwrong⟩ | ⟨d, hstop⟩
  · exact .inr ⟨d, .childStop hannounced hwrong⟩
  rcases fails_or_answers (Ptrace.setoptions arch child setupOptions) d with
    ⟨e, hfails⟩ | ⟨⟨⟩, e, hoptions⟩
  · exact .inr ⟨e, .options hannounced hstop hfails⟩
  have hheld : ChildHeld arch pid os child e := ⟨c, d, hannounced, hstop, hoptions⟩
  rcases fails_or_answers (Ptrace.syscall arch pid none) e with ⟨f, hfails⟩ | ⟨⟨⟩, f, hresumed⟩
  · exact .inr ⟨f, .resume hheld hfails⟩
  rcases surprises_or_reports isSyscallStop (Ptrace.waitpid arch pid .none) f with
    ⟨g, hwrong⟩ | ⟨g, hexit⟩
  · exact .inr ⟨g, .exitStop hheld hresumed hwrong⟩
  exact .inl ⟨child, g, e, f, hheld, hresumed, hexit⟩

/-! ## The chain as the code runs it -/

/-- The part of `forkSnapshot` between the two writes of the tracee's registers. -/
def injectClone (pid : Pid) : Method ω Pid := do
  os (Ptrace.step arch pid)
  let child ← waitForForkChild arch pid
  reapForkChild arch child
  os (Ptrace.setoptions arch child setupOptions)
  reapCloneExit arch pid
  pure child

theorem forkSnapshot_eq (pid : Pid) :
    (forkSnapshot arch pid : Method ω Pid) = (do
      let saved ← Regs.saveFull arch pid
      Regs.restoreFull arch pid (Regs.prepareFork arch saved)
      let child ← injectClone arch pid
      Regs.restoreFull arch pid saved
      Regs.restoreFull arch child saved
      pure child) := by
  simp only [forkSnapshot, injectClone, Run.bind_assoc, Run.pure_bind]

theorem exec_os_ok {α : Type} {call : Call ω Errno α} {w : World ω} {a : α} {os' : ω}
    (h : call w.os = (.ok a, os')) :
    Run.exec (os call) w = some (.ok a, { w with os := os' }) :=
  exec_osOr_ok h

theorem exec_os_fails {α : Type} {call : Call ω Errno α} {w : World ω} {os' : ω}
    (h : Fails call w.os os') :
    ∃ error, Run.exec (os call) w = some (.error error, { w with os := os' }) := by
  rcases h with ⟨e, he⟩
  exact ⟨.ptrace e, exec_osOr_error he⟩

variable {arch} {pid child : Pid} {w : World ω} {os₁ os' : ω}

theorem exec_saveFull_ok {saved : FullRegs arch} (h : Ptrace.getregs pid w.os = (.ok saved, os')) :
    Run.exec (Regs.saveFull arch pid) w = some (.ok saved, { w with os := os' }) :=
  exec_os_ok h

theorem exec_restoreFull_ok {regs : FullRegs arch}
    (h : Ptrace.setregs pid regs w.os = (.ok (), os')) :
    Run.exec (Regs.restoreFull arch pid regs) w = some (.ok (), { w with os := os' }) :=
  exec_os_ok h

theorem exec_waitForForkChild_ok
    (hfork : Awaited isForkStop (Ptrace.waitpid arch pid .none) w.os os₁)
    (hevent : Ptrace.getevent arch pid os₁ = (.ok child, os')) :
    Run.exec (waitForForkChild arch pid) w = some (.ok child, { w with os := os' }) := by
  rcases hfork with ⟨status, hwait, hstatus⟩
  rw [waitForForkChild, Run.bind_ok (exec_os_ok hwait)]
  cases status <;> simp only [isForkStop, Bool.false_eq_true] at hstatus
  simp only [hstatus, if_true]
  exact exec_os_ok hevent

/-- The wait or the message after it goes wrong. -/
theorem exec_waitForForkChild_error
    (h : Surprises isForkStop (Ptrace.waitpid arch pid .none) w.os os' ∨
      ∃ os₁, Awaited isForkStop (Ptrace.waitpid arch pid .none) w.os os₁ ∧
        Fails (Ptrace.getevent arch pid) os₁ os') :
    ∃ error,
      Run.exec (waitForForkChild arch pid) w = some (.error error, { w with os := os' }) := by
  rcases h with (⟨e, he⟩ | ⟨status, hwait, hstatus⟩) | ⟨os₁, ⟨status, hwait, hstatus⟩, e, he⟩
  · exact ⟨.ptrace e, Run.bind_error (exec_osOr_error he)⟩
  · rw [waitForForkChild, Run.bind_ok (exec_os_ok hwait)]
    cases status <;> simp_all [isForkStop]
  · rw [waitForForkChild, Run.bind_ok (exec_os_ok hwait)]
    cases status <;> simp only [isForkStop, Bool.false_eq_true] at hstatus
    simp only [hstatus, if_true]
    exact ⟨.ptrace e, exec_osOr_error he⟩

theorem exec_reapForkChild_ok
    (h : Awaited isHeldStop (Ptrace.waitpid arch child .none) w.os os') :
    Run.exec (reapForkChild arch child) w = some (.ok (), { w with os := os' }) := by
  rcases h with ⟨status, hwait, hstatus⟩
  rw [reapForkChild, Run.bind_ok (exec_os_ok hwait)]
  cases status <;> simp_all [isHeldStop]

theorem exec_reapForkChild_error
    (h : Surprises isHeldStop (Ptrace.waitpid arch child .none) w.os os') :
    ∃ error, Run.exec (reapForkChild arch child) w = some (.error error, { w with os := os' }) := by
  rcases h with ⟨e, he⟩ | ⟨status, hwait, hstatus⟩
  · exact ⟨.ptrace e, Run.bind_error (exec_osOr_error he)⟩
  · rw [reapForkChild, Run.bind_ok (exec_os_ok hwait)]
    cases status <;> simp_all [isHeldStop]

theorem exec_reapCloneExit_ok (hresumed : Ptrace.syscall arch pid none w.os = (.ok (), os₁))
    (hexit : Awaited isSyscallStop (Ptrace.waitpid arch pid .none) os₁ os') :
    Run.exec (reapCloneExit arch pid) w = some (.ok (), { w with os := os' }) := by
  rcases hexit with ⟨status, hwait, hstatus⟩
  rw [reapCloneExit, Run.bind_ok (exec_os_ok hresumed), Run.bind_ok (exec_os_ok hwait)]
  cases status <;> simp_all [isSyscallStop]

/-- The resuming or the wait after it goes wrong. -/
theorem exec_reapCloneExit_error
    (h : Fails (Ptrace.syscall arch pid none) w.os os' ∨
      ∃ os₁, Ptrace.syscall arch pid none w.os = (.ok (), os₁) ∧
        Surprises isSyscallStop (Ptrace.waitpid arch pid .none) os₁ os') :
    ∃ error, Run.exec (reapCloneExit arch pid) w = some (.error error, { w with os := os' }) := by
  rcases h with ⟨e, he⟩ | ⟨os₁, hresumed, ⟨e, he⟩ | ⟨status, hwait, hstatus⟩⟩
  · exact ⟨.ptrace e, Run.bind_error (exec_osOr_error he)⟩
  · rw [reapCloneExit, Run.bind_ok (exec_os_ok hresumed)]
    exact ⟨.ptrace e, Run.bind_error (exec_osOr_error he)⟩
  · rw [reapCloneExit, Run.bind_ok (exec_os_ok hresumed), Run.bind_ok (exec_os_ok hwait)]
    cases status <;> simp_all [isSyscallStop]

/-- The chain walked to its end answers the child. -/
theorem exec_injectClone_ok (h : Cloned arch pid w.os child os') :
    Run.exec (injectClone arch pid) w = some (.ok child, { w with os := os' }) := by
  rcases h with ⟨e, f, ⟨c, d, ⟨a, b, hstep, hfork, hevent⟩, hstop, hoptions⟩, hresumed, hexit⟩
  rw [injectClone, Run.bind_ok (exec_os_ok hstep),
    Run.bind_ok (exec_waitForForkChild_ok hfork hevent), Run.bind_ok (exec_reapForkChild_ok hstop),
    Run.bind_ok (exec_os_ok hoptions), Run.bind_ok (exec_reapCloneExit_ok hresumed hexit)]
  rfl

/-- Up to the announced child. -/
theorem exec_injectClone_announced (h : Announced arch pid w.os child os₁) :
    Run.exec (injectClone arch pid) w =
      Run.exec (do
        reapForkChild arch child
        os (Ptrace.setoptions arch child setupOptions)
        reapCloneExit arch pid
        pure child) { w with os := os₁ } := by
  rcases h with ⟨a, b, hstep, hfork, hevent⟩
  rw [injectClone, Run.bind_ok (exec_os_ok hstep),
    Run.bind_ok (exec_waitForForkChild_ok hfork hevent)]

/-- Up to the held child. -/
theorem exec_injectClone_held (h : ChildHeld arch pid w.os child os₁) :
    Run.exec (injectClone arch pid) w =
      Run.exec (do
        reapCloneExit arch pid
        pure child) { w with os := os₁ } := by
  rcases h with ⟨c, d, hannounced, hstop, hoptions⟩
  rw [exec_injectClone_announced hannounced, Run.bind_ok (exec_reapForkChild_ok hstop),
    Run.bind_ok (exec_os_ok hoptions)]

/-- Left at any of its calls, the chain fails there and does nothing more. -/
theorem exec_injectClone_error (h : Astray arch pid w.os os') :
    ∃ error, Run.exec (injectClone arch pid) w = some (.error error, { w with os := os' }) := by
  cases h with
  | step fails =>
    rcases exec_os_fails fails with ⟨error, herror⟩
    exact ⟨error, Run.bind_error herror⟩
  | forkStop stepped surprises =>
    rw [injectClone, Run.bind_ok (exec_os_ok stepped)]
    rcases exec_waitForForkChild_error (w := { w with os := _ }) (.inl surprises) with
      ⟨error, herror⟩
    exact ⟨error, Run.bind_error herror⟩
  -- From here on there may be a child.
  | message stepped forked fails =>
    rw [injectClone, Run.bind_ok (exec_os_ok stepped)]
    rcases exec_waitForForkChild_error (w := { w with os := _ }) (.inr ⟨_, forked, fails⟩) with
      ⟨error, herror⟩
    exact ⟨error, Run.bind_error herror⟩
  | childStop announced surprises =>
    rw [exec_injectClone_announced announced]
    rcases exec_reapForkChild_error (w := { w with os := _ }) surprises with ⟨error, herror⟩
    exact ⟨error, Run.bind_error herror⟩
  | options announced stopped fails =>
    rw [exec_injectClone_announced announced, Run.bind_ok (exec_reapForkChild_ok stopped)]
    rcases exec_os_fails (w := { w with os := _ }) fails with ⟨error, herror⟩
    exact ⟨error, Run.bind_error herror⟩
  | resume held fails =>
    rw [exec_injectClone_held held]
    rcases exec_reapCloneExit_error (w := { w with os := _ }) (.inl fails) with
      ⟨error, herror⟩
    exact ⟨error, Run.bind_error herror⟩
  | exitStop held resumed surprises =>
    rw [exec_injectClone_held held]
    rcases exec_reapCloneExit_error (w := { w with os := _ }) (.inr ⟨_, resumed, surprises⟩) with
      ⟨error, herror⟩
    exact ⟨error, Run.bind_error herror⟩

/-- The chain has one outcome. -/
theorem Cloned.not_astray (h : Cloned arch pid w.os child os₁)
    (hastray : Astray arch pid w.os os') : False := by
  rcases exec_injectClone_error hastray with ⟨error, herror⟩
  rw [exec_injectClone_ok h] at herror
  cases herror

/-! ## The ways out of a snapshot -/

variable (arch)

/-- The registers of the tracee were read and rewritten to the clone. -/
def Injected (pid : Pid) (os : ω) (saved : FullRegs arch) (os' : ω) : Prop :=
  ∃ os₁, Ptrace.getregs pid os = (.ok saved, os₁) ∧
    Ptrace.setregs pid (Regs.prepareFork arch saved) os₁ = (.ok (), os')

variable {arch} in
theorem Injected.unique {os os₂ : ω} {saved saved' : FullRegs arch}
    (h : Injected arch pid os saved os₁) (h' : Injected arch pid os saved' os₂) :
    saved = saved' ∧ os₁ = os₂ := by
  rcases h with ⟨a, hread, hwritten⟩
  rcases h' with ⟨b, hread', hwritten'⟩
  rcases Prod.mk.inj (hread.symm.trans hread') with ⟨hsaved, rfl⟩
  rcases Except.ok.inj hsaved with rfl
  exact ⟨rfl, (Prod.mk.inj (hwritten.symm.trans hwritten')).2⟩

/-- How a snapshot returns: the child it gives its caller, if it does, and the
system it leaves. -/
inductive WayOut (pid : Pid) (os : ω) : Option Pid → ω → Prop where
  | unread {os' : ω}
      (fails : Fails (@Ptrace.getregs arch _ _ pid) os os') : WayOut pid os none os'
  | uninjected {saved : FullRegs arch} {os₁ os' : ω}
      (read : Ptrace.getregs pid os = (.ok saved, os₁))
      (fails : Fails (Ptrace.setregs pid (Regs.prepareFork arch saved)) os₁ os') :
      WayOut pid os none os'
  | astray {saved : FullRegs arch} {os₁ os' : ω} (injected : Injected arch pid os saved os₁)
      (astray : Astray arch pid os₁ os') : WayOut pid os none os'
  | unrestored {saved : FullRegs arch} {child : Pid} {os₁ os₂ os' : ω}
      (injected : Injected arch pid os saved os₁) (cloned : Cloned arch pid os₁ child os₂)
      (fails : Fails (Ptrace.setregs pid saved) os₂ os') : WayOut pid os none os'
  | unseated {saved : FullRegs arch} {child : Pid} {os₁ os₂ os₃ os' : ω}
      (injected : Injected arch pid os saved os₁) (cloned : Cloned arch pid os₁ child os₂)
      (restored : Ptrace.setregs pid saved os₂ = (.ok (), os₃))
      (fails : Fails (Ptrace.setregs child saved) os₃ os') : WayOut pid os none os'
  | taken {saved : FullRegs arch} {child : Pid} {os₁ os₂ os₃ os' : ω}
      (injected : Injected arch pid os saved os₁) (cloned : Cloned arch pid os₁ child os₂)
      (restored : Ptrace.setregs pid saved os₂ = (.ok (), os₃))
      (seated : Ptrace.setregs child saved os₃ = (.ok (), os')) : WayOut pid os (some child) os'

/-- A snapshot returns in one of these ways. -/
theorem exists_wayOut (pid : Pid) (os : ω) : ∃ held os', WayOut arch pid os held os' := by
  -- As for the chain, whose own ways out are taken together.
  rcases fails_or_answers (@Ptrace.getregs arch _ _ pid) os with
    ⟨a, hfails⟩ | ⟨saved, a, hread⟩
  · exact ⟨none, a, .unread hfails⟩
  rcases fails_or_answers (Ptrace.setregs pid (Regs.prepareFork arch saved)) a with
    ⟨b, hfails⟩ | ⟨⟨⟩, b, hwritten⟩
  · exact ⟨none, b, .uninjected hread hfails⟩
  have hinjected : Injected arch pid os saved b := ⟨a, hread, hwritten⟩
  rcases cloned_or_astray arch pid b with ⟨child, c, hcloned⟩ | ⟨c, hastray⟩
  · rcases fails_or_answers (Ptrace.setregs pid saved) c with ⟨d, hfails⟩ | ⟨⟨⟩, d, hrestored⟩
    · exact ⟨none, d, .unrestored hinjected hcloned hfails⟩
    rcases fails_or_answers (Ptrace.setregs child saved) d with ⟨e, hfails⟩ | ⟨⟨⟩, e, hseated⟩
    · exact ⟨none, e, .unseated hinjected hcloned hrestored hfails⟩
    · exact ⟨some child, e, .taken hinjected hcloned hrestored hseated⟩
  · exact ⟨none, c, .astray hinjected hastray⟩

variable {arch}

/-- Up to the injected clone. -/
theorem exec_forkSnapshot_injected {saved : FullRegs arch}
    (h : Injected arch pid w.os saved os₁) :
    Run.exec (forkSnapshot arch pid) w =
      Run.exec (do
        let child ← injectClone arch pid
        Regs.restoreFull arch pid saved
        Regs.restoreFull arch child saved
        pure child) { w with os := os₁ } := by
  rcases h with ⟨a, hread, hwritten⟩
  rw [forkSnapshot_eq, Run.bind_ok (exec_saveFull_ok hread),
    Run.bind_ok (exec_restoreFull_ok hwritten)]

/-- A snapshot returns so: with the child or with an error, and the session as it was. -/
theorem WayOut.exec {held : Option Pid} (h : WayOut arch pid w.os held os') :
    ∃ r, Run.exec (forkSnapshot arch pid) w = some (r, { w with os := os' }) ∧
      r.toOption = held := by
  cases h with
  | unread fails =>
    rcases exec_os_fails fails with ⟨error, herror⟩
    rw [forkSnapshot_eq]
    exact ⟨.error error, Run.bind_error herror, rfl⟩
  | uninjected read fails =>
    rcases exec_os_fails (w := { w with os := _ }) fails with ⟨error, herror⟩
    rw [forkSnapshot_eq, Run.bind_ok (exec_saveFull_ok read)]
    exact ⟨.error error, Run.bind_error herror, rfl⟩
  | astray injected astray =>
    rcases exec_injectClone_error (w := { w with os := _ }) astray with ⟨error, herror⟩
    rw [exec_forkSnapshot_injected injected]
    exact ⟨.error error, Run.bind_error herror, rfl⟩
  -- From here on the chain is through, and its child is held.
  | unrestored injected cloned fails =>
    rcases exec_os_fails (w := { w with os := _ }) fails with ⟨error, herror⟩
    rw [exec_forkSnapshot_injected injected, Run.bind_ok (exec_injectClone_ok cloned)]
    exact ⟨.error error, Run.bind_error herror, rfl⟩
  | unseated injected cloned restored fails =>
    rcases exec_os_fails (w := { w with os := _ }) fails with ⟨error, herror⟩
    rw [exec_forkSnapshot_injected injected, Run.bind_ok (exec_injectClone_ok cloned),
      Run.bind_ok (exec_restoreFull_ok restored)]
    exact ⟨.error error, Run.bind_error herror, rfl⟩
  | taken injected cloned restored seated =>
    rw [exec_forkSnapshot_injected injected, Run.bind_ok (exec_injectClone_ok cloned),
      Run.bind_ok (exec_restoreFull_ok restored), Run.bind_ok (exec_restoreFull_ok seated)]
    exact ⟨.ok _, rfl, rfl⟩

/-! ## What a call does to the tasks -/

/-- The register files of the live tasks that a session traces, and what the calls
of a snapshot do to them: any task may die meanwhile, a call other than a resumption
touches no register but those it writes, and a tracee that is resumed makes no
process but the one its fork event names. All other tasks are held stopped. -/
class TaskFiles (arch : Arch) (ω : Type) [Ptrace arch ω] where
  /-- The register file of a live task. -/
  file : ω → Pid → Option (FullRegs arch)
  getregs_ok {os os' : ω} {pid : Pid} {regs : FullRegs arch} :
    Ptrace.getregs pid os = (.ok regs, os') → file os pid = some regs
  getregs_settles {os os' : ω} {pid : Pid} {r : Except Errno (FullRegs arch)} :
    Ptrace.getregs pid os = (r, os') → Settles (file os) (file os')
  setregs_ok {os os' : ω} {pid : Pid} {regs : FullRegs arch} :
    Ptrace.setregs pid regs os = (.ok (), os') → file os' pid = none ∨ file os' pid = some regs
  setregs_others {os os' : ω} {pid p : Pid} {regs : FullRegs arch} {r : Except Errno Unit} :
    Ptrace.setregs pid regs os = (r, os') → p ≠ pid → file os' p = file os p ∨ file os' p = none
  setregs_fails {os os' : ω} {pid : Pid} {regs : FullRegs arch} {e : Errno} :
    Ptrace.setregs pid regs os = (.error e, os') → Settles (file os) (file os')
  setoptions_settles {os os' : ω} {pid : Pid} {options : Options} {r : Except Errno Unit} :
    Ptrace.setoptions arch pid options os = (r, os') → Settles (file os) (file os')
  /-- The message of a fork event is the one process made since the tracee was resumed. -/
  announced {os os' : ω} {pid child : Pid} :
    Announced arch pid os child os' → OnlyNew child (file os) (file os')
  /-- A new child makes no process before its first stop. -/
  first_stop {os os₁ os₂ : ω} {pid child : Pid} {status : WaitStatus} :
    Announced arch pid os child os₁ →
    Ptrace.waitpid arch child .none os₁ = (.ok status, os₂) → NoneNew (file os₁) (file os₂)
  /-- The tracee makes no process on the way to the exit stop of the clone. -/
  exit_stop {os os₁ os₂ os₃ : ω} {pid child p : Pid} :
    ChildHeld arch pid os child os₁ → Ptrace.syscall arch pid none os₁ = (.ok (), os₂) →
    Ptrace.waitpid arch pid .none os₂ = (.ok (.ptraceSyscall p), os₃) →
    NoneNew (file os₁) (file os₃)

variable [TaskFiles arch ω]

open TaskFiles

theorem ChildHeld.onlyNew {os : ω} (h : ChildHeld arch pid os child os') :
    OnlyNew child (file os : Pid → Option (FullRegs arch)) (file os') := by
  rcases h with ⟨c, d, hannounced, ⟨status, hwait, -⟩, hoptions⟩
  have hstopped := (announced hannounced).trans (first_stop hannounced hwait)
  exact hstopped.trans (setoptions_settles hoptions).noneNew

/-- The chain walked to its end has made its child and nothing else. -/
theorem Cloned.onlyNew {os : ω} (h : Cloned arch pid os child os') :
    OnlyNew child (file os : Pid → Option (FullRegs arch)) (file os') := by
  rcases h with ⟨e, f, hheld, hresumed, status, hwait, hstatus⟩
  cases status <;> simp only [isSyscallStop, Bool.false_eq_true] at hstatus
  exact hheld.onlyNew.trans (exit_stop hheld hresumed hwait)

theorem Injected.file_some {os : ω} {saved : FullRegs arch}
    (h : Injected arch pid os saved os') : file os pid = some saved := by
  rcases h with ⟨a, hread, -⟩
  exact getregs_ok hread

/-- Writing the registers of one task makes no other. -/
theorem setregs_noneNew {os : ω} {regs : FullRegs arch} {r : Except Errno Unit}
    (h : Ptrace.setregs pid regs os = (r, os')) {p : Pid} (hp : p ≠ pid)
    (hdead : (file os p : Option (FullRegs arch)) = none) :
    (file os' p : Option (FullRegs arch)) = none := by
  rcases setregs_others h hp with hsame | hdied
  · rw [hsame, hdead]
  · exact hdied

/-- Writing the registers for the clone creates no task. -/
theorem Injected.noneNew {os : ω} {saved : FullRegs arch} (h : Injected arch pid os saved os') :
    NoneNew (file os : Pid → Option (FullRegs arch)) (file os') := by
  have hpid := h.file_some
  rcases h with ⟨a, hread, hwritten⟩
  intro p hp
  -- The tracee itself is not new: its registers were read on entry.
  refine setregs_noneNew hwritten ?_ ((getregs_settles hread).noneNew p hp)
  rintro rfl
  rw [hpid] at hp
  cases hp

/-- From the entry to the exit stop of the clone. -/
theorem Injected.cloned_onlyNew {os : ω} {saved : FullRegs arch}
    (h : Injected arch pid os saved os₁) (hcloned : Cloned arch pid os₁ child os') :
    OnlyNew child (file os : Pid → Option (FullRegs arch)) (file os') :=
  h.noneNew.trans_onlyNew hcloned.onlyNew

/-- From the entry to the restored tracee. -/
theorem Injected.restored_onlyNew {os os₂ : ω} {saved regs : FullRegs arch}
    {r : Except Errno Unit} (h : Injected arch pid os saved os₁)
    (hcloned : Cloned arch pid os₁ child os₂) (hset : Ptrace.setregs pid regs os₂ = (r, os')) :
    OnlyNew child (file os : Pid → Option (FullRegs arch)) (file os') := by
  intro p hp halive
  by_contra hother
  refine halive (setregs_noneNew hset ?_ ?_)
  · rintro rfl
    rw [h.file_some] at hp
    cases hp
  · by_contra hnew
    exact hother (h.cloned_onlyNew hcloned p hp hnew)

/-- And on to the seated child. -/
theorem OnlyNew.seated {os os₁ : ω} {regs : FullRegs arch} {r : Except Errno Unit}
    (h : OnlyNew child (file os : Pid → Option (FullRegs arch)) (file os₁))
    (hset : Ptrace.setregs child regs os₁ = (r, os')) :
    OnlyNew child (file os : Pid → Option (FullRegs arch)) (file os') := by
  intro p hp halive
  by_contra hother
  refine halive (setregs_noneNew hset hother ?_)
  by_contra hnew
  exact hother (h p hp hnew)

/-- The seating of the child leaves the tracee its registers. -/
theorem seated_registers {os : ω} {saved : FullRegs arch} {r : Except Errno Unit}
    (hpid : (file os pid : Option (FullRegs arch)) = none ∨ file os pid = some saved)
    (hset : Ptrace.setregs child saved os = (r, os')) :
    (file os' pid : Option (FullRegs arch)) = none ∨ file os' pid = some saved := by
  by_cases hself : pid = child
  · subst hself
    cases r with
    | ok => exact setregs_ok hset
    | error e => exact (setregs_fails hset).holds hpid
  · rcases setregs_others hset hself with hsame | hdied
    · rwa [hsame]
    · exact .inl hdied

/-! ## What a snapshot leaves -/

variable (arch)

/-- The tracee could not be given its registers back. -/
def RestoreFailed (pid : Pid) (os : ω) : Prop :=
  ∃ (saved : FullRegs arch) (child : Pid) (os₁ os₂ os₃ : ω),
    Injected arch pid os saved os₁ ∧ Cloned arch pid os₁ child os₂ ∧
      Fails (Ptrace.setregs pid saved) os₂ os₃

/-- Nothing is left of a snapshot that gave its caller `held`: the tracee has the
registers it had on entry, unless it died or could not be given them back, and no
task is alive that was not on entry, but the one given to the caller. -/
structure AsFound (pid : Pid) (os : ω) (held : Option Pid) (os' : ω) : Prop where
  registers : (file os' pid : Option (FullRegs arch)) = file os pid ∨
    (file os' pid : Option (FullRegs arch)) = none ∨ RestoreFailed arch pid os
  children : ∀ child, (file os child : Option (FullRegs arch)) = none →
    (file os' child : Option (FullRegs arch)) ≠ none → held = some child

/-- When a snapshot leaves nothing behind. The code undoes nothing on its way out,
so at a call that goes wrong the tracee and the child have to be gone already. Once the
clone is done, that is to say that its one child died. Where the chain was left before,
the kernel may have made the child or not and the event may be lost, so there the
condition has to be read off the tasks themselves, as the last call left them. -/
inductive Clean (pid : Pid) (os : ω) : Prop where
  | unread {os' : ω} (fails : Fails (@Ptrace.getregs arch _ _ pid) os os')
  | uninjected {saved : FullRegs arch} {os₁ os' : ω}
      (read : Ptrace.getregs pid os = (.ok saved, os₁))
      (fails : Fails (Ptrace.setregs pid (Regs.prepareFork arch saved)) os₁ os')
  | astray {saved : FullRegs arch} {os₁ os' : ω} (injected : Injected arch pid os saved os₁)
      (astray : Astray arch pid os₁ os')
      (tracee : (file os' pid : Option (FullRegs arch)) = none ∨ file os' pid = some saved)
      (childless : NoneNew (file os : Pid → Option (FullRegs arch)) (file os'))
  | unrestored {saved : FullRegs arch} {child : Pid} {os₁ os₂ os' : ω}
      (injected : Injected arch pid os saved os₁) (cloned : Cloned arch pid os₁ child os₂)
      (fails : Fails (Ptrace.setregs pid saved) os₂ os')
      (dead : (file os child : Option (FullRegs arch)) = none →
        (file os' child : Option (FullRegs arch)) = none)
  | unseated {saved : FullRegs arch} {child : Pid} {os₁ os₂ os₃ os' : ω}
      (injected : Injected arch pid os saved os₁) (cloned : Cloned arch pid os₁ child os₂)
      (restored : Ptrace.setregs pid saved os₂ = (.ok (), os₃))
      (fails : Fails (Ptrace.setregs child saved) os₃ os')
      (dead : (file os child : Option (FullRegs arch)) = none →
        (file os' child : Option (FullRegs arch)) = none)
  | taken {saved : FullRegs arch} {child : Pid} {os₁ os₂ os₃ os' : ω}
      (injected : Injected arch pid os saved os₁) (cloned : Cloned arch pid os₁ child os₂)
      (restored : Ptrace.setregs pid saved os₂ = (.ok (), os₃))
      (seated : Ptrace.setregs child saved os₃ = (.ok (), os'))

variable {arch}

/-- The tracee is dead or has the registers that were read of it on entry. -/
theorem AsFound.of_saved {os : ω} {saved : FullRegs arch} {held : Option Pid}
    (hentry : file os pid = some saved)
    (hpid : (file os' pid : Option (FullRegs arch)) = none ∨ file os' pid = some saved)
    (hchildren : ∀ child, (file os child : Option (FullRegs arch)) = none →
      (file os' child : Option (FullRegs arch)) ≠ none → held = some child) :
    AsFound arch pid os held os' := by
  refine ⟨?_, hchildren⟩
  rcases hpid with hdied | hsame
  · exact .inr (.inl hdied)
  · exact .inl (hsame.trans hentry.symm)

theorem AsFound.of_settles {os : ω} {held : Option Pid}
    (h : Settles (file os : Pid → Option (FullRegs arch)) (file os')) :
    AsFound arch pid os held os' :=
  ⟨(h pid).imp_right .inl, fun child hnew halive => absurd (h.noneNew child hnew) halive⟩

/-- No child is left of a clone whose one child is dead. -/
theorem OnlyNew.childless {os : ω} {held : Option Pid}
    (h : OnlyNew child (file os : Pid → Option (FullRegs arch)) (file os'))
    (hdead : (file os child : Option (FullRegs arch)) = none →
      (file os' child : Option (FullRegs arch)) = none) :
    ∀ p, (file os p : Option (FullRegs arch)) = none →
      (file os' p : Option (FullRegs arch)) ≠ none → held = some p := by
  intro p hnew halive
  rcases h p hnew halive with rfl
  exact absurd (hdead hnew) halive

/-- A clean snapshot returns and leaves nothing behind. -/
theorem Clean.exists_wayOut {os : ω} (h : Clean arch pid os) :
    ∃ held os', WayOut arch pid os held os' ∧ AsFound arch pid os held os' := by
  cases h with
  | unread fails =>
    rcases fails with ⟨e, hread⟩
    exact ⟨none, _, .unread ⟨e, hread⟩, .of_settles (getregs_settles hread)⟩
  | uninjected read fails =>
    rcases fails with ⟨e, hwrite⟩
    refine ⟨none, _, .uninjected read ⟨e, hwrite⟩, ?_⟩
    have hsettles := setregs_fails hwrite
    have hread := getregs_settles read
    refine .of_saved (getregs_ok read) (hsettles.holds (hread.holds (.inr (getregs_ok read)))) ?_
    intro child hnew halive
    exact absurd ((hread.noneNew.trans hsettles.noneNew) child hnew) halive
  | astray injected astray tracee childless =>
    refine ⟨none, _, .astray injected astray, .of_saved injected.file_some tracee ?_⟩
    intro child hnew halive
    exact absurd (childless child hnew) halive
  | unrestored injected cloned fails dead =>
    rcases fails with ⟨e, hwrite⟩
    refine ⟨none, _, .unrestored injected cloned ⟨e, hwrite⟩, ?_, ?_⟩
    -- The restoring call is the one that failed, so the registers are excused.
    · exact .inr (.inr ⟨_, _, _, _, _, injected, cloned, e, hwrite⟩)
    · exact (injected.restored_onlyNew cloned hwrite).childless dead
  | unseated injected cloned restored fails dead =>
    rcases fails with ⟨e, hwrite⟩
    refine ⟨none, _, .unseated injected cloned restored ⟨e, hwrite⟩, .of_saved injected.file_some
      (seated_registers (setregs_ok restored) hwrite) ?_⟩
    exact ((injected.restored_onlyNew cloned restored).seated hwrite).childless dead
  | @taken saved child _ _ _ _ injected cloned restored seated =>
    refine ⟨some child, _, .taken injected cloned restored seated, .of_saved injected.file_some
      (seated_registers (setregs_ok restored) seated) ?_⟩
    intro p hnew halive
    rw [((injected.restored_onlyNew cloned restored).seated seated) p hnew halive]

omit [TaskFiles arch ω] in
/-- A chain that was left never came to the restoring call. -/
theorem Injected.not_restoreFailed {saved : FullRegs arch} (h : Injected arch pid w.os saved os₁)
    (hastray : Astray arch pid os₁ os') : ¬ RestoreFailed arch pid w.os := by
  rintro ⟨saved', child, a, b, c, hinjected, hcloned, -⟩
  rcases h.unique hinjected with ⟨-, rfl⟩
  exact Cloned.not_astray (w := { w with os := os₁ }) hcloned hastray

theorem AsFound.noneNew {os : ω} (h : AsFound arch pid os none os') :
    NoneNew (file os : Pid → Option (FullRegs arch)) (file os') := by
  intro child hnew
  by_contra halive
  cases h.children child hnew halive

/-- A snapshot that left nothing behind was clean. -/
theorem WayOut.clean {held : Option Pid} (h : WayOut arch pid w.os held os')
    (hfound : AsFound arch pid w.os held os') : Clean arch pid w.os := by
  -- Where a call fails before the injection, or none does, there is nothing to ask;
  -- elsewhere what has to be gone already is read off the state that was left.
  cases h with
  | unread fails => exact .unread fails
  | uninjected read fails => exact .uninjected read fails
  | astray injected astray =>
    refine .astray injected astray ?_ hfound.noneNew
    rcases hfound.registers with hsame | hdied | hfailed
    · exact .inr (hsame.trans injected.file_some)
    · exact .inl hdied
    -- A chain left on the way is no failed restoring call.
    · exact absurd hfailed (injected.not_restoreFailed astray)
  | unrestored injected cloned fails =>
    exact .unrestored injected cloned fails fun hnew => hfound.noneNew _ hnew
  | unseated injected cloned restored fails =>
    exact .unseated injected cloned restored fails fun hnew => hfound.noneNew _ hnew
  | taken injected cloned restored seated => exact .taken injected cloned restored seated

variable (arch)

/-- A snapshot returns, whatever each of its calls answers, and leaves nothing
behind just when it was clean. -/
theorem forkSnapshot_asFound_iff (pid : Pid) (w : World ω) :
    ∃ r os', Run.exec (forkSnapshot arch pid) w = some (r, { w with os := os' }) ∧
      (AsFound arch pid w.os r.toOption os' ↔ Clean arch pid w.os) := by
  rcases exists_wayOut arch pid w.os with ⟨held, os', hway⟩
  rcases hway.exec with ⟨r, hexec, rfl⟩
  refine ⟨r, os', hexec, hway.clean, fun hclean => ?_⟩
  -- A clean snapshot has a way out of its own, but execution has one outcome.
  rcases hclean.exists_wayOut with ⟨held, os'', hway', hfound⟩
  rcases hway'.exec with ⟨r', hexec', rfl⟩
  rw [hexec] at hexec'
  rcases Prod.mk.inj (Option.some.inj hexec') with ⟨rfl, hworld⟩
  rcases World.mk.inj hworld with ⟨-, rfl⟩
  exact hfound

/-! ## A tracee that may fork -/

/-- A tracee held at a syscall boundary and, once it has forked, its child; `stop` is what
the next wait for the tracee reports. -/
structure Forking where
  regs : X86Regs
  child : Option X86Regs
  stop : WaitStatus
deriving DecidableEq, Repr

namespace Forking

/-- The pid of the tracee. -/
def tracee : Pid := 100

/-- The pid its child gets. -/
def newborn : Pid := 101

/-- Stepping over the `syscall` instruction: a `clone` makes a child that sees 0. -/
def step (os : Forking) : Forking :=
  let after := { os.regs with rip := os.regs.rip + 2, origRax := os.regs.rax }
  if os.regs.rax = Syscall.num .x86_64 .clone then
    { regs := { after with rax := 101 }
      child := some { after with rax := 0 }
      stop := .ptraceEvent tracee .trap EventCode.fork }
  else { os with regs := { after with rax := -38 }, stop := .stopped tracee .trap }

/-- The register files of the two. -/
def file (os : Forking) (pid : Pid) : Option X86Regs :=
  if pid = tracee then some os.regs else if pid = newborn then os.child else none

/-- A call on a live task. -/
def onTask {α : Type} (pid : Pid) (f : Forking → α × Forking) : Call Forking Errno α :=
  fun os => if (os.file pid).isSome then (.ok (f os).1, (f os).2) else (.error Errno.ESRCH, os)

/-- The registers of a task are written. -/
def write (pid : Pid) (regs : X86Regs) (os : Forking) : Forking :=
  if pid = tracee then { os with regs } else { os with child := some regs }

instance : Ptrace .x86_64 Forking where
  spawnTraced _ os := (.error ⟨11⟩, os)
  syscall pid _ := onTask pid fun os => ((), { os with stop := .ptraceSyscall tracee })
  step pid := onTask pid fun os => ((), os.step)
  kill pid := onTask pid fun os => ((), os)
  waitpid pid _ := onTask pid fun os =>
    (if pid = tracee then os.stop else .stopped newborn .stop, os)
  setoptions pid _ := onTask pid fun os => ((), os)
  getevent pid := onTask pid fun os => (newborn, os)
  getregs pid os :=
    match os.file pid with
    | some regs => (.ok regs, os)
    | none => (.error Errno.ESRCH, os)
  setregs pid regs := onTask pid fun os => ((), os.write pid regs)
  setSyscallNr _ _ os := (.error Errno.ESRCH, os)
  processVmReadv _ _ _ os := (.error Errno.EFAULT, os)
  processVmWritev _ _ _ os := (.error Errno.EFAULT, os)
  pokeUser _ _ _ os := (.error (), os)
  setHwWatch _ _ _ os := (.error (), os)
  getsiginfo _ os := (.error Errno.ESRCH, os)

/-- What a call answers: of a live task, or that there is none. -/
theorem onTask_inv {α : Type} {pid : Pid} {f : Forking → α × Forking} {os os' : Forking}
    {r : Except Errno α} (h : onTask pid f os = (r, os')) :
    ((os.file pid).isSome = true ∧ r = .ok (f os).1 ∧ os' = (f os).2) ∨
      (r = .error Errno.ESRCH ∧ os' = os) := by
  unfold onTask at h
  split at h
  · rename_i halive
    rcases Prod.mk.inj h with ⟨rfl, rfl⟩
    exact .inl ⟨halive, rfl, rfl⟩
  · rcases Prod.mk.inj h with ⟨rfl, rfl⟩
    exact .inr ⟨rfl, rfl⟩

/-- The registers that were written are those of the task. -/
theorem write_file (os : Forking) {pid : Pid} (regs : X86Regs)
    (halive : (os.file pid).isSome = true) (p : Pid) :
    (os.write pid regs).file p = if p = pid then some regs else os.file p := by
  unfold write
  by_cases htracee : pid = tracee
  · rw [if_pos htracee, htracee]
    by_cases hp : p = tracee
    · simp [file, hp]
    · simp [file, hp]
  · have hnewborn : pid = newborn := by
      by_contra hnone
      simp [file, htracee, hnone] at halive
    rw [if_neg htracee, hnewborn]
    by_cases hp : p = newborn
    · simp [file, hp, newborn, tracee]
    · simp [file, hp]

/-- Whatever is new is the child. -/
theorem file_onlyNew (os os' : Forking) : OnlyNew newborn os.file os'.file := by
  intro p hp halive
  by_contra hnewborn
  by_cases htracee : p = tracee
  · simp [file, htracee] at hp
  · exact halive (by simp [file, htracee, hnewborn])

/-- A call that leaves the child alone makes none. -/
theorem file_noneNew {os os' : Forking} (h : os'.child = os.child) :
    NoneNew os.file os'.file := by
  intro p hp
  unfold file at hp ⊢
  by_cases htracee : p = tracee
  · rw [if_pos htracee] at hp
    cases hp
  · rw [if_neg htracee] at hp ⊢
    rwa [h]

/-- A call that leaves the system as it was. -/
theorem onTask_same {α : Type} {pid : Pid} {f : Forking → α × Forking} {os os' : Forking}
    {r : Except Errno α} (hf : (f os).2 = os) (h : onTask pid f os = (r, os')) : os' = os := by
  rcases onTask_inv h with ⟨-, -, rfl⟩ | ⟨-, rfl⟩
  · exact hf
  · rfl

/-- The registers that were read are, too. -/
theorem getregs_inv {os os' : Forking} {pid : Pid} {r : Except Errno X86Regs}
    (h : @Ptrace.getregs .x86_64 _ _ pid os = (r, os')) :
    os' = os ∧ ∀ regs, r = .ok regs → os.file pid = some regs := by
  simp only [Ptrace.getregs] at h
  split at h
  · rename_i regs hregs
    rcases Prod.mk.inj h with ⟨rfl, rfl⟩
    refine ⟨rfl, fun regs' heq => ?_⟩
    rw [← Except.ok.inj heq, hregs]
  · rcases Prod.mk.inj h with ⟨rfl, rfl⟩
    exact ⟨rfl, fun regs heq => by cases heq⟩

theorem waitpid_same {os os' : Forking} {pid : Pid} {r : Except Errno WaitStatus}
    (h : Ptrace.waitpid .x86_64 pid .none os = (r, os')) : os' = os := onTask_same rfl h

instance : TaskFiles .x86_64 Forking where
  file := file
  getregs_ok h := (getregs_inv h).2 _ rfl
  getregs_settles h := by
    rw [(getregs_inv h).1]
    exact fun p => .inl rfl
  setregs_ok {os os' pid regs} h := by
    rcases onTask_inv h with ⟨halive, -, rfl⟩ | ⟨hr, -⟩
    · exact .inr ((write_file os regs halive pid).trans (if_pos rfl))
    · cases hr
  setregs_others {os os' pid p regs r} h hp := by
    rcases onTask_inv h with ⟨halive, -, rfl⟩ | ⟨-, rfl⟩
    · exact .inl ((write_file os regs halive p).trans (if_neg hp))
    · exact .inl rfl
  setregs_fails h := by
    rcases onTask_inv h with ⟨-, hr, -⟩ | ⟨-, rfl⟩
    · cases hr
    · exact fun p => .inl rfl
  setoptions_settles h := by
    rw [onTask_same rfl h]
    exact fun p => .inl rfl
  announced h := by
    rcases h with ⟨_, _, -, -, hevent⟩
    rcases onTask_inv hevent with ⟨-, hchild, -⟩ | ⟨hr, -⟩
    · rw [Except.ok.inj hchild]
      exact file_onlyNew _ _
    · cases hr
  first_stop _ hwait := file_noneNew (by rw [waitpid_same hwait])
  exit_stop _ hresumed hwait := by
    rcases onTask_inv hresumed with ⟨-, -, rfl⟩ | ⟨hr, -⟩
    · exact file_noneNew (by rw [waitpid_same hwait])
    · cases hr

/-- A tracee that has returned 7 from a `write`, and its session. -/
def boundary : World Forking where
  session :=
    { pid := tracee, cmdline := { program := "", args := [] }, records := [],
      multithreaded := false }
  os :=
    { regs := { rax := 7, origRax := 1, rdi := 1, rsi := 0x5000, rdx := 7, r10 := 0, r8 := 0,
                r9 := 0, rip := 0x401002, others := [] }
      child := none
      stop := .stopped tracee .trap }

end Forking

/-- The clone is granted: the snapshot is the child, with the registers the tracee has again,
and is all there is that was not. -/
theorem forkSnapshot_asFound_forked :
    ∃ os', Run.exec (forkSnapshot .x86_64 Forking.tracee) Forking.boundary =
        some (.ok Forking.newborn, { Forking.boundary with os := os' }) ∧
      os'.child = some Forking.boundary.os.regs ∧
      AsFound .x86_64 Forking.tracee Forking.boundary.os (some Forking.newborn) os' := by
  rcases forkSnapshot_asFound_iff .x86_64 Forking.tracee Forking.boundary with
    ⟨r, os', hexec, hfound⟩
  have hclean : Clean .x86_64 Forking.tracee Forking.boundary.os :=
    .taken ⟨_, rfl, rfl⟩
      ⟨_, _, ⟨_, _, ⟨_, _, rfl, ⟨_, rfl, rfl⟩, rfl⟩, ⟨_, rfl, rfl⟩, rfl⟩, rfl, ⟨_, rfl, rfl⟩⟩ rfl rfl
  obtain ⟨os'', hforked, hchild⟩ : ∃ os'' : Forking,
      Run.exec (forkSnapshot .x86_64 Forking.tracee) Forking.boundary =
        some (.ok Forking.newborn, { Forking.boundary with os := os'' }) ∧
      os''.child = some Forking.boundary.os.regs := ⟨_, rfl, rfl⟩
  rw [hforked] at hexec
  rcases Prod.mk.inj (Option.some.inj hexec) with ⟨rfl, hworld⟩
  rcases World.mk.inj hworld with ⟨-, rfl⟩
  exact ⟨_, hforked, hchild, hfound.mpr hclean⟩

/-! ## A tracee at the process limit -/

/-- A tracee held at a syscall boundary, whose user may have no more processes. -/
structure AtLimit where
  regs : X86Regs
deriving DecidableEq, Repr

namespace AtLimit

/-- The pid of the tracee. -/
def tracee : Pid := 100

/-- Stepping over the `syscall` instruction: a `clone` is refused with `EAGAIN`, and
nothing else is a syscall here. -/
def stepped (r : X86Regs) : X86Regs :=
  { r with
    rip := r.rip + 2
    origRax := r.rax
    rax :=
      if r.rax = Syscall.num .x86_64 .clone then -UInt64.ofNat Errno.EAGAIN.code else -38 }

/-- A call on the tracee; no other process can be asked for. -/
def onTracee {α : Type} (pid : Pid) (f : X86Regs → α × X86Regs) : Call AtLimit Errno α :=
  fun os =>
    if pid = tracee then (.ok (f os.regs).1, ⟨(f os.regs).2⟩) else (.error Errno.ESRCH, os)

instance : Ptrace .x86_64 AtLimit where
  spawnTraced _ os := (.error ⟨11⟩, os)
  syscall pid _ := onTracee pid fun r => ((), r)
  step pid := onTracee pid fun r => ((), stepped r)
  kill pid := onTracee pid fun r => ((), r)
  waitpid pid _ := onTracee pid fun r => (.stopped pid .trap, r)
  setoptions pid _ := onTracee pid fun r => ((), r)
  getevent _ os := (.error Errno.ESRCH, os)
  getregs pid := onTracee pid fun r => (r, r)
  setregs pid regs := onTracee pid fun _ => ((), regs)
  setSyscallNr _ _ os := (.error Errno.ESRCH, os)
  processVmReadv _ _ _ os := (.error Errno.EFAULT, os)
  processVmWritev _ _ _ os := (.error Errno.EFAULT, os)
  pokeUser _ _ _ os := (.error (), os)
  setHwWatch _ _ _ os := (.error (), os)
  getsiginfo _ os := (.error Errno.ESRCH, os)

/-- What a call answers: of the tracee, or that there is no such process. -/
theorem onTracee_inv {α : Type} {pid : Pid} {f : X86Regs → α × X86Regs} {os os' : AtLimit}
    {r : Except Errno α} (h : onTracee pid f os = (r, os')) :
    (pid = tracee ∧ r = .ok (f os.regs).1 ∧ os' = ⟨(f os.regs).2⟩) ∨
      (pid ≠ tracee ∧ r = .error Errno.ESRCH ∧ os' = os) := by
  unfold onTracee at h
  split at h
  · rename_i hpid
    rcases Prod.mk.inj h with ⟨rfl, rfl⟩
    exact .inl ⟨hpid, rfl, rfl⟩
  · rename_i hpid
    rcases Prod.mk.inj h with ⟨rfl, rfl⟩
    exact .inr ⟨hpid, rfl, rfl⟩

/-- The one register file. -/
def file (os : AtLimit) (pid : Pid) : Option X86Regs :=
  if pid = tracee then some os.regs else none

/-- No call makes a task. -/
theorem file_noneNew (os os' : AtLimit) : NoneNew os.file os'.file := by
  intro p hp
  unfold file at hp ⊢
  split at hp
  · cases hp
  · rename_i hpid
    rw [if_neg hpid]

instance : TaskFiles .x86_64 AtLimit where
  file := file
  getregs_ok h := by
    rcases onTracee_inv h with ⟨rfl, hr, -⟩ | ⟨-, hr, -⟩
    · rw [Except.ok.inj hr]
      rfl
    · cases hr
  getregs_settles h := by
    rcases onTracee_inv h with ⟨-, -, rfl⟩ | ⟨-, -, rfl⟩
    · exact fun p => .inl rfl
    · exact fun p => .inl rfl
  setregs_ok h := by
    rcases onTracee_inv h with ⟨rfl, -, rfl⟩ | ⟨-, hr, -⟩
    · exact .inr rfl
    · cases hr
  setregs_others {os os' pid p regs r} h hp := by
    rcases onTracee_inv h with ⟨rfl, -, rfl⟩ | ⟨-, -, rfl⟩
    · exact .inr (if_neg hp)
    · exact .inl rfl
  setregs_fails h := by
    rcases onTracee_inv h with ⟨-, hr, -⟩ | ⟨-, -, rfl⟩
    · cases hr
    · exact fun p => .inl rfl
  setoptions_settles h := by
    rcases onTracee_inv h with ⟨-, -, rfl⟩ | ⟨-, -, rfl⟩
    · exact fun p => .inl rfl
    · exact fun p => .inl rfl
  announced _ := (file_noneNew _ _).onlyNew _
  first_stop _ _ := file_noneNew _ _
  exit_stop _ _ _ := file_noneNew _ _

/-- A tracee that has returned 7 from a `write`, and its session. -/
def boundary : World AtLimit where
  session :=
    { pid := tracee, cmdline := { program := "", args := [] }, records := [],
      multithreaded := false }
  os := { regs := { rax := 7, origRax := 1, rdi := 1, rsi := 0x5000, rdx := 7, r10 := 0, r8 := 0,
                    r9 := 0, rip := 0x401002, others := [] } }

end AtLimit

/-- The clone is refused, and the tracee keeps its registers: the snapshot fails
without giving back those it had. -/
theorem forkSnapshot_at_limit :
    ∃ reason os', Run.exec (forkSnapshot .x86_64 AtLimit.tracee) AtLimit.boundary =
        some (.error (.checkpoint none reason), { AtLimit.boundary with os := os' }) ∧
      os'.regs.rdi = Regs.sigchld ∧
      ¬ AsFound .x86_64 AtLimit.tracee AtLimit.boundary.os none os' := by
  refine ⟨"expected a fork event after the injected clone syscall", _, rfl, rfl, fun h => ?_⟩
  -- The step is answered; the wait after it reports a plain stop and no fork event.
  have hastray : Astray .x86_64 AtLimit.tracee
      (⟨Regs.prepareFork .x86_64 AtLimit.boundary.os.regs⟩ : AtLimit) _ :=
    .forkStop rfl (.inr ⟨.stopped AtLimit.tracee .trap, rfl, rfl⟩)
  rcases h.registers with hsame | hdied | hfailed
  · exact absurd (congrArg X86Regs.rdi (Option.some.inj hsame)) (by decide)
  · cases hdied
  · exact Injected.not_restoreFailed ⟨_, rfl, rfl⟩ hastray hfailed

end Mirrorscope.Replay
