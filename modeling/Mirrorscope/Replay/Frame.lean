import Mirrorscope.Lib.Hoare
import Mirrorscope.Replay.Session

/-! # What the parts of a session leave alone

A call into the kernel never touches the session, and neither do the helpers
that only read or write the tracee; servicing a watchpoint hit touches the hit
list, the cached value and the cached unwinder only.

Every lemma here is of one form, `KeepsSession P m`: whatever `m` answers, a condition `P` that
does not look at the fields `m` writes holds after it if it held before.
* `IgnoresHits`, `IgnoresThreads`, `IgnoresRecords`, `IgnoresDriver`, `IgnoresWatch`: the
  fields a group of methods writes, as closure conditions on `P`.
* `perform_keeps`: what a restart and the driver keep, every call keeps.
* `onRecord_consumes`: one record of the multi-threaded driver, with the condition before and
  the one after it was consumed.
* `perform_fixed`: the command line, the records and the choice of the driver stay.
-/

namespace Mirrorscope.Replay

open Linux Run
open Trace (Record)

variable {ω α ε : Type}

/-- A condition on the session, as a condition on the whole state. -/
def On (P : ReplaySession → Prop) (w : World ω) : Prop := P w.session

/-- The method keeps a condition on the session, however it ends. -/
abbrev KeepsSession (P : ReplaySession → Prop) (m : Method ω α) : Prop := Keeps (On P) m

variable {P : ReplaySession → Prop}

/-- The kernel is asked through the system part of the state, which `On P` does not see. -/
theorem osOr_keeps {err : ε → ReplayError} {call : Call ω ε α} :
    KeepsSession P (osOr err call) := by
  intro w hw r w' hexec
  rcases exec_osOr_inv hexec with ⟨a, os', -, rfl, rfl⟩ | ⟨e, os', -, rfl, rfl⟩
  · exact hw
  · exact hw

theorem os_keeps {call : Call ω Errno α} : KeepsSession P (os call) := osOr_keeps

theorem self_spec {E : ReplayError → World ω → Prop} :
    Spec (On P) (self : Method ω ReplaySession) (fun s w => P s ∧ w.session = s) E := by
  intro w hw r w' hexec
  rcases Prod.mk.inj (Option.some.inj hexec) with ⟨rfl, rfl⟩
  exact ⟨hw, rfl⟩

theorem self_keeps : KeepsSession P (self : Method ω ReplaySession) := by
  intro w hw r w' hexec
  rcases Prod.mk.inj (Option.some.inj hexec) with ⟨rfl, rfl⟩
  exact hw

theorem modifySelf_spec {f : ReplaySession → ReplaySession} {P' : ReplaySession → Prop}
    {E : ReplayError → World ω → Prop} (h : ∀ s, P s → P' (f s)) :
    Spec (On P) (modifySelf f) (fun _ => On P') E := by
  intro w hw r w' hexec
  rcases Prod.mk.inj (Option.some.inj hexec) with ⟨rfl, rfl⟩
  exact h _ hw

theorem modifySelf_keeps {f : ReplaySession → ReplaySession} (h : ∀ s, P s → P (f s)) :
    KeepsSession P (modifySelf f : Method ω Unit) := modifySelf_spec h

/-- A result taken from a value: on success it is that value's. -/
theorem orFail_spec {err : ε → ReplayError} {x : Except ε α} {R : World ω → Prop}
    {E : ReplayError → World ω → Prop} (hE : ∀ e w, R w → E e w) :
    Spec R (orFail err x : Method ω α) (fun a w => x = .ok a ∧ R w) E := by
  cases x with
  | ok a => exact Spec.pure fun w hw => ⟨rfl, hw⟩
  | error e => exact Spec.fail fun w hw => hE _ w hw

/-- Going on with a result that is known to be there. -/
theorem orFail_bind {β : Type} {err : ε → ReplayError} {x : Except ε α} {f : α → Method ω β}
    {R : World ω → Prop} {Q : β → World ω → Prop} {E : ReplayError → World ω → Prop}
    (hE : ∀ e w, R w → E e w) (h : ∀ a, x = .ok a → Spec R (f a) Q E) :
    Spec R (do let a ← orFail err x; f a) Q E := by
  cases x with
  | ok a => exact Spec.bind (Spec.pure (Q := fun b w => b = a ∧ R w) fun w hw => ⟨rfl, hw⟩) fun b =>
      fun w hw => hw.1 ▸ h a rfl w hw.2
  | error e => exact Spec.bind (Q := fun _ _ => False) (Spec.fail fun w hw => hE _ w hw) fun _ _ hw =>
      hw.elim

theorem orFail_keeps {err : ε → ReplayError} {x : Except ε α} :
    KeepsSession P (orFail err x : Method ω α) := by
  cases x with
  | ok a => exact Keeps.pure
  | error e => exact Keeps.fail

/-- The failures of `m` are no divergences. -/
def NoDivergence (m : Method ω α) : Prop :=
  Spec (fun _ => True) m (fun _ _ => True) (fun e _ => ¬ e.IsDivergence)

namespace NoDivergence

variable {β : Type}

theorem bind {m : Method ω α} {f : α → Method ω β} (hm : NoDivergence m)
    (hf : ∀ a, NoDivergence (f a)) : NoDivergence (m >>= f) := Spec.bind hm hf

theorem pure {a : α} : NoDivergence (pure a : Method ω α) := Spec.pure fun _ _ => trivial

theorem self : NoDivergence (self : Method ω ReplaySession) :=
  Spec.bind (Spec.read fun _ _ => trivial) fun _ => pure

theorem modifySelf {f : ReplaySession → ReplaySession} :
    NoDivergence (modifySelf f : Method ω Unit) := Spec.update fun _ _ => trivial

theorem osOr {err : ε → ReplayError} {call : Call ω ε α} (h : ∀ e, ¬ (err e).IsDivergence) :
    NoDivergence (osOr err call) := by
  intro w _ r w' hexec
  rcases exec_osOr_inv hexec with ⟨a, os', -, rfl, rfl⟩ | ⟨e, os', -, rfl, rfl⟩
  · trivial
  · exact h e

theorem os {call : Call ω Errno α} : NoDivergence (os call) := osOr fun _ h => h

theorem orFail {err : ε → ReplayError} {x : Except ε α} (h : ∀ e, ¬ (err e).IsDivergence) :
    NoDivergence (orFail err x : Method ω α) := by
  cases x with
  | ok a => exact pure
  | error e => exact Spec.fail fun _ _ => h e

theorem attempt {m : Method ω α} : NoDivergence (Run.attempt m) := Spec.attempt (Spec.top m)

theorem forEach {f : α → Method ω Unit} (h : ∀ a, NoDivergence (f a)) (as : List α) :
    NoDivergence (forEach f as) := by
  induction as with
  | nil => exact pure
  | cons a as ih => exact bind (h a) fun _ => ih

end NoDivergence

variable (arch : Arch) [Ptrace arch ω]

theorem saveFull_keeps (pid : Pid) :
    KeepsSession P (Regs.saveFull arch pid : Method ω (FullRegs arch)) := os_keeps

theorem restoreFull_keeps (pid : Pid) (regs : FullRegs arch) :
    KeepsSession P (Regs.restoreFull arch pid regs : Method ω Unit) := os_keeps

theorem read_keeps (pid : Pid) : KeepsSession P (Regs.read arch pid : Method ω Registers) :=
  Keeps.bind (saveFull_keeps arch pid) fun _ => Keeps.pure

/-- On x86-64 the number is overwritten in the registers, on arm64 by a call of its own. -/
theorem suppressSyscall_keeps (pid : Pid) :
    KeepsSession P (Regs.suppressSyscall arch pid : Method ω Unit) := by
  unfold Regs.suppressSyscall
  split
  · exact Keeps.bind (saveFull_keeps _ pid) fun regs => restoreFull_keeps _ pid _
  · exact os_keeps

theorem setReturn_keeps (pid : Pid) (ret : Int64) :
    KeepsSession P (Regs.setReturn arch pid ret : Method ω Unit) :=
  Keeps.bind (saveFull_keeps arch pid) fun _ => restoreFull_keeps arch pid _

theorem writeMemory_keeps (pid : Pid) (addr : UInt64) (data : Bytes) :
    KeepsSession P (writeMemory arch pid addr data : Method ω Unit) := by
  unfold writeMemory
  split
  · exact Keeps.pure
  · apply Keeps.bind osOr_keeps
    intro written
    split
    · exact Keeps.fail
    · exact Keeps.pure

theorem readMemory_keeps (pid : Pid) (addr : UInt64) (len : Nat) :
    KeepsSession P (readMemory arch pid addr len : Method ω Bytes) :=
  Keeps.bind osOr_keeps fun _ => Keeps.pure

/-! ## Watchpoints -/

/-- The two architectures write different registers, both outside the session. -/
theorem arm_keeps (pid : Pid) (addr : UInt64) (len : UInt8) (kind : WatchKind) :
    KeepsSession P (WatchHw.arm arch pid addr len kind : Method ω Unit) := by
  unfold WatchHw.arm
  split
  · apply Keeps.bind orFail_keeps
    intro dr7
    exact Keeps.bind osOr_keeps fun _ => osOr_keeps
  · apply Keeps.bind orFail_keeps
    intro control
    exact osOr_keeps

theorem disarm_keeps (pid : Pid) : KeepsSession P (WatchHw.disarm arch pid : Method ω Unit) := by
  unfold WatchHw.disarm
  split
  · exact osOr_keeps
  · exact osOr_keeps

theorem isWatchHit_keeps (pid : Pid) : KeepsSession P (isWatchHit arch pid : Method ω Bool) := by
  apply Keeps.bind self_keeps
  intro s
  split
  · exact Keeps.pure
  · exact Keeps.bind os_keeps fun _ => Keeps.pure

/-- Stepping over a hit reads the armed watchpoint and leaves it as it is. -/
theorem stepOverWatch_keeps (pid : Pid) :
    KeepsSession P (stepOverWatch arch pid : Method ω Unit) := by
  unfold stepOverWatch
  split
  · exact osOr_keeps
  · apply Keeps.bind self_keeps
    intro s
    split
    · exact Keeps.pure
    · apply Keeps.bind (disarm_keeps _ pid)
      intro _
      apply Keeps.bind os_keeps
      intro _
      apply Keeps.bind os_keeps
      intro status
      split
      · exact arm_keeps _ _ _ _ _
      · exact Keeps.fail

/-- A condition that does not look at what a watchpoint hit changes. -/
structure IgnoresHits (P : ReplaySession → Prop) : Prop where
  unwinder : ∀ s u, P s → P { s with unwinder := u }
  hits : ∀ s v hs, P s → P { s with lastValue := v, watchHits := hs }

variable [Unwind ω]

omit [Ptrace arch ω] in
/-- A backtrace may leave a freshly loaded unwinder behind. -/
theorem captureBacktrace_keeps (h : IgnoresHits P) (pid : Pid) :
    KeepsSession P (captureBacktrace pid : Method ω (UInt64 × List SymbolizedFrame)) := by
  apply Keeps.bind self_keeps
  intro s
  -- The unwinder is taken out of its slot before it is used and put back after.
  apply Keeps.bind (modifySelf_keeps fun s hs => h.unwinder s none hs)
  intro _
  have hload : KeepsSession P (unwinderFor pid s.unwinder : Method ω RemoteUnwinder) := by
    cases s.unwinder with
    | some u => exact Keeps.pure
    | none => exact Keeps.bind osOr_keeps fun _ => Keeps.pure
  apply Keeps.bind hload
  intro u
  apply Keeps.bind osOr_keeps
  intro pc
  apply Keeps.bind osOr_keeps
  intro frames
  exact Keeps.bind (modifySelf_keeps fun s hs => h.unwinder s (some u) hs) fun _ => Keeps.pure

/-- Servicing a hit changes the unwinder, the cached value and the list of hits. -/
theorem onWatchHit_keeps (h : IgnoresHits P) (pid : Pid) :
    KeepsSession P (onWatchHit arch pid : Method ω Unit) := by
  apply Keeps.bind self_keeps
  intro s
  split
  · exact Keeps.pure
  · apply Keeps.bind (captureBacktrace_keeps h pid)
    rintro ⟨pc, backtrace⟩
    apply Keeps.bind (stepOverWatch_keeps arch pid)
    intro _
    apply Keeps.bind (readMemory_keeps arch pid _ _)
    intro value
    exact modifySelf_keeps fun s hs => h.hits s _ _ hs

/-! ## Stepping a thread -/

/-- A round resumes the thread, waits for it, and services a hit it stopped on. -/
theorem stepRound_keeps (h : IgnoresHits P) (live : Pid) (sig : Option Signal) :
    KeepsSession P (Mt.stepRound arch live sig : Method ω (Option WaitStatus)) := by
  apply Keeps.bind os_keeps
  intro _
  apply Keeps.bind os_keeps
  intro status
  split
  · split
    · exact Keeps.pure
    · exact Keeps.pure
  · apply Keeps.bind (isWatchHit_keeps arch live)
    intro hit
    split
    · exact Keeps.bind (onWatchHit_keeps arch h live) fun _ => Keeps.pure
    · exact Keeps.pure
  · exact Keeps.pure

theorem stepThread_keeps (h : IgnoresHits P) (live : Pid) (sig : Option Signal) :
    KeepsSession P (Mt.stepThread arch live sig : Method ω WaitStatus) := by
  apply Keeps.bind (stepRound_keeps arch h live sig)
  intro status
  split
  · exact Keeps.pure
  · exact Keeps.loop (stepRound_keeps arch h live none)

omit [Unwind ω] in
theorem injectResult_keeps (live : Pid) (pending : PendingSys) (exit : Capture.SyscallExit) :
    KeepsSession P (Mt.injectResult arch live pending exit : Method ω Unit) := by
  apply Keeps.when
  split
  · exact Keeps.bind (writeMemory_keeps arch live _ _) fun _ => setReturn_keeps arch live _
  · exact setReturn_keeps arch live _

omit [Unwind ω] in
theorem registerChild_keeps (child : Pid) (seq : UInt64) :
    KeepsSession P (Mt.registerChild arch child seq : Method ω Unit) := by
  apply Keeps.bind os_keeps
  intro status
  split
  · exact os_keeps
  · exact os_keeps
  · exact Keeps.fail

omit [Unwind ω] in
theorem armChild_keeps (child : Pid) : KeepsSession P (Mt.armChild arch child : Method ω Unit) := by
  apply Keeps.bind self_keeps
  intro s
  split
  · exact arm_keeps arch _ _ _ _
  · exact Keeps.pure

/-! ## Snapshots and fresh tracees -/

omit [Unwind ω] in
/-- The injected clone, its stops and the two restores are all the kernel's. -/
theorem forkSnapshot_keeps (pid : Pid) :
    KeepsSession P (forkSnapshot arch pid : Method ω Pid) := by
  apply Keeps.bind (saveFull_keeps arch pid)
  intro saved
  apply Keeps.bind (restoreFull_keeps arch pid _)
  intro _
  apply Keeps.bind os_keeps
  intro _
  -- The parts of the snapshot touch the system alone, whatever they answer.
  have hwait : KeepsSession P (waitForForkChild arch pid : Method ω Pid) := by
    apply Keeps.bind os_keeps
    intro status
    split
    · split
      · exact os_keeps
      · exact Keeps.fail
    · exact Keeps.fail
  apply Keeps.bind hwait
  intro child
  have hreap : KeepsSession P (reapForkChild arch child : Method ω Unit) := by
    apply Keeps.bind os_keeps
    intro status
    split
    · exact Keeps.pure
    · exact Keeps.pure
    · exact Keeps.fail
  apply Keeps.bind hreap
  intro _
  apply Keeps.bind os_keeps
  intro _
  have hexit : KeepsSession P (reapCloneExit arch pid : Method ω Unit) := by
    apply Keeps.bind os_keeps
    intro _
    apply Keeps.bind os_keeps
    intro status
    split
    · exact Keeps.pure
    · exact Keeps.fail
  apply Keeps.bind hexit
  intro _
  apply Keeps.bind (restoreFull_keeps arch pid saved)
  intro _
  exact Keeps.bind (restoreFull_keeps arch child saved) fun _ => Keeps.pure

omit [Unwind ω] in
theorem killActive_keeps : KeepsSession P (killActive arch : Method ω Unit) := by
  apply Keeps.bind self_keeps
  intro s
  split
  · exact Keeps.pure
  · exact Keeps.bind (Keeps.attempt os_keeps) fun _ => Keeps.attempt os_keeps

omit [Unwind ω] in
theorem spawnStopped_keeps (cmdline : Trace.Cmdline) :
    KeepsSession P (spawnStopped arch cmdline : Method ω Pid) := by
  apply Keeps.bind osOr_keeps
  intro pid
  apply Keeps.bind os_keeps
  intro _
  exact Keeps.bind os_keeps fun _ => Keeps.pure

omit [Unwind ω] in
/-- A launched session: as it was made, on its own process. -/
theorem launch_session {s : ReplaySession} {os : ω} {w : World ω}
    (h : exec (launch arch) ⟨s, os⟩ = some (.ok (), w)) : ∃ pid, w.session = { s with pid } := by
  have hspec : Spec (On fun t => t = s) (launch arch : Method ω Unit)
      (fun _ => On fun t => ∃ pid, t = { s with pid }) (fun _ _ => True) := by
    apply Spec.bind self_spec
    intro t
    apply Spec.bind (Q := fun _ => On fun t => t = s)
    · apply (spawnStopped_keeps arch t.cmdline).mono _ (fun _ _ h => h) (fun _ _ _ => trivial)
      rintro w ⟨ht, rfl⟩
      exact ht
    · intro pid
      apply modifySelf_spec
      rintro t rfl
      exact ⟨pid, rfl⟩
  exact hspec.ok (s := ⟨s, os⟩) rfl h

omit [Unwind ω] in
/-- A fresh process loses the unwinder of the old one. -/
theorem rearmWatchpoint_keeps (h : ∀ s u, P s → P { s with unwinder := u }) :
    KeepsSession P (rearmWatchpoint arch : Method ω Unit) := by
  apply Keeps.bind (modifySelf_keeps fun s hs => h s none hs)
  intro _
  -- What is armed again is read from the session as it now is.
  apply Keeps.bind self_keeps
  intro s
  split
  · exact arm_keeps arch _ _ _ _
  · exact Keeps.pure

omit [Unwind ω] in
theorem forEach_keeps {β : Type} {f : β → Method ω Unit} (h : ∀ b, KeepsSession P (f b))
    (bs : List β) : KeepsSession P (forEach f bs) := by
  induction bs with
  | nil => exact Keeps.pure
  | cons b bs ih => exact Keeps.bind (h b) fun _ => ih

/-! ## Calls -/

/-- A condition that looks neither at the watchpoint nor at the interval. -/
structure IgnoresWatch (P : ReplaySession → Prop) : Prop extends IgnoresHits P where
  watchpoint : ∀ s wp, P s → P { s with watchpoint := wp }
  interval : ∀ s n, P s → P { s with checkpointInterval := n }

/-- A condition that the driver and a restart keep, every call keeps. -/
theorem perform_keeps (h : IgnoresWatch P)
    (hrestart : ∀ s seq, Spec (fun w => P s ∧ w.session = s)
      (restart arch (planStart s seq) : Method ω Unit) (fun _ => On P) (fun _ => On P))
    (hdrive : ∀ stopAt, KeepsSession P (drive arch stopAt : Method ω ExitOutcome))
    (c : SessionCall) : KeepsSession P (perform arch c : Method ω (Option ExitOutcome)) := by
  -- Four of the calls restart or drive; the others write fields the predicate ignores.
  cases c with
  | runTo seq =>
    refine Keeps.bind ?_ fun _ => Keeps.pure
    apply Spec.bind self_spec
    intro s
    apply Spec.bind (Q := fun _ => On P)
    · apply Spec.when
      · exact fun _ => hrestart s seq
      · rintro _ w ⟨hs, rfl⟩
        exact hs
    · intro _
      exact hdrive (some seq)
  | stepTo seq => exact Keeps.bind (hdrive (some seq)) fun _ => Keeps.pure
  | runToEnd => exact Keeps.bind (hdrive none) fun _ => Keeps.pure
  | restoreTo seq =>
    refine Keeps.bind ?_ fun _ => Keeps.pure
    exact Spec.bind self_spec fun s => hrestart s seq
  | checkpointInterval interval =>
    exact Keeps.bind (modifySelf_keeps fun s hs => h.interval s interval hs) fun _ => Keeps.pure
  | watch addr len kind =>
    refine Keeps.bind ?_ fun _ => Keeps.pure
    apply Keeps.bind orFail_keeps
    intro _
    apply Keeps.bind self_keeps
    intro s
    apply Keeps.bind (forEach_keeps (fun live => arm_keeps arch live addr len kind) _)
    intro _
    apply Keeps.bind (readMemory_keeps arch s.pid addr len.toNat)
    intro value
    exact modifySelf_keeps fun s hs => h.watchpoint _ _ (h.hits s (some value) s.watchHits hs)
  | clearWatch =>
    refine Keeps.bind ?_ fun _ => Keeps.pure
    apply Keeps.bind self_keeps
    intro s
    apply Keeps.bind (modifySelf_keeps fun s hs => h.watchpoint s none hs)
    intro _
    apply Keeps.bind (Keeps.when (forEach_keeps (disarm_keeps arch) _))
    intro _
    exact modifySelf_keeps fun s hs => h.hits s none s.watchHits hs
  | takeWatchHits =>
    refine Keeps.bind ?_ fun _ => Keeps.pure
    apply Keeps.bind self_keeps
    intro s
    apply Keeps.bind (modifySelf_keeps fun s hs => h.hits s s.lastValue [] hs)
    intro _
    exact Keeps.pure

/-! ## The multi-threaded driver

Until it consumes the record, a handler changes the thread state and the last
registers only; consuming the record is the last thing it does.
-/

omit [Ptrace arch ω] [Unwind ω] in
theorem state_keeps : KeepsSession P (Mt.state : Method ω MtState) := by
  apply Keeps.bind self_keeps
  intro s
  split
  · exact Keeps.pure
  · exact Keeps.never

/-- A condition that does not look at what a handler changes on its way. -/
structure IgnoresThreads (P : ReplaySession → Prop) : Prop extends IgnoresHits P where
  mt : ∀ s mt, P s → P { s with mt }
  lastRegs : ∀ s regs, P s → P { s with lastRegs := regs }

/-- The session after the record at the cursor was consumed. -/
def ReplaySession.consume (s : ReplaySession) (seq : UInt64) : ReplaySession :=
  { s with currentSeq := some seq, cursor := s.cursor + 1 }

section Threads

variable (h : IgnoresThreads P) {Q Q' : ReplaySession → Prop} {record : Record}
  (hconsume : ∀ s, P s → Q (s.consume record.seq))
include h

omit [Ptrace arch ω] [Unwind ω] in
theorem modifyState_keeps (f : MtState → MtState) :
    KeepsSession P (Mt.modifyState f : Method ω Unit) :=
  Keeps.bind state_keeps fun _ => modifySelf_keeps fun s hs => h.mt s _ hs

omit [Ptrace arch ω] [Unwind ω] in
theorem IgnoresThreads.takeResumeSignal (live : Pid) :
    KeepsSession P (Mt.takeResumeSignal live : Method ω (Option Signal)) :=
  Keeps.bind state_keeps fun _ => Keeps.bind (modifyState_keeps h _) fun _ => Keeps.pure

omit [Ptrace arch ω] [Unwind ω] in
theorem IgnoresThreads.takePending (live : Pid) :
    KeepsSession P (Mt.takePending live : Method ω (Option PendingSys)) :=
  Keeps.bind state_keeps fun _ => Keeps.bind (modifyState_keeps h _) fun _ => Keeps.pure

omit [Ptrace arch ω] [Unwind ω] in
theorem IgnoresThreads.enforceTid (record : Record) :
    KeepsSession P (Mt.enforceTid record : Method ω UInt32) := by
  unfold Mt.enforceTid
  split
  · exact Keeps.fail
  · apply Keeps.bind state_keeps
    intro mt
    split
    · exact Keeps.bind (modifyState_keeps h _) fun _ => Keeps.pure
    · split
      · exact Keeps.pure
      · exact Keeps.fail

omit [Ptrace arch ω] [Unwind ω] in
theorem IgnoresThreads.liveFor (tid : UInt32) (seq : UInt64) :
    KeepsSession P (Mt.liveFor tid seq : Method ω Pid) := by
  apply Keeps.bind state_keeps
  intro mt
  split
  · exact Keeps.pure
  · split
    · apply Keeps.bind orFail_keeps
      intro tidmap
      exact Keeps.bind (modifyState_keeps h _) fun _ => Keeps.pure
    · exact Keeps.fail

omit [Ptrace arch ω] [Unwind ω] in
/-- Every handler of a thread's record starts by finding the thread. -/
theorem IgnoresThreads.atThread {α : Type} {seq : UInt64} {f : UInt32 → Pid → Method ω α}
    {Q : α → World ω → Prop}
    (hf : ∀ tid live, Spec (On P) (f tid live) Q (fun _ => On P)) :
    Spec (On P) (do
      let tid ← Mt.enforceTid record
      let live ← Mt.liveFor tid seq
      f tid live) Q (fun _ => On P) := by
  apply Spec.bind (h.enforceTid record)
  intro tid
  apply Spec.bind (h.liveFor tid seq)
  intro live
  exact hf tid live

omit [Ptrace arch ω] [Unwind ω] in
theorem IgnoresThreads.bindChild (seq : UInt64) (childTid : UInt32) (child parent : Pid)
    (vforked : Bool) :
    KeepsSession P (Mt.bindChild seq childTid child parent vforked : Method ω Unit) :=
  Keeps.bind state_keeps fun _ => Keeps.bind orFail_keeps fun _ => modifyState_keeps h _

include hconsume

omit [Ptrace arch ω] [Unwind ω] h in
theorem advance_consumes {E : ReplayError → World ω → Prop} :
    Spec (On P) (Mt.advance record.seq : Method ω Unit) (fun _ => On Q) E :=
  modifySelf_spec hconsume

omit [Ptrace arch ω] [Unwind ω] in
theorem onSchedSwitch_consumes :
    Spec (On P) (Mt.onSchedSwitch record : Method ω Unit) (fun _ => On Q) (fun _ => On P) := by
  apply Spec.bind orFail_keeps
  intro switch
  exact Spec.bind (modifyState_keeps h _) fun _ => advance_consumes hconsume

/-- The pending call is noted in the thread state, which `P` ignores, before the record is
consumed. -/
theorem onSyscallEnter_consumes :
    Spec (On P) (Mt.onSyscallEnter arch record : Method ω Unit) (fun _ => On Q)
      (fun _ => On P) := by
  apply h.atThread
  intro tid live
  apply Spec.bind (h.takeResumeSignal live)
  intro sig
  apply Spec.bind (stepThread_keeps arch h.toIgnoresHits live sig)
  intro status
  split
  · apply Spec.bind (read_keeps arch live)
    intro regs
    refine Spec.bind (modifySelf_keeps fun s hs => h.lastRegs s (some regs) hs) fun _ => ?_
    apply Spec.bind orFail_keeps
    intro enter
    split
    · exact Spec.fail fun _ hs => hs
    · apply Spec.bind (Keeps.when (suppressSyscall_keeps arch live))
      intro _
      exact Spec.bind (modifyState_keeps h _) fun _ => advance_consumes hconsume
  · exact Spec.fail fun _ hs => hs

theorem onSyscallExit_consumes :
    Spec (On P) (Mt.onSyscallExit arch record : Method ω Unit) (fun _ => On Q)
      (fun _ => On P) := by
  apply h.atThread
  intro tid live
  apply Spec.bind (stepThread_keeps arch h.toIgnoresHits live none)
  intro status
  split
  · apply Spec.bind (read_keeps arch live)
    intro regs
    refine Spec.bind (modifySelf_keeps fun s hs => h.lastRegs s (some regs) hs) fun _ => ?_
    apply Spec.bind orFail_keeps
    intro exit
    apply Spec.bind (h.takePending live)
    intro pending
    split
    · exact Spec.fail fun _ hs => hs
    · exact Spec.bind (injectResult_keeps arch live _ _) fun _ => advance_consumes hconsume
  · exact Spec.fail fun _ hs => hs

/-- The child is registered, bound to its recorded id and armed before the record is consumed. -/
theorem onThreadSpawn_consumes :
    Spec (On P) (Mt.onThreadSpawn arch record : Method ω Unit) (fun _ => On Q)
      (fun _ => On P) := by
  apply h.atThread
  intro tid parent
  apply Spec.bind orFail_keeps
  intro spawn
  apply Spec.bind (h.takeResumeSignal parent)
  intro sig
  apply Spec.bind (stepThread_keeps arch h.toIgnoresHits parent sig)
  intro status
  split
  · split
    · apply Spec.bind os_keeps
      intro child
      apply Spec.bind (registerChild_keeps arch child record.seq)
      intro _
      apply Spec.bind (h.bindChild record.seq spawn.childTid child parent _)
      intro _
      exact Spec.bind (armChild_keeps arch child) fun _ => advance_consumes hconsume
    · exact Spec.fail fun _ hs => hs
  · exact Spec.fail fun _ hs => hs

theorem onSignal_consumes :
    Spec (On P) (Mt.onSignal arch record : Method ω Unit) (fun _ => On Q) (fun _ => On P) := by
  apply h.atThread
  intro tid live
  apply Spec.bind (h.takeResumeSignal live)
  intro sig
  apply Spec.bind (stepThread_keeps arch h.toIgnoresHits live sig)
  intro status
  split
  · apply Spec.bind orFail_keeps
    intro recorded
    split
    · exact Spec.fail fun _ hs => hs
    · exact Spec.bind (modifyState_keeps h _) fun _ => advance_consumes hconsume
  · exact Spec.fail fun _ hs => hs

/-- The exit of the leader also ends the session. -/
theorem onThreadExit_consumes
    (hfinish : ∀ s outcome, Q s → Q' { s with finished := some outcome }) :
    Spec (On P) (Mt.onThreadExit arch record : Method ω (Option ExitOutcome))
      (Round (On Q) fun _ => On Q') (fun _ => On P) := by
  apply h.atThread
  intro tid live
  apply Spec.bind (h.takeResumeSignal live)
  intro sig
  apply Spec.bind (stepThread_keeps arch h.toIgnoresHits live sig)
  intro status
  split
  · exact Spec.fail fun _ hs => hs
  · apply Spec.bind state_keeps
    intro mt
    apply Spec.bind (modifyState_keeps h _)
    intro _
    apply Spec.bind (advance_consumes hconsume)
    intro _
    split
    · refine Spec.bind (modifySelf_spec fun s hs => hfinish s _ hs) fun _ => ?_
      exact Spec.pure fun _ hs => hs
    · exact Spec.pure fun _ hs => hs

omit hconsume in
/-- A record is consumed, or it is a checkpoint and passed, or the handler fails. -/
theorem onRecord_consumes
    (hconsume : record.event.kind ≠ .checkpoint → ∀ s, P s → Q (s.consume record.seq))
    (hpass : record.event.kind = .checkpoint → ∀ s, P s → Q { s with cursor := s.cursor + 1 })
    (hfinish : ∀ s outcome, Q s → Q' { s with finished := some outcome }) :
    Spec (On P) (Mt.onRecord arch record : Method ω (Option ExitOutcome))
      (Round (On Q) fun _ => On Q') (fun _ => On P) := by
  have hnone {m : Method ω Unit} (hm : Spec (On P) m (fun _ => On Q) (fun _ => On P)) :
      Spec (On P) (do m; pure (none : Option ExitOutcome)) (Round (On Q) fun _ => On Q')
        (fun _ => On P) :=
    Spec.bind hm fun _ => Spec.pure fun _ hs => hs
  -- One case for each handler; only the first passes a record without consuming it.
  unfold Mt.onRecord
  split
  · rename_i hkind
    exact hnone (modifySelf_spec (hpass hkind))
  · rename_i hkind
    exact hnone (onSchedSwitch_consumes h (hconsume (by simp [hkind])))
  · rename_i hkind
    exact hnone (onSyscallEnter_consumes arch h (hconsume (by simp [hkind])))
  · rename_i hkind
    exact hnone (onSyscallExit_consumes arch h (hconsume (by simp [hkind])))
  · rename_i hkind
    exact hnone (onThreadSpawn_consumes arch h (hconsume (by simp [hkind])))
  · rename_i hkind
    exact onThreadExit_consumes arch h (hconsume (by simp [hkind])) hfinish
  · rename_i hkind
    exact hnone (onSignal_consumes arch h (hconsume (by simp [hkind])))
  · exact Spec.fail fun _ hs => hs

end Threads

/-! ## Consuming records -/

/-- A condition that does not look at which records were consumed, or what signal is
queued. -/
structure IgnoresRecords (P : ReplaySession → Prop) : Prop extends IgnoresHits P where
  consume : ∀ s cursor currentSeq resumeSignal, P s →
    P { s with cursor, currentSeq, resumeSignal }

section Records

variable (h : IgnoresRecords P)
include h

omit [Ptrace arch ω] [Unwind ω] in
theorem IgnoresRecords.skipCheckpoints : KeepsSession P (skipCheckpoints : Method ω Unit) :=
  modifySelf_keeps fun s => h.consume s _ _ _

omit [Ptrace arch ω] [Unwind ω] in
theorem IgnoresRecords.nextRecord : KeepsSession P (nextRecord : Method ω Record) := by
  apply Keeps.bind h.skipCheckpoints
  intro _
  apply Keeps.bind self_keeps
  intro s
  split
  · exact Keeps.fail
  · exact Keeps.bind (modifySelf_keeps fun s => h.consume s _ _ _) fun _ => Keeps.pure

omit [Unwind ω] in
/-- The exit record is consumed before its effects are written to the tracee. -/
theorem IgnoresRecords.onExit (pending : Pending) :
    KeepsSession P (onExit arch pending : Method ω Unit) := by
  apply Keeps.bind h.nextRecord
  intro record
  split
  · apply Keeps.bind orFail_keeps
    intro exit
    refine Keeps.bind (modifySelf_keeps fun s => h.consume s _ _ _) fun _ => ?_
    split
    · apply Keeps.bind self_keeps
      intro s
      exact Keeps.bind (writeMemory_keeps arch s.pid _ _) fun _ => setReturn_keeps arch s.pid _
    · exact Keeps.pure
  · exact Keeps.fail

omit [Ptrace arch ω] [Unwind ω] in
/-- Whether or not the next record is this signal, the signal is queued for the resumption. -/
theorem IgnoresRecords.onSignalStop (signal : Signal) :
    KeepsSession P (onSignalStop signal : Method ω Unit) := by
  have hmatch : KeepsSession P (matchSignal signal : Method ω Unit) := by
    apply Keeps.bind self_keeps
    intro s
    split
    · split
      · apply Keeps.bind orFail_keeps
        intro recorded
        split
        · exact Keeps.fail
        · exact modifySelf_keeps fun s => h.consume s _ _ _
      · exact Keeps.pure
    · exact Keeps.pure
  apply Keeps.bind h.skipCheckpoints
  intro _
  exact Keeps.bind hmatch fun _ => modifySelf_keeps fun s => h.consume s _ _ _

theorem IgnoresRecords.onStopped (pid : Pid) (signal : Signal) :
    KeepsSession P (onStopped arch pid signal : Method ω Unit) := by
  unfold Replay.onStopped
  split
  · apply Keeps.bind (isWatchHit_keeps arch pid)
    intro hit
    split
    · exact onWatchHit_keeps arch h.toIgnoresHits pid
    · exact h.onSignalStop signal
  · exact h.onSignalStop signal

end Records

/-! ## The single-tracee driver -/

/-- A condition that does not look at where the single-tracee driver is in the trace. -/
structure IgnoresDriver (P : ReplaySession → Prop) : Prop extends IgnoresHits P where
  place : ∀ s cursor currentSeq pending resumeSignal lastRegs, P s →
    P { s with cursor, currentSeq, pending, resumeSignal, lastRegs }

section Driver

variable (h : IgnoresDriver P)
include h

theorem IgnoresDriver.ignoresRecords : IgnoresRecords P where
  toIgnoresHits := h.toIgnoresHits
  consume s _ _ _ := h.place s _ _ s.pending _ s.lastRegs

omit [Unwind ω] in
theorem IgnoresDriver.onEntry (regs : Registers) :
    KeepsSession P (onEntry arch regs : Method ω Unit) := by
  apply Keeps.bind h.ignoresRecords.nextRecord
  intro record
  split
  · apply Keeps.bind orFail_keeps
    intro enter
    split
    · exact Keeps.fail
    · refine Keeps.bind (modifySelf_keeps fun s => h.place s _ _ _ _ _) fun _ => ?_
      apply Keeps.bind self_keeps
      intro s
      apply Keeps.bind (Keeps.when (suppressSyscall_keeps arch s.pid))
      intro _
      exact modifySelf_keeps fun s => h.place s _ _ _ _ _
  · exact Keeps.fail

omit [Unwind ω] in
/-- Which half of the call the stop is, the pending call says. -/
theorem IgnoresDriver.onSyscallStop : KeepsSession P (onSyscallStop arch : Method ω Unit) := by
  apply Keeps.bind self_keeps
  intro s
  apply Keeps.bind (read_keeps arch s.pid)
  intro regs
  refine Keeps.bind (modifySelf_keeps fun s => h.place s _ _ _ _ _) fun _ => ?_
  split
  · exact h.onEntry arch regs
  · exact h.ignoresRecords.onExit arch _

omit [Unwind ω] h in
/-- Four guards stand before the snapshot; behind them only the list of checkpoints grows. -/
theorem maybeCheckpoint_keeps (hcheckpoints : ∀ s cs, P s → P { s with checkpoints := cs }) :
    KeepsSession P (maybeCheckpoint arch : Method ω Unit) := by
  apply Keeps.bind self_keeps
  intro s
  split
  · exact Keeps.pure
  split
  · exact Keeps.pure
  split
  · exact Keeps.pure
  split
  · exact Keeps.pure
  · exact Keeps.bind (forkSnapshot_keeps arch s.pid) fun _ =>
      modifySelf_keeps fun s => hcheckpoints s _

/-- A round of the single-tracee driver, of either kind of stop or an exit. -/
theorem IgnoresDriver.driveRound (hcheckpoints : ∀ s cs, P s → P { s with checkpoints := cs })
    (hfinished : ∀ s outcome, P s → P { s with finished := outcome }) (stopAt : Option UInt64) :
    KeepsSession P (driveRound arch stopAt : Method ω (Option ExitOutcome)) := by
  have hfinish (outcome : ExitOutcome) :
      KeepsSession P (finish outcome : Method ω (Option ExitOutcome)) :=
    Keeps.bind (modifySelf_keeps fun s => hfinished s _) fun _ => Keeps.pure
  apply Keeps.bind self_keeps
  intro s
  split
  · exact Keeps.pure
  · refine Keeps.bind (modifySelf_keeps fun s => h.place s _ _ _ _ _) fun _ => ?_
    apply Keeps.bind os_keeps
    intro _
    apply Keeps.bind os_keeps
    intro status
    -- A system call stop, a signal, the two exits, and the stops that are passed over.
    unfold onStatus
    split
    · apply Keeps.bind (h.onSyscallStop arch)
      intro _
      exact Keeps.bind (maybeCheckpoint_keeps arch hcheckpoints) fun _ => Keeps.pure
    · exact Keeps.bind (h.ignoresRecords.onStopped arch s.pid _) fun _ => Keeps.pure
    · exact hfinish _
    · exact hfinish _
    · exact Keeps.pure

end Driver

/-! ## What never changes

The command line, the records and the choice of the driver are set at launch.
-/

/-- A condition on what is set at launch only. -/
def Fixed (P : ReplaySession → Prop) : Prop :=
  ∀ s s' : ReplaySession, s'.cmdline = s.cmdline → s'.records = s.records →
    s'.multithreaded = s.multithreaded → P s → P s'

theorem Fixed.ignoresThreads (h : Fixed P) : IgnoresThreads P where
  unwinder s _ := h s _ rfl rfl rfl
  hits s _ _ := h s _ rfl rfl rfl
  mt s _ := h s _ rfl rfl rfl
  lastRegs s _ := h s _ rfl rfl rfl

theorem Fixed.ignoresDriver (h : Fixed P) : IgnoresDriver P where
  unwinder s _ := h s _ rfl rfl rfl
  hits s _ _ := h s _ rfl rfl rfl
  place s _ _ _ _ _ := h s _ rfl rfl rfl

section Fixed

variable (h : Fixed P)
include h

omit [Ptrace arch ω] [Unwind ω] in
theorem Fixed.modifySelf {f : ReplaySession → ReplaySession}
    (hf : ∀ s, (f s).cmdline = s.cmdline ∧ (f s).records = s.records ∧
      (f s).multithreaded = s.multithreaded) :
    KeepsSession P (modifySelf f : Method ω Unit) :=
  modifySelf_keeps fun s hs => h s (f s) (hf s).1 (hf s).2.1 (hf s).2.2 hs

/-- The loop of the multi-threaded driver, by its rounds. -/
theorem Fixed.mtDrive (stopAt : Option UInt64) :
    KeepsSession P (Mt.drive arch stopAt : Method ω ExitOutcome) := by
  have hensure : KeepsSession P (Mt.ensureState arch : Method ω Unit) := by
    apply Keeps.bind self_keeps
    intro s
    split
    · exact Keeps.pure
    · exact Keeps.bind os_keeps fun _ => h.modifySelf fun _ => ⟨rfl, rfl, rfl⟩
  have hround : Spec (On P) (Mt.driveRound arch stopAt : Method ω (Option ExitOutcome))
      (Round (On P) fun _ => On P) (fun _ => On P) := by
    apply Spec.bind self_keeps
    intro s
    split
    · exact Spec.pure fun _ hs => hs
    · split
      · exact Spec.fail fun _ hs => hs
      · exact onRecord_consumes arch h.ignoresThreads (fun _ s => h s _ rfl rfl rfl)
          (fun _ s => h s _ rfl rfl rfl) (fun s _ => h s _ rfl rfl rfl)
  exact Spec.bind hensure fun _ => Spec.loop hround

theorem Fixed.driveRound (stopAt : Option UInt64) :
    KeepsSession P (driveRound arch stopAt : Method ω (Option ExitOutcome)) :=
  h.ignoresDriver.driveRound arch (fun s _ => h s _ rfl rfl rfl) (fun s _ => h s _ rfl rfl rfl)
    stopAt

theorem Fixed.drive (stopAt : Option UInt64) :
    KeepsSession P (drive arch stopAt : Method ω ExitOutcome) := by
  apply Keeps.bind self_keeps
  intro s
  split
  · exact Keeps.pure
  split
  · exact h.mtDrive arch stopAt
  · exact Keeps.loop (h.driveRound arch stopAt)

omit [Unwind ω] in
/-- A restart forks a checkpoint or spawns the command line again; either way it writes the fields
of the new process. -/
theorem Fixed.restart (start : StartPoint) :
    KeepsSession P (restart arch start : Method ω Unit) := by
  unfold Replay.restart
  split
  · apply Keeps.bind self_keeps
    intro s
    split
    · exact Keeps.never
    · apply Keeps.bind (forkSnapshot_keeps arch _)
      intro fresh
      apply Keeps.bind (killActive_keeps arch)
      intro _
      refine Keeps.bind (h.modifySelf fun _ => ⟨rfl, rfl, rfl⟩) fun _ => ?_
      exact rearmWatchpoint_keeps arch h.ignoresThreads.unwinder
  · apply Keeps.bind (killActive_keeps arch)
    intro _
    apply Keeps.bind self_keeps
    intro s
    apply Keeps.bind (spawnStopped_keeps arch s.cmdline)
    intro pid
    refine Keeps.bind (h.modifySelf fun _ => ⟨rfl, rfl, rfl⟩) fun _ => ?_
    exact rearmWatchpoint_keeps arch h.ignoresThreads.unwinder

theorem Fixed.perform (c : SessionCall) :
    KeepsSession P (perform arch c : Method ω (Option ExitOutcome)) := by
  refine perform_keeps arch ?_ ?_ (h.drive arch) c
  · exact { toIgnoresHits := h.ignoresThreads.toIgnoresHits
            watchpoint := fun s _ => h s _ rfl rfl rfl
            interval := fun s _ => h s _ rfl rfl rfl }
  · intro s seq
    apply (h.restart arch (planStart s seq)).mono _ (fun _ _ h => h) (fun _ _ h => h)
    rintro w ⟨hw, rfl⟩
    exact hw

end Fixed

/-- The records, the command line and the choice of the driver stay as they are. -/
theorem perform_fixed {w w' : World ω} {c : SessionCall}
    {r : Except ReplayError (Option ExitOutcome)} (h : exec (perform arch c) w = some (r, w')) :
    w'.session.cmdline = w.session.cmdline ∧ w'.session.records = w.session.records ∧
      w'.session.multithreaded = w.session.multithreaded := by
  have hfixed : Fixed fun s => s.cmdline = w.session.cmdline ∧ s.records = w.session.records ∧
      s.multithreaded = w.session.multithreaded := by
    rintro s s' hc hr hm ⟨hc', hr', hm'⟩
    exact ⟨hc.trans hc', hr.trans hr', hm.trans hm'⟩
  have hpost := hfixed.perform arch c w ⟨rfl, rfl, rfl⟩ r w' h
  cases r with
  | ok a => exact hpost
  | error e => exact hpost

end Mirrorscope.Replay
