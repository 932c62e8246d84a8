import Mirrorscope.Linux.Monitored
import Mirrorscope.Replay.Frame

/-! # Conditions on session and system

A condition on the session together with the system it drives, such as one that relates
the debug registers of the threads to the session's request. A task that is resumed, a
stop that is waited for, a trap and a new task may suspend the condition; what the parts
of the driver have to restore is listed once, and every call then keeps it.

What the parts of a session have to do is stated in three structures:
* `Phases`: what holds instead of the invariant while a task runs, has stopped, was trapped or
  is new.
* `Upkeep`: each step of the driver, from the phase before it to the one after.
* `CallUpkeep`: the steps of the calls that do not drive.
* `Upkeep.perform`: together with arming and clearing, they give every call.
-/

namespace Mirrorscope.Replay

open Capture Linux Run
open Trace (Record)

variable {ω α ε ν : Type}

/-! ## Conditions on the notes -/

/-- A condition on the session and on what was noted of its system. -/
def Seen (P : ReplaySession → List ν → Prop) (w : World (Monitored ν ω)) : Prop :=
  P w.session w.os.notes

/-- A call that is not noted leaves the notes. -/
theorem silent_seen {P : ReplaySession → List ν → Prop} {err : ε → ReplayError}
    {call : Call ω ε α} : Keeps (Seen P) (osOr err (Monitored.silent call)) := by
  intro w hw r w' hexec
  have hseen {os' : Monitored ν ω} {answer : Except ε α}
      (hcall : Monitored.silent call w.os = (answer, os')) : Seen P ⟨w.session, os'⟩ := by
    unfold Seen
    rw [Monitored.silent_notes hcall]
    exact hw
  rcases exec_osOr_inv hexec with ⟨a, os', hcall, rfl, rfl⟩ | ⟨e, os', hcall, rfl, rfl⟩
  · exact hseen hcall
  · exact hseen hcall

/-- A call that is noted appends the note of its answer, whichever it is. -/
theorem noting_seen {P : ReplaySession → List ν → Prop} {Q : α → ReplaySession → List ν → Prop}
    {E : ReplayError → ReplaySession → List ν → Prop} {err : ε → ReplayError}
    {note : Except ε α → List ν} {call : Call ω ε α}
    (hok : ∀ s notes a, P s notes → Q a s (notes ++ note (.ok a)))
    (herr : ∀ s notes e, P s notes → E (err e) s (notes ++ note (.error e))) :
    Spec (Seen P) (osOr err (Monitored.noting note call)) (fun a => Seen (Q a))
      (fun e => Seen (E e)) := by
  intro w hw r w' hexec
  rcases exec_osOr_inv hexec with ⟨a, os', hcall, rfl, rfl⟩ | ⟨e, os', hcall, rfl, rfl⟩
  · have hnotes := hok w.session w.os.notes a hw
    rw [← Monitored.noting_notes hcall] at hnotes
    exact hnotes
  · have hnotes := herr w.session w.os.notes e hw
    rw [← Monitored.noting_notes hcall] at hnotes
    exact hnotes

/-! ## Conditions on the state -/

/-- `m` keeps `I` if it answers, and leaves `E` if it fails. -/
abbrev Upholds (I E : World ω → Prop) (m : Method ω α) : Prop :=
  Spec I m (fun _ => I) (fun _ => E)

namespace Upholds

variable {β : Type} {I E : World ω → Prop}

theorem pure {a : α} : Upholds I E (pure a : Method ω α) := Spec.pure fun _ hw => hw

theorem fail {e : ReplayError} (h : ∀ w, I w → E w) : Upholds I E (Run.fail e : Method ω α) :=
  Spec.fail fun w hw => h w hw

theorem bind {m : Method ω α} {f : α → Method ω β} (hm : Upholds I E m)
    (hf : ∀ a, Upholds I E (f a)) : Upholds I E (m >>= f) := Spec.bind hm hf

theorem when {c : Bool} {m : Method ω Unit} (hm : Upholds I E m) : Upholds I E (Run.when c m) :=
  Spec.when (fun _ => hm) (fun _ _ hw => hw)

theorem loop {body : Method ω (Option α)} (hbody : Upholds I E body) :
    Upholds I E (Run.loop body) := by
  refine Spec.loop (hbody.mono (fun _ hw => hw) (fun r w hw => ?_) (fun _ _ hw => hw))
  cases r with
  | none => exact hw
  | some a => exact hw

end Upholds

/-- The state with another session. -/
def World.withSession (w : World ω) (f : ReplaySession → ReplaySession) : World ω :=
  { w with session := f w.session }

/-- No thread is followed in `mt'` that is not in `mt`. -/
def MtState.Shrinks (mt mt' : MtState) : Prop :=
  ∀ p : Pid, (mt'.threads[p]?).isSome = true → (mt.threads[p]?).isSome = true

/-- The leader alone is followed. -/
def MtState.seated (leader : Pid) : MtState :=
  { MtState.new leader with threads := (∅ : KeyMap Pid ThreadRt).insert leader {} }

/-- What holds in place of the condition: of a task that was resumed, of one whose stop was
waited for, of one that trapped, of a new task, and of a new task that is followed. -/
structure Phases (ω : Type) where
  Running : Pid → World ω → Prop
  Stopped : Pid → WaitStatus → World ω → Prop
  Trapped : Pid → World ω → Prop
  Born : Pid → World ω → Prop
  Bound : Pid → World ω → Prop

variable (arch : Arch) [Ptrace arch ω] [Unwind ω]

/-- The parts of a session keep the condition `I`, or restore it in the end; a part that
fails may leave `E` only. -/
structure Upkeep (I E : World ω → Prop) (phases : Phases ω) : Prop where
  weaken : ∀ w, I w → E w
  -- the calls that touch a stopped task
  setoptions : ∀ pid, Upholds I E (os (Ptrace.setoptions arch pid Mt.mtTraceOptions))
  saveFull : ∀ pid, Upholds I E (Regs.saveFull arch pid)
  restoreFull : ∀ pid regs, Upholds I E (Regs.restoreFull arch pid regs)
  setSyscallNr : ∀ pid nr, Upholds I E (os (Ptrace.setSyscallNr arch pid nr))
  processVmWritev : ∀ pid addr data, Upholds I E
    (osOr (.memory addr data.length) (Ptrace.processVmWritev arch pid addr data))
  -- a task runs to its next stop
  resume : ∀ pid sig, Spec I (os (Ptrace.syscall arch pid sig)) (fun _ => phases.Running pid)
    (fun _ => E)
  wait : ∀ pid flags, Spec (phases.Running pid) (os (Ptrace.waitpid arch pid flags))
    (fun status => phases.Stopped pid status) (fun _ => E)
  rest : ∀ pid status w, (∀ q, status ≠ .stopped q .trap) → phases.Stopped pid status w → I w
  trap : ∀ pid q, Spec (phases.Stopped pid (.stopped q .trap)) (isWatchHit arch pid)
    (fun hit w => if hit then phases.Trapped pid w else I w) (fun _ => E)
  hit : ∀ pid, Spec (phases.Trapped pid) (onWatchHit arch pid) (fun _ => I) (fun _ => E)
  -- a task is created
  event : ∀ pid, Spec I (os (Ptrace.getevent arch pid)) (fun child => phases.Born child)
    (fun _ => E)
  register : ∀ child seq, Spec (phases.Born child) (Mt.registerChild arch child seq)
    (fun _ => phases.Born child) (fun _ => E)
  bindChild : ∀ seq tid child parent vforked, Spec (phases.Born child)
    (Mt.bindChild seq tid child parent vforked) (fun _ => phases.Bound child) (fun _ => E)
  armChild : ∀ child, Spec (phases.Bound child) (Mt.armChild arch child) (fun _ => I) (fun _ => E)
  -- the session moves on
  place : ∀ w cursor currentSeq pending resumeSignal lastRegs, I w → I (w.withSession fun s =>
    { s with cursor, currentSeq, pending, resumeSignal, lastRegs })
  threads : ∀ w mt mt', w.session.mt = some mt → mt.Shrinks mt' → I w →
    I (w.withSession fun s => { s with mt := some mt' })
  seat : ∀ w, w.session.mt = none → w.session.finished = none → I w →
    I (w.withSession fun s => { s with mt := some (.seated s.pid) })
  finished : ∀ w outcome, I w → I (w.withSession fun s => { s with finished := some outcome })
  checkpoints : ∀ w cs, w.session.multithreaded = false → I w →
    I (w.withSession fun s => { s with checkpoints := cs })
  -- what a snapshot does as a whole
  snapshot : ∀ pid, Spec (fun w => w.session.multithreaded = false ∧ I w) (forkSnapshot arch pid)
    (fun _ => I) (fun _ => E)

/-- The calls that neither drive nor make a request keep the condition too. -/
structure CallUpkeep (I E : World ω → Prop) : Prop where
  interval : ∀ w n, I w → I (w.withSession fun s => { s with checkpointInterval := n })
  drained : ∀ w, I w → I (w.withSession fun s => { s with watchHits := [] })
  restart : ∀ start, Upholds I E (restart arch start : Method ω Unit)

variable {I E : World ω → Prop} {phases : Phases ω}

omit [Ptrace arch ω] [Unwind ω] in
theorem modifySelf_upkeep {Q : World ω → Prop} {E : ReplayError → World ω → Prop}
    {f : ReplaySession → ReplaySession} (h : ∀ w, I w → Q (w.withSession f)) :
    Spec I (modifySelf f) (fun _ => Q) E := by
  intro w hw r w' hexec
  obtain ⟨rfl, rfl⟩ := Prod.mk.inj (Option.some.inj hexec)
  exact h w hw

omit [Ptrace arch ω] [Unwind ω] in
/-- What is read is the session of the state. -/
theorem self_spec_upkeep {E : ReplayError → World ω → Prop} :
    Spec I (self : Method ω ReplaySession) (fun s w => w.session = s ∧ I w) E := by
  intro w hw r w' hexec
  obtain ⟨rfl, rfl⟩ := Prod.mk.inj (Option.some.inj hexec)
  exact ⟨rfl, hw⟩

omit [Ptrace arch ω] [Unwind ω] in
theorem self_upkeep {E : ReplayError → World ω → Prop} :
    Spec I (self : Method ω ReplaySession) (fun _ => I) E :=
  self_spec_upkeep.mono (fun _ hw => hw) (fun _ _ hw => hw.2) (fun _ _ hw => hw)

omit [Ptrace arch ω] [Unwind ω] in
theorem orFail_upkeep {err : ε → ReplayError} {x : Except ε α} :
    Keeps I (orFail err x : Method ω α) := by
  cases x with
  | ok a => exact Keeps.pure
  | error e => exact Keeps.fail

omit [Ptrace arch ω] [Unwind ω] in
/-- The thread state is what the session has. -/
theorem state_upkeep {E : ReplayError → World ω → Prop} : Spec I (Mt.state : Method ω MtState)
    (fun mt w => w.session.mt = some mt ∧ I w) E := by
  intro w hw r w' hexec
  rw [Mt.state, bind_ok (exec_self w)] at hexec
  split at hexec
  · rename_i mt hmt
    obtain ⟨rfl, rfl⟩ := Prod.mk.inj (Option.some.inj hexec)
    exact ⟨hmt, hw⟩
  · cases hexec

omit [Ptrace arch ω] [Unwind ω] in
theorem state_keeps_upkeep {E : ReplayError → World ω → Prop} :
    Spec I (Mt.state : Method ω MtState) (fun _ => I) E :=
  state_upkeep.mono (fun _ hw => hw) (fun _ _ hw => hw.2) (fun _ _ hw => hw)

omit [Ptrace arch ω] [Unwind ω] in
/-- A loop over a list, with what holds after the elements that are done. -/
theorem forEach_upkeep {M : List α → World ω → Prop} {E : ReplayError → World ω → Prop}
    {f : α → Method ω Unit} (h : ∀ done a, Spec (M done) (f a) (fun _ => M (done ++ [a])) E)
    (done as : List α) : Spec (M done) (forEach f as) (fun _ => M (done ++ as)) E := by
  induction as generalizing done with
  | nil =>
    rw [List.append_nil]
    exact Spec.pure fun _ hw => hw
  | cons a as ih =>
    have hrest := ih (done ++ [a])
    rw [List.append_assoc] at hrest
    exact Spec.bind (h done a) fun _ => hrest

namespace Upkeep

variable {arch} (h : Upkeep arch I E phases)
include h

theorem orFail {err : ε → ReplayError} {x : Except ε α} :
    Upholds I E (orFail err x : Method ω α) :=
  orFail_upkeep.mono (fun _ hw => hw) (fun _ _ hw => hw) (fun _ w hw => h.weaken w hw)

/-! ## Moving on -/

/-- The place in the trace, the pending call and the registers are the driver's own. -/
theorem modifyPlace {f : ReplaySession → ReplaySession}
    (hf : ∀ s, ∃ cursor currentSeq pending resumeSignal lastRegs,
      f s = { s with cursor, currentSeq, pending, resumeSignal, lastRegs }) :
    Upholds I E (modifySelf f : Method ω Unit) := by
  refine modifySelf_upkeep fun w hw => ?_
  obtain ⟨cursor, currentSeq, pending, resumeSignal, lastRegs, heq⟩ := hf w.session
  have hplace := h.place w cursor currentSeq pending resumeSignal lastRegs hw
  unfold World.withSession at hplace ⊢
  rw [heq]
  exact hplace

/-- The driver may drop threads from its state; it does not invent any. -/
theorem modifyState {f : MtState → MtState} (hf : ∀ mt : MtState, mt.Shrinks (f mt)) :
    Upholds I E (Mt.modifyState f : Method ω Unit) := by
  refine Spec.bind state_upkeep fun mt => ?_
  exact modifySelf_upkeep fun w hw => h.threads w mt (f mt) hw.1 (hf mt) hw.2

omit h in
theorem shrinks_modifyThread (mt : MtState) (live : Pid) (f : ThreadRt → ThreadRt) :
    mt.Shrinks (Mt.MtState.modifyThread mt live f) := by
  intro p hp
  unfold Mt.MtState.modifyThread at hp
  split at hp
  · rename_i thread hthread
    rw [KeyMap.get_insert] at hp
    split at hp
    · rename_i heq
      rw [← heq, hthread]
      rfl
    · exact hp
  · exact hp

theorem modifyThread (live : Pid) (f : ThreadRt → ThreadRt) :
    Upholds I E (Mt.modifyState fun mt => Mt.MtState.modifyThread mt live f : Method ω Unit) :=
  h.modifyState fun mt => shrinks_modifyThread mt live f

/-- An update of the thread state that leaves the threads alone. -/
theorem modifySchedule {f : MtState → MtState} (hf : ∀ mt, (f mt).threads = mt.threads) :
    Upholds I E (Mt.modifyState f : Method ω Unit) := by
  refine h.modifyState fun mt p hp => ?_
  rw [hf] at hp
  exact hp

theorem advance (seq : UInt64) : Upholds I E (Mt.advance seq : Method ω Unit) :=
  h.modifyPlace fun _ => ⟨_, _, _, _, _, rfl⟩

/-! ## Touching a stopped task -/

theorem read (pid : Pid) : Upholds I E (Regs.read arch pid : Method ω Registers) :=
  Upholds.bind (h.saveFull pid) fun _ => Upholds.pure

/-- Suppressing a call writes registers. -/
theorem suppressSyscall (pid : Pid) : Upholds I E (Regs.suppressSyscall arch pid : Method ω Unit) := by
  cases arch with
  | x86_64 => exact Upholds.bind (h.saveFull pid) fun regs => h.restoreFull pid _
  | aarch64 => exact h.setSyscallNr pid _

theorem setReturn (pid : Pid) (ret : Int64) :
    Upholds I E (Regs.setReturn arch pid ret : Method ω Unit) :=
  Upholds.bind (h.saveFull pid) fun _ => h.restoreFull pid _

theorem writeMemory (pid : Pid) (addr : UInt64) (data : Bytes) :
    Upholds I E (writeMemory arch pid addr data : Method ω Unit) := by
  unfold Replay.writeMemory
  split
  · exact Upholds.pure
  · refine Upholds.bind (h.processVmWritev pid addr data) fun written => ?_
    split
    · exact Upholds.fail h.weaken
    · exact Upholds.pure

/-- Injecting writes the captured buffers, and then the result. -/
theorem injectResult (live : Pid) (pending : PendingSys) (exit : SyscallExit) :
    Upholds I E (Mt.injectResult arch live pending exit : Method ω Unit) := by
  refine Upholds.when ?_
  split
  · exact Upholds.bind (h.writeMemory live _ _) fun _ => h.setReturn live _
  · exact h.setReturn live _

/-! ## Running a task -/

/-- A stop with `SIGTRAP` is asked about, and served if it is a hit. -/
theorem serve (pid q : Pid) {m : Method ω α} {a : α} (hm : Upholds I E m) :
    Spec (phases.Stopped pid (.stopped q .trap))
      (do
        let hit ← isWatchHit arch pid
        if hit then do
          onWatchHit arch pid
          pure a
        else m) (fun _ => I) (fun _ => E) := by
  refine Spec.bind (h.trap pid q) fun hit => ?_
  cases hit with
  | true =>
    refine Spec.bind (Q := fun _ => I) ?_ fun _ => Upholds.pure
    exact (h.hit pid).mono (fun w hw => by simpa using hw) (fun _ _ hw => hw) (fun _ _ hw => hw)
  | false => exact hm.mono (fun w hw => by simpa using hw) (fun _ _ hw => hw) (fun _ _ hw => hw)

/-- From the resumption through the stop back to the invariant, or to the next round of waiting.
-/
theorem stepRound (live : Pid) (sig : Option Signal) :
    Upholds I E (Mt.stepRound arch live sig : Method ω (Option WaitStatus)) := by
  refine Spec.bind (h.resume live sig) fun _ => ?_
  refine Spec.bind (h.wait live .wall) fun status => ?_
  have hrest {m : Method ω (Option WaitStatus)} (hm : Upholds I E m)
      (hne : ∀ q, status ≠ .stopped q .trap) :
      Spec (phases.Stopped live status) m (fun _ => I) (fun _ => E) :=
    hm.mono (fun w hw => h.rest live status w hne hw) (fun _ _ hw => hw) (fun _ _ hw => hw)
  split
  · refine hrest ?_ (by simp)
    split
    · exact Upholds.pure
    · exact Upholds.pure
  · exact h.serve live _ Upholds.pure
  · rename_i hne
    exact hrest Upholds.pure fun q => hne q

/-- The loop over the rounds, with the signal in the first only. -/
theorem stepThread (live : Pid) (sig : Option Signal) :
    Upholds I E (Mt.stepThread arch live sig : Method ω WaitStatus) := by
  refine Upholds.bind (h.stepRound live sig) fun status => ?_
  split
  · exact Upholds.pure
  · exact Upholds.loop (h.stepRound live none)

/-! ## The multi-threaded driver -/

theorem takeResumeSignal (live : Pid) :
    Upholds I E (Mt.takeResumeSignal live : Method ω (Option Signal)) :=
  Upholds.bind state_keeps_upkeep fun _ => Upholds.bind (h.modifyThread live _) fun _ => Upholds.pure

theorem takePending (live : Pid) :
    Upholds I E (Mt.takePending live : Method ω (Option PendingSys)) :=
  Upholds.bind state_keeps_upkeep fun _ => Upholds.bind (h.modifyThread live _) fun _ => Upholds.pure

theorem enforceTid (record : Record) : Upholds I E (Mt.enforceTid record : Method ω UInt32) := by
  unfold Mt.enforceTid
  split
  · exact Upholds.fail h.weaken
  · refine Upholds.bind state_keeps_upkeep fun mt => ?_
    split
    · exact Upholds.bind (h.modifySchedule fun _ => rfl) fun _ => Upholds.pure
    · split
      · exact Upholds.pure
      · exact Upholds.fail h.weaken

theorem liveFor (tid : UInt32) (seq : UInt64) : Upholds I E (Mt.liveFor tid seq : Method ω Pid) := by
  refine Upholds.bind state_keeps_upkeep fun mt => ?_
  split
  · exact Upholds.pure
  · split
    · refine Upholds.bind h.orFail fun tidmap => ?_
      exact Upholds.bind (h.modifySchedule fun _ => rfl) fun _ => Upholds.pure
    · exact Upholds.fail h.weaken

theorem onSchedSwitch (record : Record) : Upholds I E (Mt.onSchedSwitch record : Method ω Unit) := by
  refine Upholds.bind h.orFail fun switch => ?_
  exact Upholds.bind (h.modifySchedule fun _ => rfl) fun _ => h.advance _

theorem onSyscallEnter (record : Record) :
    Upholds I E (Mt.onSyscallEnter arch record : Method ω Unit) := by
  refine Upholds.bind (h.enforceTid record) fun tid => ?_
  refine Upholds.bind (h.liveFor tid _) fun live => ?_
  refine Upholds.bind (h.takeResumeSignal live) fun sig => ?_
  refine Upholds.bind (h.stepThread live sig) fun status => ?_
  split
  · refine Upholds.bind (h.read live) fun regs => ?_
    refine Upholds.bind (h.modifyPlace fun _ => ⟨_, _, _, _, _, rfl⟩) fun _ => ?_
    refine Upholds.bind h.orFail fun enter => ?_
    split
    · exact Upholds.fail h.weaken
    · refine Upholds.bind (Upholds.when (h.suppressSyscall live)) fun _ => ?_
      exact Upholds.bind (h.modifyThread live _) fun _ => h.advance _
  · exact Upholds.fail h.weaken

theorem onSyscallExit (record : Record) :
    Upholds I E (Mt.onSyscallExit arch record : Method ω Unit) := by
  refine Upholds.bind (h.enforceTid record) fun tid => ?_
  refine Upholds.bind (h.liveFor tid _) fun live => ?_
  refine Upholds.bind (h.stepThread live none) fun status => ?_
  split
  · refine Upholds.bind (h.read live) fun regs => ?_
    refine Upholds.bind (h.modifyPlace fun _ => ⟨_, _, _, _, _, rfl⟩) fun _ => ?_
    refine Upholds.bind h.orFail fun exit => ?_
    refine Upholds.bind (h.takePending live) fun pending => ?_
    split
    · exact Upholds.fail h.weaken
    · exact Upholds.bind (h.injectResult live _ _) fun _ => h.advance _
  · exact Upholds.fail h.weaken

/-- The new task is `Born` at its event, `Bound` when it has its tid, and the invariant holds when
it is armed. -/
theorem onThreadSpawn (record : Record) :
    Upholds I E (Mt.onThreadSpawn arch record : Method ω Unit) := by
  refine Upholds.bind (h.enforceTid record) fun tid => ?_
  refine Upholds.bind (h.liveFor tid _) fun parent => ?_
  refine Upholds.bind h.orFail fun spawn => ?_
  refine Upholds.bind (h.takeResumeSignal parent) fun sig => ?_
  refine Upholds.bind (h.stepThread parent sig) fun status => ?_
  split
  · split
    · refine Spec.bind (h.event parent) fun child => ?_
      refine Spec.bind (h.register child _) fun _ => ?_
      refine Spec.bind (h.bindChild _ _ child parent _) fun _ => ?_
      exact Spec.bind (h.armChild child) fun _ => h.advance _
    · exact Upholds.fail h.weaken
  · exact Upholds.fail h.weaken

/-- A thread that has ended is dropped, and with the leader the session is over. -/
theorem onThreadExit (record : Record) :
    Upholds I E (Mt.onThreadExit arch record : Method ω (Option ExitOutcome)) := by
  refine Upholds.bind (h.enforceTid record) fun tid => ?_
  refine Upholds.bind (h.liveFor tid _) fun live => ?_
  refine Upholds.bind (h.takeResumeSignal live) fun sig => ?_
  refine Upholds.bind (h.stepThread live sig) fun status => ?_
  split
  · exact Upholds.fail h.weaken
  · refine Upholds.bind state_keeps_upkeep fun mt => ?_
    have hremove : Upholds I E (Mt.removeThread tid live : Method ω Unit) := by
      refine h.modifyState fun mt p hp => ?_
      rw [KeyMap.get_erase] at hp
      split at hp
      · cases hp
      · exact hp
    refine Upholds.bind hremove fun _ => Upholds.bind (h.advance _) fun _ => ?_
    split
    · exact Upholds.bind (modifySelf_upkeep fun w hw => h.finished w _ hw) fun _ => Upholds.pure
    · exact Upholds.pure

theorem onSignal (record : Record) : Upholds I E (Mt.onSignal arch record : Method ω Unit) := by
  refine Upholds.bind (h.enforceTid record) fun tid => ?_
  refine Upholds.bind (h.liveFor tid _) fun live => ?_
  refine Upholds.bind (h.takeResumeSignal live) fun sig => ?_
  refine Upholds.bind (h.stepThread live sig) fun status => ?_
  split
  · refine Upholds.bind h.orFail fun recorded => ?_
    split
    · exact Upholds.fail h.weaken
    · exact Upholds.bind (h.modifyThread live _) fun _ => h.advance _
  · exact Upholds.fail h.weaken

theorem onRecord (record : Record) :
    Upholds I E (Mt.onRecord arch record : Method ω (Option ExitOutcome)) := by
  unfold Mt.onRecord
  split
  · exact Upholds.bind (h.modifyPlace fun _ => ⟨_, _, _, _, _, rfl⟩) fun _ => Upholds.pure
  · exact Upholds.bind (h.onSchedSwitch record) fun _ => Upholds.pure
  · exact Upholds.bind (h.onSyscallEnter record) fun _ => Upholds.pure
  · exact Upholds.bind (h.onSyscallExit record) fun _ => Upholds.pure
  · exact Upholds.bind (h.onThreadSpawn record) fun _ => Upholds.pure
  · exact h.onThreadExit record
  · exact Upholds.bind (h.onSignal record) fun _ => Upholds.pure
  · exact Upholds.fail h.weaken

/-- Driving a replay that is not finished. -/
theorem mtDrive (stopAt : Option UInt64) :
    Spec (fun w => w.session.finished = none ∧ I w) (Mt.drive arch stopAt : Method ω ExitOutcome)
      (fun _ => I) (fun _ => E) := by
  have hensure : Spec (fun w => w.session.finished = none ∧ I w)
      (Mt.ensureState arch : Method ω Unit) (fun _ => I) (fun _ => E) := by
    refine Spec.bind self_spec_upkeep fun s => ?_
    split
    · exact Spec.pure fun _ hw => hw.2.2
    · rename_i hmt
      -- the session is as it was when the options are set
      have hseat : Spec (fun w => (w.session.mt = none ∧ w.session.finished = none) ∧ I w)
          (os (Ptrace.setoptions arch s.pid Mt.mtTraceOptions) : Method ω Unit)
          (fun _ w => (w.session.mt = none ∧ w.session.finished = none) ∧ I w) (fun _ => E) :=
        ((os_keeps (P := fun t => t.mt = none ∧ t.finished = none)).and
          (h.setoptions s.pid)).mono (fun _ hw => hw) (fun _ _ hw => hw) (fun _ _ hw => hw.2)
      refine Spec.bind (hseat.mono ?_ (fun _ _ hw => hw) (fun _ _ hw => hw)) fun _ => ?_
      · rintro w ⟨rfl, hfinished, hw⟩
        exact ⟨⟨hmt, hfinished⟩, hw⟩
      · exact modifySelf_upkeep fun w hw => h.seat w hw.1.1 hw.1.2 hw.2
  refine Spec.bind hensure fun _ => Upholds.loop ?_
  refine Upholds.bind self_upkeep fun s => ?_
  split
  · exact Upholds.pure
  · split
    · exact Upholds.fail h.weaken
    · exact h.onRecord _

/-! ## The single-tracee driver -/

theorem skipCheckpoints : Upholds I E (skipCheckpoints : Method ω Unit) :=
  h.modifyPlace fun _ => ⟨_, _, _, _, _, rfl⟩

theorem nextRecord : Upholds I E (nextRecord : Method ω Record) := by
  refine Upholds.bind h.skipCheckpoints fun _ => ?_
  refine Upholds.bind self_upkeep fun s => ?_
  split
  · exact Upholds.fail h.weaken
  · exact Upholds.bind (h.modifyPlace fun _ => ⟨_, _, _, _, _, rfl⟩) fun _ => Upholds.pure

theorem onEntry (regs : Registers) : Upholds I E (onEntry arch regs : Method ω Unit) := by
  refine Upholds.bind h.nextRecord fun record => ?_
  split
  · refine Upholds.bind h.orFail fun enter => ?_
    split
    · exact Upholds.fail h.weaken
    · refine Upholds.bind (h.modifyPlace fun _ => ⟨_, _, _, _, _, rfl⟩) fun _ => ?_
      refine Upholds.bind self_upkeep fun s => ?_
      refine Upholds.bind (Upholds.when (h.suppressSyscall s.pid)) fun _ => ?_
      exact h.modifyPlace fun _ => ⟨_, _, _, _, _, rfl⟩
  · exact Upholds.fail h.weaken

theorem onExit (pending : Pending) : Upholds I E (onExit arch pending : Method ω Unit) := by
  refine Upholds.bind h.nextRecord fun record => ?_
  split
  · refine Upholds.bind h.orFail fun exit => ?_
    refine Upholds.bind (h.modifyPlace fun _ => ⟨_, _, _, _, _, rfl⟩) fun _ => ?_
    split
    · refine Upholds.bind self_upkeep fun s => ?_
      exact Upholds.bind (h.writeMemory s.pid _ _) fun _ => h.setReturn s.pid _
    · exact Upholds.pure
  · exact Upholds.fail h.weaken

theorem onSyscallStop : Upholds I E (onSyscallStop arch : Method ω Unit) := by
  refine Upholds.bind self_upkeep fun s => ?_
  refine Upholds.bind (h.read s.pid) fun regs => ?_
  refine Upholds.bind (h.modifyPlace fun _ => ⟨_, _, _, _, _, rfl⟩) fun _ => ?_
  split
  · exact h.onEntry regs
  · exact h.onExit _

theorem onSignalStop (signal : Signal) : Upholds I E (onSignalStop signal : Method ω Unit) := by
  have hmatch : Upholds I E (matchSignal signal : Method ω Unit) := by
    refine Upholds.bind self_upkeep fun s => ?_
    split
    · split
      · refine Upholds.bind h.orFail fun recorded => ?_
        split
        · exact Upholds.fail h.weaken
        · exact h.modifyPlace fun _ => ⟨_, _, _, _, _, rfl⟩
      · exact Upholds.pure
    · exact Upholds.pure
  refine Upholds.bind h.skipCheckpoints fun _ => ?_
  exact Upholds.bind hmatch fun _ => h.modifyPlace fun _ => ⟨_, _, _, _, _, rfl⟩

/-- A trap is looked at before it is taken for a signal. -/
theorem onStopped (pid q : Pid) (signal : Signal) :
    Spec (phases.Stopped pid (.stopped q signal)) (onStopped arch pid signal : Method ω Unit)
      (fun _ => I) (fun _ => E) := by
  unfold Replay.onStopped
  split
  · rename_i htrap
    subst htrap
    refine Spec.bind (h.trap pid q) fun hit => ?_
    cases hit with
    | true =>
      exact (h.hit pid).mono (fun w hw => by simpa using hw) (fun _ _ hw => hw) (fun _ _ hw => hw)
    | false =>
      exact (h.onSignalStop _).mono (fun w hw => by simpa using hw) (fun _ _ hw => hw)
        (fun _ _ hw => hw)
  · rename_i htrap
    refine (h.onSignalStop signal).mono (fun w hw => h.rest pid _ w ?_ hw) (fun _ _ hw => hw)
      (fun _ _ hw => hw)
    intro q' heq
    exact htrap (WaitStatus.stopped.inj heq).2

/-- A snapshot is taken by the single-tracee driver alone. -/
theorem maybeCheckpoint : Upholds I E (maybeCheckpoint arch : Method ω Unit) := by
  refine Spec.bind self_spec_upkeep fun s => ?_
  have hskip : Spec (fun w => w.session = s ∧ I w) (pure () : Method ω Unit) (fun _ => I)
      (fun _ => E) := Spec.pure fun _ hw => hw.2
  split
  · exact hskip
  rename_i hmulti
  have hsingle : s.multithreaded = false := Bool.eq_false_iff.mpr hmulti
  split
  · exact hskip
  split
  · exact hskip
  split
  · exact hskip
  -- the snapshot is taken in a session of a single tracee, and it stays that
  have hsnapshot := (forkSnapshot_keeps arch (P := fun t => t.multithreaded = false)
    s.pid).and (h.snapshot s.pid)
  refine Spec.bind (Q := fun (_ : Pid) (w : World ω) => w.session.multithreaded = false ∧ I w)
    (hsnapshot.mono ?_ (fun _ _ hw => hw) (fun _ _ hw => hw.2)) fun _ =>
      modifySelf_upkeep fun w hw => h.checkpoints w _ hw.1 hw.2
  rintro w ⟨rfl, hw⟩
  exact ⟨hsingle, hsingle, hw⟩

theorem driveRound (stopAt : Option UInt64) :
    Upholds I E (driveRound arch stopAt : Method ω (Option ExitOutcome)) := by
  have hfinish (outcome : ExitOutcome) :
      Upholds I E (finish outcome : Method ω (Option ExitOutcome)) :=
    Upholds.bind (modifySelf_upkeep fun w hw => h.finished w _ hw) fun _ => Upholds.pure
  refine Upholds.bind self_upkeep fun s => ?_
  split
  · exact Upholds.pure
  refine Upholds.bind (h.modifyPlace fun _ => ⟨_, _, _, _, _, rfl⟩) fun _ => ?_
  refine Spec.bind (h.resume s.pid _) fun _ => ?_
  refine Spec.bind (h.wait s.pid .none) fun status => ?_
  -- Every stop but a trap leaves the invariant standing.
  have hrest {m : Method ω (Option ExitOutcome)} (hm : Upholds I E m)
      (hne : ∀ q, status ≠ .stopped q .trap) :
      Spec (phases.Stopped s.pid status) m (fun _ => I) (fun _ => E) :=
    hm.mono (fun w hw => h.rest s.pid status w hne hw) (fun _ _ hw => hw) (fun _ _ hw => hw)
  unfold onStatus
  split
  · refine hrest ?_ (by simp)
    refine Upholds.bind h.onSyscallStop fun _ => ?_
    exact Upholds.bind h.maybeCheckpoint fun _ => Upholds.pure
  · exact Spec.bind (h.onStopped s.pid _ _) fun _ => Upholds.pure
  · exact hrest (hfinish _) (by simp)
  · exact hrest (hfinish _) (by simp)
  · rename_i hstopped _ _
    exact hrest Upholds.pure fun q heq => hstopped q .trap heq

/-! ## Calls -/

theorem drive (stopAt : Option UInt64) : Upholds I E (drive arch stopAt : Method ω ExitOutcome) := by
  refine Spec.bind self_spec_upkeep fun s => ?_
  split
  · exact Spec.pure fun _ hw => hw.2
  rename_i hfinished
  split
  · refine (h.mtDrive stopAt).mono ?_ (fun _ _ hw => hw) (fun _ _ hw => hw)
    rintro w ⟨rfl, hw⟩
    exact ⟨hfinished, hw⟩
  · exact (Upholds.loop (h.driveRound stopAt)).mono (fun _ hw => hw.2) (fun _ _ hw => hw)
      (fun _ _ hw => hw)

/-- A call that drives keeps the condition. -/
theorem driving (stopAt : Option UInt64) :
    Upholds I E (do
      let outcome ← Replay.drive arch stopAt
      pure (some outcome) : Method ω (Option ExitOutcome)) :=
  Upholds.bind (h.drive stopAt) fun _ => Upholds.pure

/-- Every call keeps the condition, if the requests do. -/
theorem perform (hcalls : CallUpkeep arch I E) (c : SessionCall)
    (hwatch : ∀ addr len kind, c = .watch addr len kind →
      Upholds I E (watch arch addr len kind : Method ω Unit))
    (hclear : c = .clearWatch → Upholds I E (clearWatch arch : Method ω Unit)) :
    Upholds I E (perform arch c : Method ω (Option ExitOutcome)) := by
  -- The calls that drive come first; arming and clearing are the caller's to show.
  cases c with
  | runTo seq =>
    refine Upholds.bind ?_ fun _ => Upholds.pure
    refine Upholds.bind self_upkeep fun s => ?_
    exact Upholds.bind (Upholds.when (hcalls.restart _)) fun _ => h.drive (some seq)
  | stepTo seq => exact h.driving (some seq)
  | runToEnd => exact h.driving none
  | restoreTo seq =>
    refine Upholds.bind ?_ fun _ => Upholds.pure
    exact Upholds.bind self_upkeep fun s => hcalls.restart _
  | checkpointInterval interval =>
    refine Upholds.bind ?_ fun _ => Upholds.pure
    exact modifySelf_upkeep fun w hw => hcalls.interval w interval hw
  | watch addr len kind => exact Upholds.bind (hwatch addr len kind rfl) fun _ => Upholds.pure
  | clearWatch => exact Upholds.bind (hclear rfl) fun _ => Upholds.pure
  | takeWatchHits =>
    refine Upholds.bind ?_ fun _ => Upholds.pure
    refine Upholds.bind self_upkeep fun s => ?_
    exact Upholds.bind (modifySelf_upkeep fun w hw => hcalls.drained w hw) fun _ => Upholds.pure

end Upkeep

end Mirrorscope.Replay
