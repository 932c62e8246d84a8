import Mirrorscope.Lib.Each
import Mirrorscope.Replay.Upkeep

/-! # Custody of the tracees

The tasks a session creates are held in four places: the active tracee, the threads it
follows, and the snapshots of its checkpoints. What the session is told of its tasks is
noted, so which of them are alive is a fact about the notes; a session has custody of its
tasks if every one that is alive is held in one of these places.

The notes are a list of `Deed`s: a task was created, waited for, or killed.
* `alive`, `newest`: who is left of the tasks, and who came last.
* `Custody H new s notes`: everyone alive is held in a place `H`, but for the new task.
* `Guarded`, `Unclaimed`: custody within a call, before and after a task was created in it.
* `Strayed`: what a failed call may leave.
* `tends_drive`: the driver keeps custody; its parts are walked one after the other.
-/

namespace Mirrorscope.Replay

open Capture Linux Run
open Trace (Cmdline Record)

variable {ω α : Type}

/-! ## What is noted of the tasks -/

/-- A task was created, by a spawn or as told by a creation event; a task was killed; a task
was waited for, and the wait reported its end or did not. -/
inductive Deed where
  | created (pid : Pid)
  | killed (pid : Pid)
  | awaited (pid : Pid) (ended : Bool)
deriving DecidableEq, Repr

namespace Deed

def ofCreation {ε : Type} : Except ε Pid → List Deed
  | .ok pid => [created pid]
  | .error _ => []

/-- The wait reported the end of a task. -/
def isEnd : Except Errno WaitStatus → Bool
  | .ok (.exited ..) | .ok (.signaled ..) => true
  | _ => false

def ofWait (pid : Pid) (answer : Except Errno WaitStatus) : List Deed :=
  [awaited pid (isEnd answer)]

/-- The tasks alive after one more deed. -/
def apply (tasks : List Pid) : Deed → List Pid
  | created pid => pid :: tasks
  | killed _ => tasks
  | awaited pid ended => if ended then tasks.filter (· ≠ pid) else tasks

def isCreation : Deed → Bool
  | created _ => true
  | _ => false

def isKill : Deed → Bool
  | killed _ => true
  | _ => false

/-- The task created last after one more deed. -/
def newest (last : Option Pid) : Deed → Option Pid
  | created pid => some pid
  | _ => last

end Deed

instance {arch : Arch} [Ptrace arch ω] : Ptrace arch (Monitored Deed ω) where
  spawnTraced cmdline := Monitored.noting Deed.ofCreation (Ptrace.spawnTraced arch cmdline)
  syscall pid sig := Monitored.silent (Ptrace.syscall arch pid sig)
  step pid := Monitored.silent (Ptrace.step arch pid)
  kill pid := Monitored.noting (fun _ => [.killed pid]) (Ptrace.kill arch pid)
  waitpid pid flags := Monitored.noting (Deed.ofWait pid) (Ptrace.waitpid arch pid flags)
  setoptions pid options := Monitored.silent (Ptrace.setoptions arch pid options)
  getevent pid := Monitored.noting Deed.ofCreation (Ptrace.getevent arch pid)
  getregs pid := Monitored.silent (Ptrace.getregs pid)
  setregs pid regs := Monitored.silent (Ptrace.setregs pid regs)
  setSyscallNr pid nr := Monitored.silent (Ptrace.setSyscallNr arch pid nr)
  processVmReadv pid addr len := Monitored.silent (Ptrace.processVmReadv arch pid addr len)
  processVmWritev pid addr data := Monitored.silent (Ptrace.processVmWritev arch pid addr data)
  pokeUser pid offset data := Monitored.silent (Ptrace.pokeUser arch pid offset data)
  setHwWatch pid addr ctrl := Monitored.silent (Ptrace.setHwWatch arch pid addr ctrl)
  getsiginfo pid := Monitored.silent (Ptrace.getsiginfo arch pid)

instance [Unwind ω] : Unwind (Monitored Deed ω) where
  forPid pid := Monitored.silent (Unwind.forPid pid)
  registers pid := Monitored.silent (Unwind.registers pid)
  backtrace pid pc := Monitored.silent (Unwind.backtrace pid pc)

/-- The tasks that were created and not reaped since. -/
def alive (notes : List Deed) : List Pid := notes.foldl Deed.apply []

/-- The task that was created last. -/
def newest (notes : List Deed) : Option Pid := notes.foldl Deed.newest none

/-- Every wait for a task that was just killed reported its end. -/
def Answered : List Deed → Prop :=
  List.Each fun before deed =>
    match deed with
    | .awaited pid false => before.getLast? ≠ some (.killed pid)
    | _ => True

/-! ## Custody -/

/-- The thread is one the session follows. -/
def ReplaySession.Follows (s : ReplaySession) (p : Pid) : Prop :=
  ∃ mt, s.mt = some mt ∧ (mt.threads[p]?).isSome = true

/-- The session holds the task: its active tracee, a thread it follows, or a snapshot. -/
def ReplaySession.Holds (s : ReplaySession) (p : Pid) : Prop :=
  (p = s.pid ∧ s.finished = none) ∨ s.Follows p ∨ ∃ c ∈ s.checkpoints, c.snapshot = p

/-- Every task that is alive is held by the session. -/
def Tracked (w : World (Monitored Deed ω)) : Prop :=
  ∀ p ∈ alive w.os.notes, w.session.Holds p

/-- Every task that is alive is held as `H` says, or is the new one. -/
structure Custody (H : ReplaySession → Pid → Prop) (new : Option Pid) (s : ReplaySession)
    (notes : List Deed) : Prop where
  leader : ∀ mt, s.mt = some mt → mt.leader = s.pid
  held : Answered notes → ∀ p ∈ alive notes, some p = new ∨ H s p

/-- What a call started from: the notes so far, and whether no kill is to be made. -/
structure Base where
  notes : List Deed
  still : Bool

/-- The notes have grown from there, and no kill was made if none is to be. -/
def Base.Since (base : Base) (notes : List Deed) : Prop :=
  ∃ more, notes = base.notes ++ more ∧ (base.still = true → ∀ deed ∈ more, deed.isKill = false)

/-- The task is the last one that was created in the call. -/
structure Base.Born (base : Base) (child : Pid) (notes : List Deed) : Prop where
  since : base.Since notes
  newest : ∃ more, notes = base.notes ++ more ∧ newest more = some child

/-- What is left of custody after a failure: all of it, or all but the task the call
created last. -/
structure Strayed (base : Base) (s : ReplaySession) (notes : List Deed) : Prop where
  since : base.Since notes
  left : Custody ReplaySession.Holds none s notes ∨
    ∃ child, base.Born child notes ∧ Custody ReplaySession.Holds (some child) s notes

section Notes

variable {H H' : ReplaySession → Pid → Prop} {new : Option Pid} {s s' : ReplaySession}
  {notes : List Deed} {p pid : Pid} {ended : Bool}

theorem alive_snoc (notes : List Deed) (deed : Deed) :
    alive (notes ++ [deed]) = deed.apply (alive notes) := by
  unfold alive
  rw [List.foldl_append]
  rfl

theorem Answered.of_append {more : List Deed} (h : Answered (notes ++ more)) : Answered notes :=
  List.each_of_append h

/-- A wait only takes tasks away. -/
theorem alive_awaited (h : p ∈ alive (notes ++ [.awaited pid ended])) : p ∈ alive notes := by
  rw [alive_snoc, Deed.apply] at h
  split at h
  · exact (List.mem_filter.mp h).1
  · exact h

/-- A task whose end was reported is not alive. -/
theorem not_alive_ended : pid ∉ alive (notes ++ [.awaited pid true]) := by
  rw [alive_snoc, Deed.apply, if_pos rfl]
  intro h
  have hne := (List.mem_filter.mp h).2
  simp at hne

theorem newest_snoc (notes : List Deed) (deed : Deed) :
    newest (notes ++ [deed]) = deed.newest (newest notes) := by
  unfold newest
  rw [List.foldl_append]
  rfl

namespace Custody

/-- What custody looks at in the session. -/
theorem congr (h : Custody H new s notes) (hmt : ∀ mt, s'.mt = some mt → mt.leader = s'.pid)
    (hholds : ∀ p, H s p → H' s' p) : Custody H' new s' notes where
  leader := hmt
  held hanswered p hp := by
    rcases h.held hanswered p hp with hnew | hold
    · exact .inl hnew
    · exact .inr (hholds p hold)

theorem awaited (h : Custody H new s notes) : Custody H new s (notes ++ [.awaited pid ended]) where
  leader := h.leader
  held hanswered p hp := h.held hanswered.of_append p (alive_awaited hp)

theorem killed (h : Custody H new s notes) : Custody H new s (notes ++ [.killed pid]) where
  leader := h.leader
  held hanswered p hp := by
    rw [alive_snoc] at hp
    exact h.held hanswered.of_append p hp

/-- A task is created. -/
theorem created (h : Custody H none s notes) :
    Custody H (some pid) s (notes ++ [.created pid]) where
  leader := h.leader
  held hanswered p hp := by
    rw [alive_snoc] at hp
    rcases List.mem_cons.mp hp with rfl | hmem
    · exact .inl rfl
    · rcases h.held hanswered.of_append p hmem with hnew | hold
      · cases hnew
      · exact .inr hold

/-- The new task is held, or gone. -/
theorem claim (h : Custody H (some pid) s notes) (hpid : pid ∈ alive notes → H s pid) :
    Custody H none s notes where
  leader := h.leader
  held hanswered p hp := by
    rcases h.held hanswered p hp with hnew | hold
    · rcases Option.some.inj hnew with rfl
      exact .inr (hpid hp)
    · exact .inr hold

end Custody

end Notes

/-! ## Calls into the kernel -/

section Walk

variable {arch : Arch} [Ptrace arch ω] {base : Base}
  {G : ReplaySession → List Deed → Prop}

/-- A condition that waiting keeps, and that a failure leaves something of. -/
structure Lasting (base : Base) (G : ReplaySession → List Deed → Prop) : Prop where
  awaited : ∀ s notes pid ended, G s notes → G s (notes ++ [.awaited pid ended])
  strayed : ∀ s notes, G s notes → Strayed base s notes

/-- Keep the condition; a failure leaves custody, or a task that was created. -/
abbrev Tends (base : Base) (G : ReplaySession → List Deed → Prop)
    (m : Method (Monitored Deed ω) α) : Prop := Upholds (Seen G) (Seen (Strayed base)) m

/-- Custody in a call that started at `base`. -/
structure GuardedBy (base : Base) (H : ReplaySession → Pid → Prop) (s : ReplaySession)
    (notes : List Deed) : Prop where
  start : base.Since notes
  custody : Custody H none s notes

/-- A task was created in this call, and it alone may not be held yet. -/
structure UnclaimedBy (base : Base) (H : ReplaySession → Pid → Prop) (child : Pid)
    (s : ReplaySession) (notes : List Deed) : Prop where
  created : base.Born child notes
  custody : Custody H (some child) s notes

abbrev Guarded (base : Base) := GuardedBy base ReplaySession.Holds

abbrev Unclaimed (base : Base) := UnclaimedBy base ReplaySession.Holds

/-- One more note of a call in which nothing may be killed. -/
theorem Base.Since.snoc {notes : List Deed} {deed : Deed} (h : base.Since notes)
    (hdeed : base.still = true → deed.isKill = false) : base.Since (notes ++ [deed]) := by
  rcases h with ⟨more, rfl, hmore⟩
  refine ⟨more ++ [deed], List.append_assoc .., ?_⟩
  intro hstill d hd
  rcases List.mem_append.mp hd with hmem | hmem
  · exact hmore hstill d hmem
  · rcases List.mem_singleton.mp hmem with rfl
    exact hdeed hstill

theorem Base.Since.awaited {notes : List Deed} {pid : Pid} {ended : Bool} (h : base.Since notes) :
    base.Since (notes ++ [.awaited pid ended]) := h.snoc fun _ => rfl

/-- What is no creation leaves the task the last one. -/
theorem Base.Born.snoc {notes : List Deed} {child : Pid} {deed : Deed} (h : base.Born child notes)
    (hsince : base.Since (notes ++ [deed])) (hdeed : deed.isCreation = false) :
    base.Born child (notes ++ [deed]) := by
  rcases h.newest with ⟨more, rfl, hnewest⟩
  refine ⟨hsince, more ++ [deed], List.append_assoc .., ?_⟩
  rw [newest_snoc, hnewest]
  cases deed with
  | created pid => cases hdeed
  | killed | awaited => rfl

theorem Base.Born.awaited {notes : List Deed} {child pid : Pid} {ended : Bool}
    (h : base.Born child notes) : base.Born child (notes ++ [.awaited pid ended]) :=
  h.snoc h.since.awaited rfl

theorem Base.Since.born {notes : List Deed} {pid : Pid} (h : base.Since notes) :
    base.Born pid (notes ++ [.created pid]) := by
  refine ⟨h.snoc fun _ => rfl, ?_⟩
  rcases h with ⟨more, rfl, -⟩
  exact ⟨more ++ [.created pid], List.append_assoc .., newest_snoc more _⟩

theorem lasting_guardedBy {H : ReplaySession → Pid → Prop} (hH : ∀ s p, H s p → s.Holds p) :
    Lasting base (GuardedBy base H) where
  awaited _ _ _ _ h := ⟨h.start.awaited, h.custody.awaited⟩
  strayed s _ h := ⟨h.start, .inl (h.custody.congr h.custody.leader (hH s))⟩

theorem lasting_guarded : Lasting base (Guarded base) := lasting_guardedBy fun _ _ h => h

theorem lasting_unclaimedBy {H : ReplaySession → Pid → Prop} {child : Pid}
    (hH : ∀ s p, H s p → s.Holds p) : Lasting base (UnclaimedBy base H child) where
  awaited _ _ _ _ h := ⟨h.created.awaited, h.custody.awaited⟩
  strayed s _ h := ⟨h.created.since, .inr ⟨child, h.created,
    h.custody.congr h.custody.leader (hH s)⟩⟩

theorem lasting_unclaimed {child : Pid} : Lasting base (Unclaimed base child) :=
  lasting_unclaimedBy fun _ _ h => h

namespace Lasting

variable (h : Lasting base G)
include h

theorem weaken (w : World (Monitored Deed ω)) (hw : Seen G w) : Seen (Strayed base) w :=
  h.strayed _ _ hw

theorem silent {ε : Type} {err : ε → ReplayError} {call : Call ω ε α} :
    Tends base G (osOr err (Monitored.silent call)) :=
  silent_seen.mono (fun _ hw => hw) (fun _ _ hw => hw) (fun _ w hw => h.weaken w hw)

/-- A task whose end was reported is not alive. -/
theorem waitpid (pid : Pid) (flags : WaitFlags) :
    Spec (Seen G) (os (Ptrace.waitpid arch pid flags) : Method (Monitored Deed ω) WaitStatus)
      (fun status => Seen fun s notes =>
        G s notes ∧ (Deed.isEnd (.ok status) = true → pid ∉ alive notes))
      (fun _ => Seen (Strayed base)) := by
  refine noting_seen ?_ ?_
  · intro s notes status hs
    refine ⟨h.awaited s notes pid _ hs, ?_⟩
    intro hend
    rw [Deed.ofWait, hend]
    exact not_alive_ended
  · intro s notes e hs
    exact h.strayed _ _ (h.awaited s notes pid _ hs)

theorem wait (pid : Pid) (flags : WaitFlags) :
    Tends base G (os (Ptrace.waitpid arch pid flags) : Method (Monitored Deed ω) WaitStatus) :=
  (h.waitpid pid flags).mono (fun _ hw => hw) (fun _ _ hw => hw.1) (fun _ _ hw => hw)

theorem fail {e : ReplayError} : Tends base G (Run.fail e : Method (Monitored Deed ω) α) :=
  Upholds.fail h.weaken

theorem orFail {ε : Type} {err : ε → ReplayError} {x : Except ε α} :
    Tends base G (orFail err x : Method (Monitored Deed ω) α) :=
  orFail_upkeep.mono (fun _ hw => hw) (fun _ _ hw => hw) (fun _ w hw => h.weaken w hw)

/-! ## A stopped task -/

theorem read (pid : Pid) :
    Tends base G (Regs.read arch pid : Method (Monitored Deed ω) Registers) :=
  Upholds.bind h.silent fun _ => Upholds.pure

theorem suppressSyscall (pid : Pid) :
    Tends base G (Regs.suppressSyscall arch pid : Method (Monitored Deed ω) Unit) := by
  cases arch with
  | x86_64 => exact Upholds.bind h.silent fun _ => h.silent
  | aarch64 => exact h.silent

theorem setReturn (pid : Pid) (ret : Int64) :
    Tends base G (Regs.setReturn arch pid ret : Method (Monitored Deed ω) Unit) :=
  Upholds.bind h.silent fun _ => h.silent

/-- Writing memory creates no task and ends none. -/
theorem writeMemory (pid : Pid) (addr : UInt64) (data : Bytes) :
    Tends base G (writeMemory arch pid addr data : Method (Monitored Deed ω) Unit) := by
  unfold Replay.writeMemory
  split
  · exact Upholds.pure
  · refine Upholds.bind h.silent fun written => ?_
    split
    · exact h.fail
    · exact Upholds.pure

theorem readMemory (pid : Pid) (addr : UInt64) (len : Nat) :
    Tends base G (readMemory arch pid addr len : Method (Monitored Deed ω) Bytes) :=
  Upholds.bind h.silent fun _ => Upholds.pure

theorem arm (pid : Pid) (addr : UInt64) (len : UInt8) (kind : WatchKind) :
    Tends base G (WatchHw.arm arch pid addr len kind : Method (Monitored Deed ω) Unit) := by
  cases arch with
  | x86_64 => exact Upholds.bind h.orFail fun _ => Upholds.bind h.silent fun _ => h.silent
  | aarch64 => exact Upholds.bind h.orFail fun _ => h.silent

theorem disarm (pid : Pid) :
    Tends base G (WatchHw.disarm arch pid : Method (Monitored Deed ω) Unit) := by
  cases arch with
  | x86_64 => exact h.silent
  | aarch64 => exact h.silent

theorem isWatchHit (pid : Pid) :
    Tends base G (isWatchHit arch pid : Method (Monitored Deed ω) Bool) := by
  refine Upholds.bind self_upkeep fun s => ?_
  split
  · exact Upholds.pure
  · exact Upholds.bind h.silent fun _ => Upholds.pure

/-- On arm64 the step is a wait of its own. -/
theorem stepOverWatch (pid : Pid) :
    Tends base G (stepOverWatch arch pid : Method (Monitored Deed ω) Unit) := by
  cases arch with
  | x86_64 => exact h.silent
  | aarch64 =>
    refine Upholds.bind self_upkeep fun s => ?_
    split
    · exact Upholds.pure
    · refine Upholds.bind (h.disarm pid) fun _ => ?_
      refine Upholds.bind h.silent fun _ => ?_
      refine Upholds.bind (h.wait pid .wall) fun status => ?_
      split
      · exact h.arm pid _ _ _
      · exact h.fail

end Lasting

/-! ## Updates of the session -/

/-- The session holds the same tasks in the same places. -/
structure SamePlaces (s s' : ReplaySession) : Prop where
  pid : s'.pid = s.pid
  finished : s'.finished = s.finished
  mt : s'.mt = s.mt
  checkpoints : s'.checkpoints = s.checkpoints

/-- Custody looks at the four places only. -/
theorem SamePlaces.custody {s s' : ReplaySession} {notes : List Deed} {new : Option Pid}
    (hsame : SamePlaces s s') (h : Custody ReplaySession.Holds new s notes) :
    Custody ReplaySession.Holds new s' notes := by
  refine h.congr ?_ ?_
  · intro mt hmt
    rw [hsame.mt] at hmt
    rw [hsame.pid]
    exact h.leader mt hmt
  · unfold ReplaySession.Holds ReplaySession.Follows
    rw [hsame.pid, hsame.finished, hsame.mt, hsame.checkpoints]
    exact fun p hp => hp

theorem tends_modify {f : ReplaySession → ReplaySession} (hf : ∀ s, SamePlaces s (f s)) :
    Tends base (Guarded base) (modifySelf f : Method (Monitored Deed ω) Unit) :=
  modifySelf_upkeep fun w hw => ⟨hw.start, (hf w.session).custody hw.custody⟩

/-- An update of the thread state that lets no thread go. -/
theorem tends_modifyState {f : MtState → MtState} (hleader : ∀ mt, (f mt).leader = mt.leader)
    (hthreads : ∀ (mt : MtState) (p : Pid), (mt.threads[p]?).isSome = true →
      ((f mt).threads[p]?).isSome = true) :
    Tends base (Guarded base) (Mt.modifyState f : Method (Monitored Deed ω) Unit) := by
  refine Spec.bind state_upkeep fun mt => modifySelf_upkeep ?_
  rintro w ⟨hmt, hstart, hw⟩
  refine ⟨hstart, hw.congr ?_ ?_⟩
  · intro mt' hmt'
    rcases Option.some.inj hmt' with rfl
    rw [hleader]
    exact hw.leader mt hmt
  · rintro p (hactive | ⟨mt', hmt', hp⟩ | hsnapshot)
    · exact .inl hactive
    · rw [hmt] at hmt'
      rcases Option.some.inj hmt' with rfl
      exact .inr (.inl ⟨_, rfl, hthreads mt p hp⟩)
    · exact .inr (.inr hsnapshot)

/-- Changing what is kept of a thread does not drop it. -/
theorem tends_modifyThread (live : Pid) (f : ThreadRt → ThreadRt) :
    Tends base (Guarded base)
      (Mt.modifyState fun mt => Mt.MtState.modifyThread mt live f :
        Method (Monitored Deed ω) Unit) := by
  refine tends_modifyState ?_ ?_
  · intro mt
    unfold Mt.MtState.modifyThread
    split
    · rfl
    · rfl
  · intro mt p hp
    unfold Mt.MtState.modifyThread
    split
    · rw [KeyMap.get_insert]
      split
      · rfl
      · exact hp
    · exact hp

variable [Unwind ω]

omit [Ptrace arch ω] in
theorem tends_captureBacktrace (pid : Pid) :
    Tends base (Guarded base) (captureBacktrace pid : Method (Monitored Deed ω) _) := by
  refine Upholds.bind self_upkeep fun s => ?_
  refine Upholds.bind (tends_modify fun _ => ⟨rfl, rfl, rfl, rfl⟩) fun _ => ?_
  have hunwinder : Tends base (Guarded base)
      (unwinderFor pid s.unwinder : Method (Monitored Deed ω) RemoteUnwinder) := by
    cases s.unwinder with
    | some unwinder => exact Upholds.pure
    | none => exact Upholds.bind lasting_guarded.silent fun _ => Upholds.pure
  refine Upholds.bind hunwinder fun unwinder => ?_
  refine Upholds.bind lasting_guarded.silent fun pc => ?_
  refine Upholds.bind lasting_guarded.silent fun frames => ?_
  exact Upholds.bind (tends_modify fun _ => ⟨rfl, rfl, rfl, rfl⟩) fun _ => Upholds.pure

/-- A hit is serviced at the thread that stopped. -/
theorem tends_onWatchHit (pid : Pid) :
    Tends base (Guarded base) (onWatchHit arch pid : Method (Monitored Deed ω) Unit) := by
  refine Upholds.bind self_upkeep fun s => ?_
  split
  · exact Upholds.pure
  · refine Upholds.bind (tends_captureBacktrace pid) fun trace => ?_
    refine Upholds.bind (lasting_guarded.stepOverWatch pid) fun _ => ?_
    refine Upholds.bind (lasting_guarded.readMemory pid _ _) fun value => ?_
    exact tends_modify fun _ => ⟨rfl, rfl, rfl, rfl⟩

/-! ## Running a thread -/

/-- What the last stop of a thread says: if it was its end, the thread is not alive. -/
def Concluded (base : Base) (live : Pid) (status : WaitStatus) (s : ReplaySession)
    (notes : List Deed) : Prop :=
  Guarded base s notes ∧ (Deed.isEnd (.ok status) = true → live ∉ alive notes)

/-- A round of waiting: the stop is one of a thread that lives, or its end. -/
theorem stepRound_tends (live : Pid) (sig : Option Signal) :
    Spec (Seen (Guarded base))
      (Mt.stepRound arch live sig : Method (Monitored Deed ω) (Option WaitStatus))
      (Round (Seen (Guarded base)) fun status => Seen (Concluded base live status))
      (fun _ => Seen (Strayed base)) := by
  refine Spec.bind (lasting_guarded.silent) fun _ => ?_
  refine Spec.bind (lasting_guarded.waitpid live .wall) fun status => ?_
  split
  · split
    · exact Spec.pure fun _ hw => hw.1
    · exact Spec.pure fun _ hw => hw
  · rename_i q
    refine Spec.bind (Q := fun _ => Seen (Guarded base))
      ((lasting_guarded.isWatchHit live).mono (fun _ hw => hw.1) (fun _ _ hw => hw)
        (fun _ _ hw => hw)) fun hit => ?_
    split
    · exact Spec.bind (tends_onWatchHit live) fun _ => Spec.pure fun _ hw => hw
    · exact Spec.pure fun _ hw => ⟨hw, nofun⟩
  · exact Spec.pure fun _ hw => hw

/-- After a step the thread has stopped, or it is gone. -/
theorem stepThread_tends (live : Pid) (sig : Option Signal) :
    Spec (Seen (Guarded base))
      (Mt.stepThread arch live sig : Method (Monitored Deed ω) WaitStatus)
      (fun status => Seen (Concluded base live status)) (fun _ => Seen (Strayed base)) := by
  refine Spec.bind (stepRound_tends live sig) fun status => ?_
  cases status with
  | some status => exact Spec.pure fun _ hw => hw
  | none => exact Spec.loop (stepRound_tends live none)

/-- Where the end of the thread does not matter. -/
theorem stepThread_keeps_custody (live : Pid) (sig : Option Signal) :
    Tends base (Guarded base)
      (Mt.stepThread arch live sig : Method (Monitored Deed ω) WaitStatus) :=
  (stepThread_tends live sig).mono (fun _ hw => hw) (fun _ _ hw => hw.1) (fun _ _ hw => hw)

/-! ## The multi-threaded driver -/

omit [Ptrace arch ω] [Unwind ω] in
theorem tends_takeResumeSignal (live : Pid) :
    Tends base (Guarded base)
      (Mt.takeResumeSignal live : Method (Monitored Deed ω) (Option Signal)) :=
  Upholds.bind state_keeps_upkeep fun _ =>
    Upholds.bind (tends_modifyThread live _) fun _ => Upholds.pure

omit [Ptrace arch ω] [Unwind ω] in
theorem tends_takePending (live : Pid) :
    Tends base (Guarded base)
      (Mt.takePending live : Method (Monitored Deed ω) (Option PendingSys)) :=
  Upholds.bind state_keeps_upkeep fun _ =>
    Upholds.bind (tends_modifyThread live _) fun _ => Upholds.pure

omit [Ptrace arch ω] [Unwind ω] in
theorem tends_advance (seq : UInt64) :
    Tends base (Guarded base) (Mt.advance seq : Method (Monitored Deed ω) Unit) :=
  tends_modify fun _ => ⟨rfl, rfl, rfl, rfl⟩

omit [Ptrace arch ω] [Unwind ω] in
theorem tends_enforceTid (record : Record) :
    Tends base (Guarded base) (Mt.enforceTid record : Method (Monitored Deed ω) UInt32) := by
  unfold Mt.enforceTid
  split
  · exact lasting_guarded.fail
  · refine Upholds.bind state_keeps_upkeep fun mt => ?_
    split
    · exact Upholds.bind (tends_modifyState (fun _ => rfl) fun _ _ hp => hp) fun _ => Upholds.pure
    · split
      · exact Upholds.pure
      · exact lasting_guarded.fail

omit [Ptrace arch ω] [Unwind ω] in
theorem tends_liveFor (tid : UInt32) (seq : UInt64) :
    Tends base (Guarded base) (Mt.liveFor tid seq : Method (Monitored Deed ω) Pid) := by
  refine Upholds.bind state_keeps_upkeep fun mt => ?_
  split
  · exact Upholds.pure
  · split
    · refine Upholds.bind lasting_guarded.orFail fun tidmap => ?_
      exact Upholds.bind (tends_modifyState (fun _ => rfl) fun _ _ hp => hp) fun _ => Upholds.pure
    · exact lasting_guarded.fail

omit [Ptrace arch ω] [Unwind ω] in
/-- A record that names a thread: what follows once the thread is found. -/
theorem tends_atThread {record : Record} {f : UInt32 → Pid → Method (Monitored Deed ω) α}
    (hf : ∀ tid live, Tends base (Guarded base) (f tid live)) :
    Tends base (Guarded base) (do
      let tid ← Mt.enforceTid record
      let live ← Mt.liveFor tid record.seq
      f tid live) :=
  Upholds.bind (tends_enforceTid record) fun tid =>
    Upholds.bind (tends_liveFor tid _) fun live => hf tid live

omit [Ptrace arch ω] [Unwind ω] in
theorem tends_onSchedSwitch (record : Record) :
    Tends base (Guarded base) (Mt.onSchedSwitch record : Method (Monitored Deed ω) Unit) := by
  refine Upholds.bind lasting_guarded.orFail fun switch => ?_
  exact Upholds.bind (tends_modifyState (fun _ => rfl) fun _ _ hp => hp) fun _ => tends_advance _

/-- The handlers of the syscall records follow and create nobody. -/
theorem tends_onSyscallEnter (record : Record) :
    Tends base (Guarded base) (Mt.onSyscallEnter arch record : Method (Monitored Deed ω) Unit) := by
  refine tends_atThread fun tid live => ?_
  refine Upholds.bind (tends_takeResumeSignal live) fun sig => ?_
  refine Upholds.bind (stepThread_keeps_custody live sig) fun status => ?_
  split
  · refine Upholds.bind (lasting_guarded.read live) fun regs => ?_
    refine Upholds.bind (tends_modify fun _ => ⟨rfl, rfl, rfl, rfl⟩) fun _ => ?_
    refine Upholds.bind lasting_guarded.orFail fun enter => ?_
    split
    · exact lasting_guarded.fail
    · refine Upholds.bind (Upholds.when (lasting_guarded.suppressSyscall live)) fun _ => ?_
      exact Upholds.bind (tends_modifyThread live _) fun _ => tends_advance _
  · exact lasting_guarded.fail

theorem tends_onSyscallExit (record : Record) :
    Tends base (Guarded base) (Mt.onSyscallExit arch record : Method (Monitored Deed ω) Unit) := by
  refine tends_atThread fun tid live => ?_
  refine Upholds.bind (stepThread_keeps_custody live none) fun status => ?_
  split
  · refine Upholds.bind (lasting_guarded.read live) fun regs => ?_
    refine Upholds.bind (tends_modify fun _ => ⟨rfl, rfl, rfl, rfl⟩) fun _ => ?_
    refine Upholds.bind lasting_guarded.orFail fun exit => ?_
    refine Upholds.bind (tends_takePending live) fun pending => ?_
    split
    · exact lasting_guarded.fail
    · refine Upholds.bind (Upholds.when ?_) fun _ => tends_advance _
      split
      · exact Upholds.bind (lasting_guarded.writeMemory live _ _) fun _ =>
          lasting_guarded.setReturn live _
      · exact lasting_guarded.setReturn live _
  · exact lasting_guarded.fail

theorem tends_onSignal (record : Record) :
    Tends base (Guarded base) (Mt.onSignal arch record : Method (Monitored Deed ω) Unit) := by
  refine tends_atThread fun tid live => ?_
  refine Upholds.bind (tends_takeResumeSignal live) fun sig => ?_
  refine Upholds.bind (stepThread_keeps_custody live sig) fun status => ?_
  split
  · refine Upholds.bind lasting_guarded.orFail fun recorded => ?_
    split
    · exact lasting_guarded.fail
    · exact Upholds.bind (tends_modifyThread live _) fun _ => tends_advance _
  · exact lasting_guarded.fail

/-! ## A thread is born, a thread ends -/

omit [Unwind ω] in
/-- A creation event tells of a new task. -/
theorem getevent_tends {H : ReplaySession → Pid → Prop} (hH : ∀ s p, H s p → s.Holds p)
    (parent : Pid) :
    Spec (Seen (GuardedBy base H))
      (os (Ptrace.getevent arch parent) : Method (Monitored Deed ω) Pid)
      (fun child => Seen (UnclaimedBy base H child)) (fun _ => Seen (Strayed base)) := by
  refine noting_seen ?_ ?_
  · intro s notes child hs
    exact ⟨hs.start.born, hs.custody.created⟩
  · intro s notes e hs
    rw [Deed.ofCreation, List.append_nil]
    exact (lasting_guardedBy hH).strayed s notes hs

omit [Unwind ω] in
/-- The first stop of the new task, which is not claimed yet. -/
theorem tends_registerChild (child : Pid) (seq : UInt64) :
    Tends base (Unclaimed base child)
      (Mt.registerChild arch child seq : Method (Monitored Deed ω) Unit) := by
  refine Upholds.bind (lasting_unclaimed.wait child .wall) fun status => ?_
  split
  · exact lasting_unclaimed.silent
  · exact lasting_unclaimed.silent
  · exact lasting_unclaimed.fail

omit [Ptrace arch ω] [Unwind ω] in
/-- The new task is followed. -/
theorem tends_bindChild (seq : UInt64) (tid : UInt32) (child parent : Pid) (vforked : Bool) :
    Spec (Seen (Unclaimed base child))
      (Mt.bindChild seq tid child parent vforked : Method (Monitored Deed ω) Unit)
      (fun _ => Seen (Guarded base)) (fun _ => Seen (Strayed base)) := by
  refine Spec.bind (Q := fun _ => Seen (Unclaimed base child)) state_keeps_upkeep fun mt => ?_
  refine Spec.bind (Q := fun _ => Seen (Unclaimed base child)) lasting_unclaimed.orFail
    fun tidmap => ?_
  refine Spec.bind state_upkeep fun mt => modifySelf_upkeep ?_
  rintro w ⟨hmt, hcreated, hw⟩
  refine ⟨hcreated.since, ?_, ?_⟩
  · intro mt' hmt'
    rcases Option.some.inj hmt' with rfl
    exact hw.leader mt hmt
  · -- The new task is in the table, and whoever was held is still.
    intro hanswered p hp
    right
    rcases hw.held hanswered p hp with hnew | hactive | ⟨mt', hmt', hthread⟩ | hsnapshot
    · rcases Option.some.inj hnew with rfl
      refine .inr (.inl ⟨_, rfl, ?_⟩)
      rw [KeyMap.get_insert, if_pos rfl]
      rfl
    · exact .inl hactive
    · rw [hmt] at hmt'
      rcases Option.some.inj hmt' with rfl
      refine .inr (.inl ⟨_, rfl, ?_⟩)
      rw [KeyMap.get_insert]
      split
      · rfl
      · exact hthread
    · exact .inr (.inr hsnapshot)

omit [Unwind ω] in
/-- A debug register of the child is no place. -/
theorem tends_armChild (child : Pid) :
    Tends base (Guarded base) (Mt.armChild arch child : Method (Monitored Deed ω) Unit) := by
  refine Upholds.bind self_upkeep fun s => ?_
  split
  · exact lasting_guarded.arm child _ _ _
  · exact Upholds.pure

/-- From the event that creates the task to the place that holds it. -/
theorem tends_onThreadSpawn (record : Record) :
    Tends base (Guarded base) (Mt.onThreadSpawn arch record : Method (Monitored Deed ω) Unit) := by
  refine tends_atThread fun tid parent => ?_
  refine Upholds.bind lasting_guarded.orFail fun spawn => ?_
  refine Upholds.bind (tends_takeResumeSignal parent) fun sig => ?_
  refine Upholds.bind (stepThread_keeps_custody parent sig) fun status => ?_
  split
  · split
    · refine Spec.bind (getevent_tends (fun _ _ h => h) parent) fun child => ?_
      refine Spec.bind (tends_registerChild child _) fun _ => ?_
      refine Spec.bind (tends_bindChild _ _ child parent _) fun _ => ?_
      exact Spec.bind (tends_armChild child) fun _ => tends_advance _
    · exact lasting_guarded.fail
  · exact lasting_guarded.fail

omit [Unwind ω] in
theorem isEnd_of_exitOutcome {status : WaitStatus} {outcome : ExitOutcome}
    (h : Mt.exitOutcome status = some outcome) : Deed.isEnd (.ok status) = true := by
  cases status with
  | exited | signaled => rfl
  | _ => cases h

/-- A thread that ended is let go; the end of the leader is the end of the session. -/
theorem tends_onThreadExit (record : Record) :
    Tends base (Guarded base)
      (Mt.onThreadExit arch record : Method (Monitored Deed ω) (Option ExitOutcome)) := by
  refine tends_atThread fun tid live => ?_
  refine Upholds.bind (tends_takeResumeSignal live) fun sig => ?_
  refine Spec.bind (stepThread_tends live sig) fun status => ?_
  split
  · exact lasting_guarded.fail.mono (fun _ hw => hw.1) (fun _ _ hw => hw) (fun _ _ hw => hw)
  · rename_i outcome houtcome
    have hend := isEnd_of_exitOutcome houtcome
    -- the thread is not alive from here on, so it need not be held
    let Gone (mt : MtState) (s : ReplaySession) (notes : List Deed) : Prop :=
      Guarded base s notes ∧ live ∉ alive notes ∧ mt.leader = s.pid
    refine Spec.bind (Q := fun mt => Seen (Gone mt)) ?_ fun mt => ?_
    · refine state_upkeep.mono (fun _ hw => hw) ?_ (fun _ _ hw => hw)
      rintro mt w ⟨hmt, hkept, hgone⟩
      exact ⟨hkept, hgone hend, hkept.custody.leader mt hmt⟩
    refine Spec.bind (Q := fun _ => Seen (Gone mt)) ?_ fun _ => ?_
    · refine Spec.bind state_upkeep fun mt' => modifySelf_upkeep ?_
      rintro w ⟨hmt', ⟨hstart, hcustody⟩, hgone, hleader⟩
      refine ⟨⟨hstart, ?_, ?_⟩, hgone, hleader⟩
      · intro mt'' hmt''
        rcases Option.some.inj hmt'' with rfl
        exact hcustody.leader mt' hmt'
      · intro hanswered p hp
        have hne : live ≠ p := fun heq => hgone (heq ▸ hp)
        rcases hcustody.held hanswered p hp with hnew | hactive | ⟨mt'', hmt'', hthread⟩ | hsnapshot
        · cases hnew
        · exact .inr (.inl hactive)
        · rw [hmt'] at hmt''
          rcases Option.some.inj hmt'' with rfl
          refine .inr (.inr (.inl ⟨_, rfl, ?_⟩))
          rw [KeyMap.get_erase, if_neg hne]
          exact hthread
        · exact .inr (.inr (.inr hsnapshot))
    refine Spec.bind (Q := fun _ => Seen (Gone mt)) ?_ fun _ => ?_
    · refine modifySelf_upkeep ?_
      rintro w ⟨⟨hstart, hcustody⟩, hgone, hleader⟩
      have hsame : SamePlaces w.session { w.session with
        currentSeq := some record.seq, cursor := w.session.cursor + 1 } := ⟨rfl, rfl, rfl, rfl⟩
      exact ⟨⟨hstart, hsame.custody hcustody⟩, hgone, hleader⟩
    split
    · rename_i hlive
      refine Spec.bind (Q := fun _ => Seen (Guarded base)) (modifySelf_upkeep ?_) fun _ =>
        Spec.pure fun _ hw => hw
      rintro w ⟨⟨hstart, hcustody⟩, hgone, hleader⟩
      refine ⟨hstart, hcustody.leader, ?_⟩
      intro hanswered p hp
      rcases hcustody.held hanswered p hp with hnew | ⟨rfl, -⟩ | hfollows | hsnapshot
      · cases hnew
      · rw [hlive, hleader] at hgone
        exact absurd hp hgone
      · exact .inr (.inr (.inl hfollows))
      · exact .inr (.inr (.inr hsnapshot))
    · exact Spec.pure fun _ hw => hw.1

theorem tends_onRecord (record : Record) :
    Tends base (Guarded base)
      (Mt.onRecord arch record : Method (Monitored Deed ω) (Option ExitOutcome)) := by
  unfold Mt.onRecord
  split
  · exact Upholds.bind (tends_modify fun _ => ⟨rfl, rfl, rfl, rfl⟩) fun _ => Upholds.pure
  · exact Upholds.bind (tends_onSchedSwitch record) fun _ => Upholds.pure
  · exact Upholds.bind (tends_onSyscallEnter record) fun _ => Upholds.pure
  · exact Upholds.bind (tends_onSyscallExit record) fun _ => Upholds.pure
  · exact Upholds.bind (tends_onThreadSpawn record) fun _ => Upholds.pure
  · exact tends_onThreadExit record
  · exact Upholds.bind (tends_onSignal record) fun _ => Upholds.pure
  · exact lasting_guarded.fail

/-- Driving a replay that is not finished. -/
theorem tends_mtDrive (stopAt : Option UInt64) :
    Tends base (Guarded base) (Mt.drive arch stopAt : Method (Monitored Deed ω) ExitOutcome) := by
  have hensure : Tends base (Guarded base)
      (Mt.ensureState arch : Method (Monitored Deed ω) Unit) := by
    refine Spec.bind self_spec_upkeep fun s => ?_
    split
    · exact Spec.pure fun _ hw => hw.2
    · rename_i hmt
      -- The thread table is made of the active tracee, where the session holds it already.
      have hoptions : Spec (fun w => w.session.mt = none ∧ Seen (Guarded base) w)
          (os (Ptrace.setoptions arch s.pid Mt.mtTraceOptions) : Method (Monitored Deed ω) Unit)
          (fun _ w => w.session.mt = none ∧ Seen (Guarded base) w) (fun _ => Seen (Strayed base)) :=
        ((os_keeps (P := fun t => t.mt = none)).and lasting_guarded.silent).mono (fun _ hw => hw)
          (fun _ _ hw => hw) (fun _ _ hw => hw.2)
      refine Spec.bind (hoptions.mono ?_ (fun _ _ hw => hw) (fun _ _ hw => hw)) fun _ =>
        modifySelf_upkeep ?_
      · rintro w ⟨rfl, hw⟩
        exact ⟨hmt, hw⟩
      · rintro w ⟨hmt, hstart, hw⟩
        refine ⟨hstart, hw.congr ?_ ?_⟩
        · intro mt hmt
          rcases Option.some.inj hmt with rfl
          rfl
        · rintro p (hactive | ⟨mt, hmt', -⟩ | hsnapshot)
          · exact .inl hactive
          · rw [hmt] at hmt'
            cases hmt'
          · exact .inr (.inr hsnapshot)
  refine Upholds.bind hensure fun _ => Upholds.loop ?_
  refine Upholds.bind self_upkeep fun s => ?_
  split
  · exact Upholds.pure
  · split
    · exact lasting_guarded.fail
    · exact tends_onRecord _

/-! ## Snapshots -/

omit [Unwind ω] in
/-- A fork makes a new task, which is held by its maker once it is done. -/
theorem forkSnapshot_tends {H : ReplaySession → Pid → Prop} (hH : ∀ s p, H s p → s.Holds p)
    (pid : Pid) :
    Spec (Seen (GuardedBy base H)) (forkSnapshot arch pid : Method (Monitored Deed ω) Pid)
      (fun child => Seen (UnclaimedBy base H child)) (fun _ => Seen (Strayed base)) := by
  have hlasting : Lasting base (GuardedBy base H) := lasting_guardedBy hH
  refine Spec.bind (Q := fun _ => Seen (GuardedBy base H)) hlasting.silent fun saved => ?_
  refine Spec.bind (Q := fun _ => Seen (GuardedBy base H)) hlasting.silent fun _ => ?_
  refine Spec.bind (Q := fun _ => Seen (GuardedBy base H)) hlasting.silent fun _ => ?_
  -- Until here the session is whole; from the event on there is a child outside of it.
  have hfork : Spec (Seen (GuardedBy base H))
      (waitForForkChild arch pid : Method (Monitored Deed ω) Pid)
      (fun child => Seen (UnclaimedBy base H child)) (fun _ => Seen (Strayed base)) := by
    refine Spec.bind (hlasting.wait pid .none) fun status => ?_
    split
    · split
      · exact getevent_tends hH pid
      · exact Spec.fail fun w hw => hlasting.weaken w hw
    · exact Spec.fail fun w hw => hlasting.weaken w hw
  refine Spec.bind hfork fun child => ?_
  have hchild : Lasting base (UnclaimedBy base H child) := lasting_unclaimedBy hH
  have hreap : Tends base (UnclaimedBy base H child)
      (reapForkChild arch child : Method (Monitored Deed ω) Unit) := by
    refine Upholds.bind (hchild.wait child .none) fun status => ?_
    split
    · exact Upholds.pure
    · exact Upholds.pure
    · exact hchild.fail
  have hclone : Tends base (UnclaimedBy base H child)
      (reapCloneExit arch pid : Method (Monitored Deed ω) Unit) := by
    refine Upholds.bind hchild.silent fun _ => ?_
    refine Upholds.bind (hchild.wait pid .none) fun status => ?_
    split
    · exact Upholds.pure
    · exact hchild.fail
  refine Spec.bind hreap fun _ => ?_
  refine Spec.bind (Q := fun _ => Seen (UnclaimedBy base H child)) hchild.silent
    fun _ => ?_
  refine Spec.bind hclone fun _ => ?_
  refine Spec.bind (Q := fun _ => Seen (UnclaimedBy base H child)) hchild.silent
    fun _ => ?_
  refine Spec.bind (Q := fun _ => Seen (UnclaimedBy base H child)) hchild.silent
    fun _ => ?_
  exact Spec.pure fun _ hw => hw

omit [Unwind ω] in
/-- The child of the fork is claimed by the new checkpoint. -/
theorem tends_maybeCheckpoint :
    Tends base (Guarded base) (maybeCheckpoint arch : Method (Monitored Deed ω) Unit) := by
  refine Upholds.bind self_upkeep fun s => ?_
  split
  · exact Upholds.pure
  split
  · exact Upholds.pure
  split
  · exact Upholds.pure
  split
  · exact Upholds.pure
  · refine Spec.bind (forkSnapshot_tends (fun _ _ h => h) s.pid) fun snapshot =>
      modifySelf_upkeep ?_
    rintro w ⟨hcreated, hw⟩
    refine ⟨hcreated.since, hw.leader, ?_⟩
    intro hanswered p hp
    right
    rcases hw.held hanswered p hp with hnew | hactive | hfollows | ⟨c, hc, hsnapshot⟩
    · rcases Option.some.inj hnew with rfl
      exact .inr (.inr ⟨_, List.mem_append_right _ (List.mem_singleton.mpr rfl), rfl⟩)
    · exact .inl hactive
    · exact .inr (.inl hfollows)
    · exact .inr (.inr ⟨c, List.mem_append_left _ hc, hsnapshot⟩)

/-! ## The single-tracee driver -/

omit [Ptrace arch ω] [Unwind ω] in
theorem tends_nextRecord :
    Tends base (Guarded base) (nextRecord : Method (Monitored Deed ω) Record) := by
  refine Upholds.bind (tends_modify fun _ => ⟨rfl, rfl, rfl, rfl⟩) fun _ => ?_
  refine Upholds.bind self_upkeep fun s => ?_
  split
  · exact lasting_guarded.fail
  · exact Upholds.bind (tends_modify fun _ => ⟨rfl, rfl, rfl, rfl⟩) fun _ => Upholds.pure

omit [Unwind ω] in
/-- Neither half of a call moves a task from its place. -/
theorem tends_onSyscallStop :
    Tends base (Guarded base) (onSyscallStop arch : Method (Monitored Deed ω) Unit) := by
  refine Upholds.bind self_upkeep fun s => ?_
  refine Upholds.bind (lasting_guarded.read s.pid) fun regs => ?_
  refine Upholds.bind (tends_modify fun _ => ⟨rfl, rfl, rfl, rfl⟩) fun _ => ?_
  split
  · refine Upholds.bind tends_nextRecord fun record => ?_
    split
    · refine Upholds.bind lasting_guarded.orFail fun enter => ?_
      split
      · exact lasting_guarded.fail
      · refine Upholds.bind (tends_modify fun _ => ⟨rfl, rfl, rfl, rfl⟩) fun _ => ?_
        refine Upholds.bind self_upkeep fun s => ?_
        refine Upholds.bind (Upholds.when (lasting_guarded.suppressSyscall s.pid)) fun _ => ?_
        exact tends_modify fun _ => ⟨rfl, rfl, rfl, rfl⟩
    · exact lasting_guarded.fail
  · refine Upholds.bind tends_nextRecord fun record => ?_
    split
    · refine Upholds.bind lasting_guarded.orFail fun exit => ?_
      refine Upholds.bind (tends_modify fun _ => ⟨rfl, rfl, rfl, rfl⟩) fun _ => ?_
      split
      · refine Upholds.bind self_upkeep fun s => ?_
        exact Upholds.bind (lasting_guarded.writeMemory s.pid _ _) fun _ =>
          lasting_guarded.setReturn s.pid _
      · exact Upholds.pure
    · exact lasting_guarded.fail

omit [Ptrace arch ω] [Unwind ω] in
theorem tends_onSignalStop (signal : Signal) :
    Tends base (Guarded base) (onSignalStop signal : Method (Monitored Deed ω) Unit) := by
  have hmatch : Tends base (Guarded base)
      (matchSignal signal : Method (Monitored Deed ω) Unit) := by
    refine Upholds.bind self_upkeep fun s => ?_
    split
    · split
      · refine Upholds.bind lasting_guarded.orFail fun recorded => ?_
        split
        · exact lasting_guarded.fail
        · exact tends_modify fun _ => ⟨rfl, rfl, rfl, rfl⟩
      · exact Upholds.pure
    · exact Upholds.pure
  refine Upholds.bind (tends_modify fun _ => ⟨rfl, rfl, rfl, rfl⟩) fun _ => ?_
  exact Upholds.bind hmatch fun _ => tends_modify fun _ => ⟨rfl, rfl, rfl, rfl⟩

theorem tends_onStopped (pid : Pid) (signal : Signal) :
    Tends base (Guarded base) (onStopped arch pid signal : Method (Monitored Deed ω) Unit) := by
  unfold onStopped
  split
  · refine Upholds.bind (lasting_guarded.isWatchHit pid) fun hit => ?_
    split
    · exact tends_onWatchHit pid
    · exact tends_onSignalStop signal
  · exact tends_onSignalStop signal

/-- A round of the single-tracee driver: only an exit takes its tracee away, and that is reported.
-/
theorem tends_driveRound (stopAt : Option UInt64) :
    Tends base (Guarded base)
      (driveRound arch stopAt : Method (Monitored Deed ω) (Option ExitOutcome)) := by
  refine Spec.bind self_spec_upkeep fun s => ?_
  split
  · exact Spec.pure fun _ hw => hw.2
  -- the tracee that is resumed and waited for is the session's
  let Driven (w : World (Monitored Deed ω)) : Prop := w.session.pid = s.pid ∧ Seen (Guarded base) w
  refine Spec.bind (Q := fun _ => Driven) ?_ fun _ => ?_
  · refine modifySelf_upkeep ?_
    rintro w ⟨rfl, hstart, hw⟩
    have hsame : SamePlaces w.session { w.session with resumeSignal := none } :=
      ⟨rfl, rfl, rfl, rfl⟩
    exact ⟨rfl, hstart, hsame.custody hw⟩
  refine Spec.bind (Q := fun _ => Driven) ?_ fun _ => ?_
  · exact ((os_keeps (P := fun t => t.pid = s.pid)).and lasting_guarded.silent).mono
      (fun _ hw => hw) (fun _ _ hw => hw) (fun _ _ hw => hw.2)
  refine Spec.bind (((os_keeps (P := fun t => t.pid = s.pid)).and
    (lasting_guarded.waitpid s.pid .none)).mono (fun _ hw => hw) (fun _ _ hw => hw)
      (fun _ _ hw => hw.2)) fun status => ?_
  have hfinish (outcome : ExitOutcome) (hend : Deed.isEnd (.ok status) = true) :
      Spec (fun w : World (Monitored Deed ω) => On (fun t => t.pid = s.pid) w ∧
          Seen (fun t notes => Guarded base t notes ∧
            (Deed.isEnd (.ok status) = true → s.pid ∉ alive notes)) w)
        (finish outcome) (fun _ => Seen (Guarded base)) (fun _ => Seen (Strayed base)) := by
    refine Spec.bind (Q := fun _ => Seen (Guarded base)) (modifySelf_upkeep ?_) fun _ =>
      Spec.pure fun _ hw => hw
    rintro w ⟨hpid, ⟨hstart, hw⟩, hgone⟩
    refine ⟨hstart, hw.leader, ?_⟩
    intro hanswered p hp
    rcases hw.held hanswered p hp with hnew | ⟨heq, -⟩ | hfollows | hsnapshot
    · cases hnew
    · have hpid' : w.session.pid = s.pid := hpid
      rw [heq, hpid'] at hp
      exact absurd hp (hgone hend)
    · exact .inr (.inr (.inl hfollows))
    · exact .inr (.inr (.inr hsnapshot))
  have hkept {m : Method (Monitored Deed ω) (Option ExitOutcome)}
      (hm : Tends base (Guarded base) m) :
      Spec (fun w : World (Monitored Deed ω) => On (fun t => t.pid = s.pid) w ∧
          Seen (fun t notes => Guarded base t notes ∧
            (Deed.isEnd (.ok status) = true → s.pid ∉ alive notes)) w)
        m (fun _ => Seen (Guarded base)) (fun _ => Seen (Strayed base)) :=
    hm.mono (fun _ hw => hw.2.1) (fun _ _ hw => hw) (fun _ _ hw => hw)
  unfold onStatus
  split
  · refine hkept (Upholds.bind tends_onSyscallStop fun _ => ?_)
    exact Upholds.bind tends_maybeCheckpoint fun _ => Upholds.pure
  · exact hkept (Upholds.bind (tends_onStopped s.pid _) fun _ => Upholds.pure)
  · exact hfinish _ rfl
  · exact hfinish _ rfl
  · exact hkept Upholds.pure

/-- Both drivers, by their rounds. -/
theorem tends_drive (stopAt : Option UInt64) :
    Tends base (Guarded base) (drive arch stopAt : Method (Monitored Deed ω) ExitOutcome) := by
  refine Upholds.bind self_upkeep fun s => ?_
  split
  · exact Upholds.pure
  · split
    · exact tends_mtDrive stopAt
    · exact Upholds.loop (tends_driveRound stopAt)

end Walk

end Mirrorscope.Replay
