import Mirrorscope.Replay.Attribution

/-! # Arming and the request

The request for a watchpoint is stored once in the session, the debug registers are per
thread. As long as no access to them fails, every thread the session follows is armed
with the request, or disarmed if there is none.

The debug registers of a task are what the notes make of them, and the invariant is about the
notes:
* `debugRegs`: the registers of a task after all that was noted.
* `Requested`: every followed thread is armed with the request. `ArmedBut`: all but one task
  are.
* `Faultless`: from the outset of a call no access failed. `UnlessFault`: a condition that is
  not asked for after a failure.
* `Lifted`, `Newborn`, `Unarmed`: the one task, with its watchpoint off for a step, new, or not
  armed yet.
* `armed_upkeep`, `perform_armed`: the driver and the calls. `reachable_requested`: their runs.
-/

namespace Mirrorscope.Replay

open Capture Linux Run
open Trace (Cmdline Record)

variable {ω α : Type}

/-! ## Debug registers -/

/-- Slot 0 of a task's debug registers: `DR0` and `DR7`, or the first pair of the
`NT_ARM_HW_WATCH` regset. -/
structure DebugRegs where
  dr0 : UInt64 := 0
  dr7 : UInt64 := 0
  hwAddr : UInt64 := 0
  hwCtrl : UInt32 := 0
deriving DecidableEq, Repr

/-- Slot 0 is armed with exactly this range and kind. -/
def DebugRegs.Armed (regs : DebugRegs) (wp : Watchpoint) : Arch → Prop
  | .x86_64 => regs.dr0 = wp.addr ∧ x86Dr7 wp.kind wp.len = .ok regs.dr7
  | .aarch64 => aarch64Control wp.addr wp.len wp.kind = .ok (regs.hwAddr, regs.hwCtrl)

/-- Slot 0 is disarmed. -/
def DebugRegs.Disarmed (regs : DebugRegs) : Arch → Prop
  | .x86_64 => regs.dr7 = 0
  | .aarch64 => regs.hwCtrl = 0

/-- Slot 0 is as requested. -/
def DebugRegs.Matches (regs : DebugRegs) (arch : Arch) : Option Watchpoint → Prop
  | some wp => regs.Armed wp arch
  | none => regs.Disarmed arch

/-- What is seen of the debug registers: a task is created, a debug register is written, a
write to slot 0 fails, a task is stepped (or the step fails), a `__WALL` wait ends (with a
`SIGTRAP` stop or not), a read of memory fails. -/
inductive DebugNote where
  | born (pid : Pid)
  | poked (pid : Pid) (offset : Nat) (data : UInt64)
  | watched (pid : Pid) (addr : UInt64) (ctrl : UInt32)
  | refused
  | stepped (pid : Pid) (done : Bool)
  | waited (pid : Pid) (trap : Bool)
  | unread
deriving DecidableEq, Repr

namespace DebugNote

/-- Slot 0 of a task after one more note; a new task has it clear. -/
def apply (pid : Pid) (regs : DebugRegs) : DebugNote → DebugRegs
  | born q => if q = pid then {} else regs
  | poked q offset data =>
    if q = pid then
      if offset = WatchHw.dr0Offset then { regs with dr0 := data }
      else if offset = WatchHw.dr7Offset then { regs with dr7 := data }
      else regs
    else regs
  | watched q addr ctrl => if q = pid then { regs with hwAddr := addr, hwCtrl := ctrl } else regs
  | _ => regs

def ofBirth {ε : Type} : Except ε Pid → List DebugNote
  | .ok pid => [born pid]
  | .error _ => []

def ofStep (pid : Pid) : Except Errno Unit → List DebugNote
  | .ok _ => [stepped pid true]
  | .error _ => [stepped pid false]

def ofWait (pid : Pid) (flags : WaitFlags) (answer : Except Errno WaitStatus) : List DebugNote :=
  if flags = .wall then
    match answer with
    | .ok (.stopped _ .trap) => [waited pid true]
    | _ => [waited pid false]
  else []

def ofRead : Except Errno Bytes → List DebugNote
  | .ok _ => []
  | .error _ => [unread]

def ofPoke (pid : Pid) (offset : Nat) (data : UInt64) : Except Unit Unit → List DebugNote
  | .ok _ => [poked pid offset data]
  | .error _ => if offset = WatchHw.dr0Offset ∨ offset = WatchHw.dr7Offset then [refused] else []

def ofWatch (pid : Pid) (addr : UInt64) (ctrl : UInt32) : Except Unit Unit → List DebugNote
  | .ok _ => [watched pid addr ctrl]
  | .error _ => [refused]

end DebugNote

instance {arch : Arch} [Ptrace arch ω] : Ptrace arch (Monitored DebugNote ω) where
  spawnTraced cmdline := Monitored.noting DebugNote.ofBirth (Ptrace.spawnTraced arch cmdline)
  syscall pid sig := Monitored.silent (Ptrace.syscall arch pid sig)
  step pid := Monitored.noting (DebugNote.ofStep pid) (Ptrace.step arch pid)
  kill pid := Monitored.silent (Ptrace.kill arch pid)
  waitpid pid flags :=
    Monitored.noting (DebugNote.ofWait pid flags) (Ptrace.waitpid arch pid flags)
  setoptions pid options := Monitored.silent (Ptrace.setoptions arch pid options)
  getevent pid := Monitored.noting DebugNote.ofBirth (Ptrace.getevent arch pid)
  getregs pid := Monitored.silent (Ptrace.getregs pid)
  setregs pid regs := Monitored.silent (Ptrace.setregs pid regs)
  setSyscallNr pid nr := Monitored.silent (Ptrace.setSyscallNr arch pid nr)
  processVmReadv pid addr len :=
    Monitored.noting DebugNote.ofRead (Ptrace.processVmReadv arch pid addr len)
  processVmWritev pid addr data := Monitored.silent (Ptrace.processVmWritev arch pid addr data)
  pokeUser pid offset data :=
    Monitored.noting (DebugNote.ofPoke pid offset data) (Ptrace.pokeUser arch pid offset data)
  setHwWatch pid addr ctrl :=
    Monitored.noting (DebugNote.ofWatch pid addr ctrl) (Ptrace.setHwWatch arch pid addr ctrl)
  getsiginfo pid := Monitored.silent (Ptrace.getsiginfo arch pid)

instance [Unwind ω] : Unwind (Monitored DebugNote ω) where
  forPid pid := Monitored.silent (Unwind.forPid pid)
  registers pid := Monitored.silent (Unwind.registers pid)
  backtrace pid pc := Monitored.silent (Unwind.backtrace pid pc)

/-- Slot 0 of a task. -/
def debugRegs (notes : List DebugNote) (pid : Pid) : DebugRegs :=
  notes.foldl (DebugNote.apply pid) {}

/-- The threads a session follows; a single tracee that exited is not one. -/
def ReplaySession.followed (s : ReplaySession) : List Pid :=
  match s.mt with
  | some mt => mt.livePids
  | none => if s.finished.isSome then [] else [s.pid]

/-- What a call starts from: the threads followed then, and how much was noted before. -/
structure Outset where
  followed : List Pid
  noted : Nat
deriving DecidableEq, Repr

/-- The call to come starts from here. -/
def World.outset (w : World (Monitored DebugNote ω)) : Outset :=
  ⟨w.session.followed, w.os.notes.length⟩

/-- What the kernel is trusted with for the length of one call. Slot 0 is only as requested
if it can be written, and a step over an access that does not come back would leave it
disarmed. A pid stands for one task: a call is not given the pid of a thread it follows for
a new one, nor one pid twice; of a thread that was gone before the call it may be. -/
def Faultless (outset : Outset) : List DebugNote → Prop :=
  List.Each fun before note =>
    match note with
    | .refused => False
    | .born pid => outset.noted ≤ before.length →
        pid ∉ outset.followed ∧ .born pid ∉ before.drop outset.noted
    | .stepped pid false => before.getLast? ≠ some (.watched pid 0 0)
    | .waited pid false => before.getLast? ≠ some (.stepped pid true)
    | _ => True

/-- Every followed thread has slot 0 as requested. -/
def Requested (arch : Arch) (w : World (Monitored DebugNote ω)) : Prop :=
  ∀ p ∈ w.session.followed, (debugRegs w.os.notes p).Matches arch w.session.watchpoint

/-! ## What a note changes -/

variable {outset : Outset}

theorem debugRegs_append (notes more : List DebugNote) (pid : Pid) :
    debugRegs (notes ++ more) pid = more.foldl (DebugNote.apply pid) (debugRegs notes pid) :=
  List.foldl_append

theorem Faultless.of_append {notes more : List DebugNote} (h : Faultless outset (notes ++ more)) :
    Faultless outset notes := List.each_of_append h

/-- The note is neither about slot 0 nor about a birth. -/
def DebugNote.Quiet : DebugNote → Prop
  | .stepped .. | .waited .. | .unread => True
  | .poked _ offset _ => offset = WatchHw.dr6Offset
  | _ => False

theorem DebugNote.Quiet.apply {note : DebugNote} (h : note.Quiet) (pid : Pid) (regs : DebugRegs) :
    note.apply pid regs = regs := by
  cases note with
  | poked q offset data =>
    rcases (show offset = WatchHw.dr6Offset from h) with rfl
    simp [DebugNote.apply, WatchHw.dr6Offset, WatchHw.dr7Offset, WatchHw.dr0Offset]
  | stepped | waited | unread => rfl
  | born | watched | refused => exact h.elim

/-- At most slot 0 of `pid` was written since. -/
structure Touches (pid : Pid) (before notes : List DebugNote) : Prop where
  later : ∃ more, notes = before ++ more
  others : ∀ q, q ≠ pid → debugRegs notes q = debugRegs before q

/-- A pid is in use as far as a call knows: of a thread followed at its outset, or of a task
created since. -/
def Outset.Holds (outset : Outset) (notes : List DebugNote) (pid : Pid) : Prop :=
  outset.noted ≤ notes.length ∧ (pid ∈ outset.followed ∨ .born pid ∈ notes.drop outset.noted)

theorem Outset.Holds.append {notes : List DebugNote} {pid : Pid} (h : outset.Holds notes pid)
    (more : List DebugNote) : outset.Holds (notes ++ more) pid := by
  obtain ⟨hnoted, hpid⟩ := h
  refine ⟨by rw [List.length_append]; omega, ?_⟩
  rw [List.drop_append_of_le_length hnoted]
  exact hpid.imp_right (List.mem_append_left _)

theorem Touches.holds {pid p : Pid} {before notes : List DebugNote} (h : Touches pid before notes)
    (hp : outset.Holds before p) : outset.Holds notes p := by
  obtain ⟨more, rfl⟩ := h.later
  exact hp.append more

theorem Touches.noted {pid : Pid} {before notes : List DebugNote} (h : Touches pid before notes)
    (hnoted : outset.noted ≤ before.length) : outset.noted ≤ notes.length := by
  obtain ⟨more, rfl⟩ := h.later
  rw [List.length_append]
  exact Nat.le_add_right_of_le hnoted

theorem Touches.faultless {pid : Pid} {before notes : List DebugNote} (h : Touches pid before notes)
    (hfaultless : Faultless outset notes) : Faultless outset before := by
  obtain ⟨more, rfl⟩ := h.later
  exact hfaultless.of_append

/-- A quiet note touches nothing. -/
theorem debugRegs_quiet {more : List DebugNote} (h : ∀ note ∈ more, note.Quiet)
    (notes : List DebugNote) (pid : Pid) :
    debugRegs (notes ++ more) pid = debugRegs notes pid := by
  rw [debugRegs_append]
  induction more with
  | nil => exact rfl
  | cons note more ih =>
    rw [List.foldl_cons, (h note List.mem_cons_self).apply]
    exact ih fun n hn => h n (List.mem_cons_of_mem _ hn)

/-! ## The invariant -/

/-- Every followed thread but `pid` has slot 0 as requested. -/
structure ArmedBut (arch : Arch) (outset : Outset) (pid : Option Pid) (s : ReplaySession)
    (notes : List DebugNote) : Prop where
  noted : outset.noted ≤ notes.length
  held : ∀ p ∈ s.followed, outset.Holds notes p
  armed : ∀ p ∈ s.followed, some p ≠ pid → (debugRegs notes p).Matches arch s.watchpoint

/-- A new task, whose slot 0 is clear. -/
def Clear (outset : Outset) (pid : Pid) (notes : List DebugNote) : Prop :=
  outset.Holds notes pid ∧ debugRegs notes pid = {}

theorem disarmed_clear (arch : Arch) : ({} : DebugRegs).Disarmed arch := by
  cases arch with
  | x86_64 => exact rfl
  | aarch64 => exact rfl

namespace ArmedBut

variable {arch : Arch} {pid : Option Pid} {s s' : ReplaySession} {notes : List DebugNote}

/-- What the condition looks at. -/
theorem congr (h : ArmedBut arch outset pid s notes) (hwp : s'.watchpoint = s.watchpoint)
    (hfollowed : ∀ p ∈ s'.followed, p ∈ s.followed) : ArmedBut arch outset pid s' notes where
  noted := h.noted
  held p hp := h.held p (hfollowed p hp)
  armed p hp hne := by
    rw [hwp]
    exact h.armed p (hfollowed p hp) hne

theorem quiet (h : ArmedBut arch outset pid s notes) {more : List DebugNote}
    (hquiet : ∀ note ∈ more, note.Quiet) : ArmedBut arch outset pid s (notes ++ more) where
  noted := by
    rw [List.length_append]
    exact Nat.le_add_right_of_le h.noted
  held p hp := (h.held p hp).append more
  armed p hp hne := by
    rw [debugRegs_quiet hquiet]
    exact h.armed p hp hne

/-- Slot 0 of a task is written. -/
theorem touch {p : Pid} {before : List DebugNote} (h : ArmedBut arch outset none s before)
    (htouches : Touches p before notes) : ArmedBut arch outset (some p) s notes where
  noted := htouches.noted h.noted
  held q hq := htouches.holds (h.held q hq)
  armed q hq hne := by
    rw [htouches.others q fun heq => hne (congrArg some heq)]
    exact h.armed q hq nofun

/-- The task that was left out is as requested again. -/
theorem restore {p : Pid} {before : List DebugNote} (h : ArmedBut arch outset (some p) s before)
    (htouches : Touches p before notes)
    (hp : (debugRegs notes p).Matches arch s.watchpoint) : ArmedBut arch outset none s notes where
  noted := htouches.noted h.noted
  held q hq := htouches.holds (h.held q hq)
  armed q hq _ := by
    by_cases heq : q = p
    · rw [heq]
      exact hp
    · rw [htouches.others q heq]
      exact h.armed q hq fun hsome => heq (Option.some.inj hsome)

/-- A birth does not touch the threads that are followed. -/
theorem newborn {child : Pid} (h : ArmedBut arch outset none s notes)
    (hnew : Faultless outset (notes ++ [.born child])) :
    ArmedBut arch outset none s (notes ++ [.born child]) ∧
      Clear outset child (notes ++ [.born child]) := by
  obtain ⟨hold, hfresh⟩ := hnew notes (.born child) [] rfl h.noted
  have hnoted : outset.noted ≤ (notes ++ [DebugNote.born child]).length := by
    rw [List.length_append]
    exact Nat.le_add_right_of_le h.noted
  refine ⟨⟨hnoted, fun p hp => (h.held p hp).append _, fun p hp hne => ?_⟩, ⟨hnoted, .inr ?_⟩, ?_⟩
  · -- the child is none of them, whether they are as old as the call or not
    have hother : child ≠ p := by
      rintro rfl
      exact (h.held child hp).2.elim hold hfresh
    rw [debugRegs_append, List.foldl_cons, List.foldl_nil, DebugNote.apply, if_neg hother]
    exact h.armed p hp hne
  · rw [List.drop_append_of_le_length h.noted]
    exact List.mem_append_right _ (List.mem_singleton.mpr rfl)
  · rw [debugRegs_append, List.foldl_cons, List.foldl_nil, DebugNote.apply, if_pos rfl]

end ArmedBut

/-! ## Calls into the kernel -/

section

variable {arch : Arch} [Ptrace arch ω]

/-- The request is a valid one, and the condition holds as long as no access failed. -/
def UnlessFault (outset : Outset) (G : ReplaySession → List DebugNote → Prop)
    (s : ReplaySession) (notes : List DebugNote) : Prop :=
  (∀ wp, s.watchpoint = some wp → isValidLen wp.len = true) ∧
    (Faultless outset notes → G s notes)

/-- An access failed in a state with `P`. -/
def Faulted (outset : Outset) (P : ReplaySession → List DebugNote → Prop) (s : ReplaySession)
    (notes : List DebugNote) : Prop := ¬ Faultless outset notes ∧ ∃ before, P s before

theorem not_faultless_refused (notes : List DebugNote) :
    ¬ Faultless outset (notes ++ [.refused]) :=
  fun h => h notes .refused [] rfl

/-- A call whose notes are quiet. -/
theorem quiet_keeps {ε β : Type} {G : ReplaySession → List DebugNote → Prop}
    (hG : ∀ s notes more, (∀ note ∈ more, DebugNote.Quiet note) → G s notes → G s (notes ++ more))
    {err : ε → ReplayError} {note : Except ε β → List DebugNote} {call : Call ω ε β}
    (hquiet : ∀ answer, ∀ n ∈ note answer, DebugNote.Quiet n) :
    Keeps (Seen (UnlessFault outset G)) (osOr err (Monitored.noting note call)) :=
  noting_seen
    (fun s notes a hs => ⟨hs.1, fun hfaultless =>
      hG s notes _ (hquiet (.ok a)) (hs.2 hfaultless.of_append)⟩)
    (fun s notes e hs => ⟨hs.1, fun hfaultless =>
      hG s notes _ (hquiet (.error e)) (hs.2 hfaultless.of_append)⟩)

theorem quiet_ofWait (pid : Pid) (flags : WaitFlags) (answer : Except Errno WaitStatus) :
    ∀ note ∈ DebugNote.ofWait pid flags answer, note.Quiet := by
  unfold DebugNote.ofWait
  split
  · split
    · simp [DebugNote.Quiet]
    · simp [DebugNote.Quiet]
  · simp

theorem ofWait_none (pid : Pid) (answer : Except Errno WaitStatus) :
    DebugNote.ofWait pid .none answer = [] := if_neg (by decide)

theorem ofWait_of_ne (pid : Pid) {status : WaitStatus} (h : ∀ q, status ≠ .stopped q .trap) :
    DebugNote.ofWait pid .wall (.ok status) = [.waited pid false] := by
  unfold DebugNote.ofWait
  rw [if_pos rfl]
  split
  · rename_i q heq
    exact absurd (Except.ok.inj heq) (h q)
  · exact rfl

theorem quiet_ofStep (pid : Pid) (answer : Except Errno Unit) :
    ∀ note ∈ DebugNote.ofStep pid answer, note.Quiet := by
  cases answer with
  | ok a => simp [DebugNote.ofStep, DebugNote.Quiet]
  | error e => simp [DebugNote.ofStep, DebugNote.Quiet]

theorem quiet_ofRead (answer : Except Errno Bytes) :
    ∀ note ∈ DebugNote.ofRead answer, note.Quiet := by
  cases answer with
  | ok a => simp [DebugNote.ofRead]
  | error e => simp [DebugNote.ofRead, DebugNote.Quiet]

/-- One register of slot 0 is written. -/
theorem pokeUser_touches (outset : Outset) {P : ReplaySession → List DebugNote → Prop}
    (pid : Pid) {offset : Nat}
    (hoffset : offset = WatchHw.dr0Offset ∨ offset = WatchHw.dr7Offset) (data : UInt64) :
    Spec (Seen P)
      (WatchHw.pokeUser arch pid offset data : Method (Monitored DebugNote ω) Unit)
      (fun _ => Seen fun s notes => ∃ before, P s before ∧
        notes = before ++ [.poked pid offset data])
      (fun _ => Seen (Faulted outset P)) := by
  refine noting_seen (fun s notes _ hs => ⟨notes, hs, rfl⟩) fun s notes e hs => ?_
  rw [DebugNote.ofPoke, if_pos hoffset]
  exact ⟨not_faultless_refused notes, notes, hs⟩

/-- The regset of slot 0 is written. -/
theorem setHwWatch_touches (outset : Outset) {P : ReplaySession → List DebugNote → Prop}
    (pid : Pid) (addr : UInt64) (ctrl : UInt32) :
    Spec (Seen P)
      (WatchHw.setHwWatch arch pid addr ctrl : Method (Monitored DebugNote ω) Unit)
      (fun _ => Seen fun s notes => ∃ before, P s before ∧
        notes = before ++ [.watched pid addr ctrl])
      (fun _ => Seen (Faulted outset P)) :=
  noting_seen (fun _ notes _ hs => ⟨notes, hs, rfl⟩) fun _ notes _ hs =>
    ⟨not_faultless_refused notes, notes, hs⟩

/-- Every length that is asked for has an encoding. -/
theorem x86Dr7_ok {len : UInt8} (kind : WatchKind) (h : isValidLen len = true) :
    ∃ dr7, x86Dr7 kind len = .ok dr7 := by
  unfold isValidLen at h
  simp only [Bool.or_eq_true, beq_iff_eq] at h
  rcases h with ((rfl | rfl) | rfl) | rfl
  · exact ⟨_, rfl⟩
  · exact ⟨_, rfl⟩
  · exact ⟨_, rfl⟩
  · exact ⟨_, rfl⟩

/-- Notes on one task leave the registers of the others. -/
theorem touches_of_notes {pid : Pid} {before more : List DebugNote}
    (h : ∀ note ∈ more, ∀ q, q ≠ pid → ∀ regs, note.apply q regs = regs) :
    Touches pid before (before ++ more) := by
  refine ⟨⟨more, rfl⟩, fun q hq => ?_⟩
  rw [debugRegs_append]
  induction more with
  | nil => exact rfl
  | cons note more ih =>
    rw [List.foldl_cons, h note List.mem_cons_self q hq]
    exact ih fun n hn => h n (List.mem_cons_of_mem _ hn)

/-- Arming writes slot 0 of the task, or an access fails. -/
theorem arm_touches (outset : Outset) {P : ReplaySession → List DebugNote → Prop} (pid : Pid)
    (wp : Watchpoint) (hvalid : isValidLen wp.len = true) :
    Spec (Seen P)
      (WatchHw.arm arch pid wp.addr wp.len wp.kind : Method (Monitored DebugNote ω) Unit)
      (fun _ => Seen fun s notes => ∃ before, P s before ∧ Touches pid before notes ∧
        (debugRegs notes pid).Armed wp arch)
      (fun _ => Seen (Faulted outset P)) := by
  cases arch with
  | x86_64 =>
    obtain ⟨dr7, hdr7⟩ := x86Dr7_ok wp.kind hvalid
    -- Two writes: the address first, and then the control word that arms it.
    change Spec _ (do
      let dr7 ← orFail .watchpointRequest (x86Dr7 wp.kind wp.len)
      WatchHw.pokeUser .x86_64 pid WatchHw.dr0Offset wp.addr
      WatchHw.pokeUser .x86_64 pid WatchHw.dr7Offset dr7) _ _
    rw [hdr7]
    refine Spec.bind (Q := fun d => Seen fun t notes => d = dr7 ∧ P t notes)
      (Spec.pure fun _ hw => ⟨rfl, hw⟩) fun d => Spec.assume fun hd => ?_
    subst hd
    refine Spec.bind (pokeUser_touches outset pid (.inl rfl) wp.addr) fun _ => ?_
    refine (pokeUser_touches outset pid (.inr rfl) d).mono (fun _ hw => hw) (fun _ w hw => ?_)
      (fun _ w ⟨hfault, _, before, hs, _⟩ => ⟨hfault, before, hs⟩)
    obtain ⟨_, ⟨before, hs, rfl⟩, hnotes⟩ := hw
    rw [List.append_assoc] at hnotes
    refine ⟨before, hs, ?_, ?_⟩
    · rw [hnotes]
      refine touches_of_notes fun note hnote q hq regs => ?_
      simp only [List.cons_append, List.nil_append, List.mem_cons, List.not_mem_nil, or_false]
        at hnote
      rcases hnote with rfl | rfl
      · exact if_neg (Ne.symm hq)
      · exact if_neg (Ne.symm hq)
    · rw [hnotes, debugRegs_append]
      simp [DebugNote.apply, DebugRegs.Armed, hdr7, WatchHw.dr0Offset, WatchHw.dr7Offset]
  | aarch64 =>
    have hcontrol : ∃ control, aarch64Control wp.addr wp.len wp.kind = .ok control := by
      unfold aarch64Control
      rw [if_neg (by simp [hvalid])]
      exact ⟨_, rfl⟩
    obtain ⟨⟨aligned, ctrl⟩, hcontrol⟩ := hcontrol
    change Spec _ (do
      let control ← orFail .watchpointRequest (aarch64Control wp.addr wp.len wp.kind)
      WatchHw.setHwWatch .aarch64 pid control.1 control.2) _ _
    rw [hcontrol]
    refine (setHwWatch_touches outset pid aligned ctrl).mono (fun _ hw => hw) (fun _ w hw => ?_)
      (fun _ _ hw => hw)
    obtain ⟨before, hs, hnotes⟩ := hw
    refine ⟨before, hs, ?_, ?_⟩
    · rw [hnotes]
      refine touches_of_notes fun note hnote q hq regs => ?_
      rcases List.mem_singleton.mp hnote with rfl
      exact if_neg (Ne.symm hq)
    · rw [hnotes, debugRegs_append]
      simp [DebugNote.apply, DebugRegs.Armed, hcontrol]

/-- Disarming writes slot 0 of the task, or the access fails. -/
theorem disarm_touches (outset : Outset) {P : ReplaySession → List DebugNote → Prop} (pid : Pid) :
    Spec (Seen P) (WatchHw.disarm arch pid : Method (Monitored DebugNote ω) Unit)
      (fun _ => Seen fun s notes => ∃ before, P s before ∧ Touches pid before notes ∧
        (debugRegs notes pid).Disarmed arch ∧
        (arch = .aarch64 → notes.getLast? = some (.watched pid 0 0)))
      (fun _ => Seen (Faulted outset P)) := by
  cases arch with
  -- DR7 is cleared; DR0 keeps its address.
  | x86_64 =>
    refine (pokeUser_touches outset pid (.inr rfl) 0).mono (fun _ hw => hw) (fun _ w hw => ?_)
      (fun _ _ hw => hw)
    obtain ⟨before, hs, hnotes⟩ := hw
    refine ⟨before, hs, ?_, ?_, nofun⟩
    · rw [hnotes]
      refine touches_of_notes fun note hnote q hq regs => ?_
      rcases List.mem_singleton.mp hnote with rfl
      exact if_neg (Ne.symm hq)
    · rw [hnotes, debugRegs_append]
      simp [DebugNote.apply, DebugRegs.Disarmed, WatchHw.dr0Offset, WatchHw.dr7Offset]
  | aarch64 =>
    refine (setHwWatch_touches outset pid 0 0).mono (fun _ hw => hw) (fun _ w hw => ?_)
      (fun _ _ hw => hw)
    obtain ⟨before, hs, hnotes⟩ := hw
    refine ⟨before, hs, ?_, ?_, fun _ => ?_⟩
    · rw [hnotes]
      refine touches_of_notes fun note hnote q hq regs => ?_
      rcases List.mem_singleton.mp hnote with rfl
      exact if_neg (Ne.symm hq)
    · rw [hnotes, debugRegs_append]
      simp [DebugNote.apply, DebugRegs.Disarmed]
    · rw [hnotes]
      exact List.getLast?_concat

/-! ## Servicing a hit -/

/-- Every followed thread is armed as requested, unless an access failed. -/
abbrev KeepsArmed (arch : Arch) (outset : Outset) : ReplaySession → List DebugNote → Prop :=
  UnlessFault outset (ArmedBut arch outset none)

/-- A thread was disarmed, the others are as requested. -/
abbrev Lifted (arch : Arch) (outset : Outset) (pid : Pid) (wp : Watchpoint)
    (s : ReplaySession) (notes : List DebugNote) : Prop :=
  s.watchpoint = some wp ∧ UnlessFault outset (ArmedBut arch outset (some pid)) s notes

omit [Ptrace arch ω] in
theorem UnlessFault.congr {pid : Option Pid} {s s' : ReplaySession} {notes : List DebugNote}
    (h : UnlessFault outset (ArmedBut arch outset pid) s notes) (hwp : s'.watchpoint = s.watchpoint)
    (hfollowed : ∀ p ∈ s'.followed, p ∈ s.followed) :
    UnlessFault outset (ArmedBut arch outset pid) s' notes :=
  ⟨fun wp hs => h.1 wp (hwp ▸ hs), fun hfaultless => (h.2 hfaultless).congr hwp hfollowed⟩

omit [Ptrace arch ω] in
theorem quiet_armed {ε β : Type} {pid : Option Pid} {err : ε → ReplayError}
    {note : Except ε β → List DebugNote} {call : Call ω ε β}
    (hquiet : ∀ answer, ∀ n ∈ note answer, DebugNote.Quiet n) :
    Keeps (Seen (UnlessFault outset (ArmedBut arch outset pid)))
      (osOr err (Monitored.noting note call)) :=
  quiet_keeps (fun _ _ _ hmore hs => hs.quiet hmore) hquiet

/-- A thread that is left out is armed again. -/
theorem arm_restores {pid : Pid} {wp : Watchpoint} :
    Spec (Seen (Lifted arch outset pid wp))
      (WatchHw.arm arch pid wp.addr wp.len wp.kind : Method (Monitored DebugNote ω) Unit)
      (fun _ => Seen (KeepsArmed arch outset)) (fun _ => Seen (KeepsArmed arch outset)) := by
  intro w hw
  refine (arm_touches outset pid wp (hw.2.1 wp hw.1)).mono (fun _ hw => hw) (fun _ v hv => ?_)
    (fun _ v hv => ?_) w hw
  · obtain ⟨before, ⟨hwp, hvalid, hs⟩, htouches, harmed⟩ := hv
    refine ⟨hvalid, fun hfaultless => ?_⟩
    refine (hs (htouches.faultless hfaultless)).restore htouches ?_
    rw [hwp]
    exact harmed
  · obtain ⟨hfault, before, -, hvalid, -⟩ := hv
    exact ⟨hvalid, fun hfaultless => absurd hfaultless hfault⟩

/-- Stepping over an access leaves the thread armed, unless it fails half way. -/
theorem stepOverWatch_armed (pid : Pid) :
    Keeps (Seen (KeepsArmed arch outset))
      (stepOverWatch arch pid : Method (Monitored DebugNote ω) Unit) := by
  cases arch with
  | x86_64 =>
    refine quiet_armed fun answer => ?_
    cases answer with
    | ok _ => simp [DebugNote.ofPoke, DebugNote.Quiet]
    | error _ =>
      simp [DebugNote.ofPoke, WatchHw.dr6Offset, WatchHw.dr0Offset, WatchHw.dr7Offset]
  | aarch64 =>
    refine Spec.bind self_spec_upkeep fun s => ?_
    split
    · exact Spec.pure fun _ hw => hw.2
    rename_i wp hwp
    -- the thread is disarmed
    refine Spec.bind (Q := fun _ => Seen fun t notes => Lifted .aarch64 outset pid wp t notes ∧
      notes.getLast? = some (.watched pid 0 0)) ?_ fun _ => ?_
    · refine (disarm_touches outset (P := fun t notes => t.watchpoint = some wp ∧
        KeepsArmed .aarch64 outset t notes) pid).mono ?_ (fun _ v hv => ?_) (fun _ v hv => ?_)
      · rintro w ⟨rfl, hw⟩
        exact ⟨hwp, hw⟩
      · obtain ⟨before, ⟨hset, hvalid, hs⟩, htouches, -, hlast⟩ := hv
        exact ⟨⟨hset, hvalid, fun hfaultless =>
          (hs (htouches.faultless hfaultless)).touch htouches⟩, hlast rfl⟩
      · obtain ⟨hfault, before, -, hvalid, -⟩ := hv
        exact ⟨hvalid, fun hfaultless => absurd hfaultless hfault⟩
    -- it is stepped
    refine Spec.bind (Q := fun _ => Seen fun t notes => Lifted .aarch64 outset pid wp t notes ∧
      notes.getLast? = some (.stepped pid true)) ?_ fun _ => ?_
    · refine noting_seen (fun t notes _ ht => ⟨⟨ht.1.1, ht.1.2.1, fun hfaultless => ?_⟩, ?_⟩)
        (fun t notes _ ht => ⟨ht.1.2.1, fun hfaultless => ?_⟩)
      · exact (ht.1.2.2 hfaultless.of_append).quiet (quiet_ofStep pid (.ok ()))
      · exact List.getLast?_concat
      · exact absurd ht.2 (hfaultless notes (.stepped pid false) [] rfl)
    -- the step ends with `SIGTRAP`, or the access is counted as failed
    refine Spec.bind (Q := fun status => Seen fun t notes => Lifted .aarch64 outset pid wp t notes ∧
      ((∃ q, status = .stopped q .trap) ∨ ¬ Faultless outset notes)) ?_ fun status => ?_
    · refine noting_seen (fun t notes status ht => ⟨⟨ht.1.1, ht.1.2.1, fun hfaultless => ?_⟩, ?_⟩)
        (fun t notes _ ht => ⟨ht.1.2.1, fun hfaultless => ?_⟩)
      · exact (ht.1.2.2 hfaultless.of_append).quiet (quiet_ofWait pid .wall (.ok status))
      · by_cases htrap : ∃ q, status = .stopped q .trap
        · exact .inl htrap
        · rw [ofWait_of_ne pid fun q heq => htrap ⟨q, heq⟩]
          exact .inr fun hfaultless => hfaultless notes (.waited pid false) [] rfl ht.2
      · exact absurd ht.2 (hfaultless notes (.waited pid false) [] rfl)
    split
    · exact arm_restores.mono (fun _ hw => hw.1) (fun _ _ hw => hw) (fun _ _ hw => hw)
    · rename_i hne
      refine Spec.fail fun w hw => ⟨hw.1.2.1, fun hfaultless => ?_⟩
      rcases hw.2 with ⟨q, rfl⟩ | hfault
      · exact absurd rfl (hne q)
      · exact absurd hfaultless hfault

/-- On arm64 the watchpoint is off during the step, and on again after it. -/
theorem onWatchHit_armed [Unwind ω] (pid : Pid) :
    Keeps (Seen (KeepsArmed arch outset))
      (onWatchHit arch pid : Method (Monitored DebugNote ω) Unit) := by
  -- Noting a hit touches neither the request nor who is followed.
  have hmodify {f : ReplaySession → ReplaySession}
      (hf : ∀ s, (f s).watchpoint = s.watchpoint ∧ (f s).followed = s.followed) :
      Keeps (Seen (KeepsArmed arch outset))
        (modifySelf f : Method (Monitored DebugNote ω) Unit) := by
    refine modifySelf_upkeep fun w hw => UnlessFault.congr hw (hf w.session).1 fun p hp => ?_
    exact (hf w.session).2 ▸ hp
  refine Keeps.bind self_upkeep fun s => ?_
  split
  · exact Keeps.pure
  refine Keeps.bind ?_ fun read => ?_
  · refine Keeps.bind self_upkeep fun s => ?_
    refine Keeps.bind (hmodify fun _ => ⟨rfl, rfl⟩) fun _ => ?_
    refine Keeps.bind ?_ fun u => ?_
    · cases s.unwinder with
      | some u => exact Keeps.pure
      | none => exact Keeps.bind silent_seen fun _ => Keeps.pure
    refine Keeps.bind silent_seen fun pc => ?_
    refine Keeps.bind silent_seen fun frames => ?_
    exact Keeps.bind (hmodify fun _ => ⟨rfl, rfl⟩) fun _ => Keeps.pure
  refine Keeps.bind (stepOverWatch_armed pid) fun _ => ?_
  refine Keeps.bind (Keeps.bind (quiet_armed quiet_ofRead) fun _ => Keeps.pure) fun value => ?_
  exact hmodify fun _ => ⟨rfl, rfl⟩

/-! ## New tasks -/

/-- A new task is not followed yet. -/
abbrev Newborn (arch : Arch) (outset : Outset) (child : Pid) :
    ReplaySession → List DebugNote → Prop :=
  UnlessFault outset fun s notes => ArmedBut arch outset none s notes ∧ Clear outset child notes

/-- A new task is followed, but not armed yet. -/
abbrev Unarmed (arch : Arch) (outset : Outset) (child : Pid) :
    ReplaySession → List DebugNote → Prop :=
  UnlessFault outset fun s notes =>
    ArmedBut arch outset (some child) s notes ∧ Clear outset child notes

omit [Ptrace arch ω] in
theorem Clear.quiet {child : Pid} {notes more : List DebugNote} (h : Clear outset child notes)
    (hquiet : ∀ note ∈ more, note.Quiet) : Clear outset child (notes ++ more) :=
  ⟨h.1.append more, (debugRegs_quiet hquiet notes child).trans h.2⟩

omit [Ptrace arch ω] in
theorem Newborn.armed {child : Pid} {s : ReplaySession} {notes : List DebugNote}
    (h : Newborn arch outset child s notes) : KeepsArmed arch outset s notes :=
  ⟨h.1, fun hfaultless => (h.2 hfaultless).1⟩

omit [Ptrace arch ω] in
theorem quiet_newborn {ε β : Type} {child : Pid} {err : ε → ReplayError}
    {note : Except ε β → List DebugNote} {call : Call ω ε β}
    (hquiet : ∀ answer, ∀ n ∈ note answer, DebugNote.Quiet n) :
    Keeps (Seen (Newborn arch outset child)) (osOr err (Monitored.noting note call)) :=
  quiet_keeps (fun _ _ _ hmore hs => ⟨hs.1.quiet hmore, hs.2.quiet hmore⟩) hquiet

omit [Ptrace arch ω] in
/-- A call that creates a task. -/
theorem birth_newborn {ε : Type} {err : ε → ReplayError} {call : Call ω ε Pid} :
    Spec (Seen (KeepsArmed arch outset)) (osOr err (Monitored.noting DebugNote.ofBirth call))
      (fun child => Seen (Newborn arch outset child)) (fun _ => Seen (KeepsArmed arch outset)) := by
  refine noting_seen (fun s notes child hs => ⟨hs.1, fun hfaultless => ?_⟩) fun s notes e hs => ?_
  · exact (hs.2 hfaultless.of_append).newborn hfaultless
  · rw [DebugNote.ofBirth, List.append_nil]
    exact hs

/-- A followed task that is new is armed if there is a request. -/
theorem arm_newborn {child : Pid} (s : ReplaySession) {m : Method (Monitored DebugNote ω) Unit}
    (hm : m = match s.watchpoint with
      | some wp => WatchHw.arm arch child wp.addr wp.len wp.kind
      | none => pure ()) :
    Spec (fun w => w.session = s ∧ Seen (Unarmed arch outset child) w) m
      (fun _ => Seen (KeepsArmed arch outset)) (fun _ => Seen (KeepsArmed arch outset)) := by
  rw [hm]
  split
  · rename_i wp hwp
    refine arm_restores.mono ?_ (fun _ _ hw => hw) (fun _ _ hw => hw)
    rintro w ⟨rfl, hvalid, hs⟩
    exact ⟨hwp, hvalid, fun hfaultless => (hs hfaultless).1⟩
  · rename_i hwp
    refine Spec.pure ?_
    rintro w ⟨rfl, hvalid, hs⟩
    refine ⟨hvalid, fun hfaultless => ?_⟩
    obtain ⟨harmed, -, hclear⟩ := hs hfaultless
    refine harmed.restore (p := child) ⟨⟨[], (List.append_nil _).symm⟩, fun _ _ => rfl⟩ ?_
    rw [hclear, hwp]
    exact disarmed_clear arch

theorem armChild_armed (child : Pid) :
    Spec (Seen (Unarmed arch outset child))
      (Mt.armChild arch child : Method (Monitored DebugNote ω) Unit)
      (fun _ => Seen (KeepsArmed arch outset)) (fun _ => Seen (KeepsArmed arch outset)) :=
  Spec.bind self_spec_upkeep fun s => arm_newborn s rfl

/-- The new tracee is armed with the request. -/
theorem rearmWatchpoint_armed (pid : Pid) :
    Spec (fun w => w.session.pid = pid ∧ Seen (Unarmed arch outset pid) w)
      (rearmWatchpoint arch : Method (Monitored DebugNote ω) Unit)
      (fun _ => Seen (KeepsArmed arch outset)) (fun _ => Seen (KeepsArmed arch outset)) := by
  refine Spec.bind (Q := fun _ w => w.session.pid = pid ∧ Seen (Unarmed arch outset pid) w) ?_
    fun _ => ?_
  · exact modifySelf_upkeep fun w hw => ⟨hw.1, hw.2.1, fun hfaultless =>
      ⟨(hw.2.2 hfaultless).1.congr rfl fun _ hp => hp, (hw.2.2 hfaultless).2⟩⟩
  · refine Spec.bind self_spec_upkeep fun s => ?_
    intro w hw
    obtain ⟨rfl, rfl, hunarmed⟩ := hw
    exact arm_newborn w.session rfl w ⟨rfl, hunarmed⟩

/-- The child of the fork has the debug registers of nobody. -/
theorem forkSnapshot_newborn (pid : Pid) :
    Spec (Seen (KeepsArmed arch outset))
      (forkSnapshot arch pid : Method (Monitored DebugNote ω) Pid)
      (fun child => Seen (Newborn arch outset child)) (fun _ => Seen (KeepsArmed arch outset)) := by
  -- The parent keeps its registers; those of the child come with its creation.
  refine Spec.bind silent_seen fun saved => ?_
  refine Spec.bind silent_seen fun _ => ?_
  refine Spec.bind (quiet_armed (quiet_ofStep pid)) fun _ => ?_
  refine Spec.bind (Q := fun child => Seen (Newborn arch outset child)) ?_ fun child => ?_
  · refine Spec.bind (quiet_armed (quiet_ofWait pid .none)) fun status => ?_
    split
    · split
      · exact birth_newborn
      · exact Spec.fail fun _ hw => hw
    · exact Spec.fail fun _ hw => hw
  -- from here on the child is there, and no call touches it
  suffices hrest : Spec (Seen (Newborn arch outset child)) (do
      reapForkChild arch child
      os (Ptrace.setoptions arch child setupOptions)
      reapCloneExit arch pid
      Regs.restoreFull arch pid saved
      Regs.restoreFull arch child saved
      pure child : Method (Monitored DebugNote ω) Pid)
      (fun c w => c = child ∧ Seen (Newborn arch outset child) w)
      (fun _ => Seen (Newborn arch outset child)) by
    refine hrest.mono (fun _ hw => hw) (fun c w hw => ?_) (fun _ _ hw => hw.armed)
    exact hw.1 ▸ hw.2
  refine Spec.bind (Q := fun _ => Seen (Newborn arch outset child)) ?_ fun _ => ?_
  · refine Keeps.bind (quiet_newborn (quiet_ofWait child .none)) fun status => ?_
    split
    · exact Keeps.pure
    · exact Keeps.pure
    · exact Keeps.fail
  refine Spec.bind silent_seen fun _ => ?_
  refine Spec.bind (Q := fun _ => Seen (Newborn arch outset child)) ?_ fun _ => ?_
  · refine Keeps.bind silent_seen fun _ => ?_
    refine Keeps.bind (quiet_newborn (quiet_ofWait pid .none)) fun status => ?_
    split
    · exact Keeps.pure
    · exact Keeps.fail
  refine Spec.bind silent_seen fun _ => ?_
  refine Spec.bind silent_seen fun _ => ?_
  exact Spec.pure fun _ hw => ⟨rfl, hw⟩

/-- A session seated on a new process follows that process only. -/
theorem seated_unarmed {pid : Pid} {s s' : ReplaySession} {notes : List DebugNote}
    (h : Newborn arch outset pid s notes) (hwp : s'.watchpoint = s.watchpoint) (hmt : s'.mt = none)
    (hpid : s'.pid = pid) : Unarmed arch outset pid s' notes := by
  have honly : ∀ p ∈ s'.followed, p = pid := by
    intro p hp
    simp only [ReplaySession.followed, hmt, hpid] at hp
    split at hp
    · cases hp
    · exact List.mem_singleton.mp hp
  refine ⟨fun wp hs => h.1 wp (hwp ▸ hs), fun hfaultless => ⟨⟨?_, ?_, ?_⟩, (h.2 hfaultless).2⟩⟩
  · exact (h.2 hfaultless).1.noted
  · intro p hp
    rw [honly p hp]
    exact (h.2 hfaultless).2.1
  · intro p hp hne
    exact absurd (congrArg some (honly p hp)) hne

omit [Ptrace arch ω] in
theorem newborn_of_born {child : Pid} {s : ReplaySession} {before notes : List DebugNote}
    (h : KeepsArmed arch outset s before) (hnotes : notes = before ++ [.born child]) :
    Newborn arch outset child s notes := by
  refine ⟨h.1, fun hfaultless => ?_⟩
  rw [hnotes] at hfaultless ⊢
  exact (h.2 hfaultless.of_append).newborn hfaultless

/-- A process is created, and nothing else is noted. -/
theorem spawnStopped_born {P : ReplaySession → List DebugNote → Prop} (cmdline : Cmdline) :
    Spec (Seen P) (spawnStopped arch cmdline : Method (Monitored DebugNote ω) Pid)
      (fun pid => Seen fun s notes => ∃ before, P s before ∧ notes = before ++ [.born pid])
      (fun _ => Seen fun s notes => P s notes ∨ ∃ before pid, P s before ∧
        notes = before ++ [.born pid]) := by
  refine Spec.bind (Q := fun pid => Seen fun s notes => ∃ before, P s before ∧
    notes = before ++ [.born pid]) ?_ fun pid => ?_
  · refine noting_seen (fun s notes pid hs => ⟨notes, hs, rfl⟩) fun s notes e hs => ?_
    rw [DebugNote.ofBirth, List.append_nil]
    exact .inl hs
  -- Past its spawn, the tracee is born whether or not the rest succeeds.
  have hborn {β : Type} {m : Method (Monitored DebugNote ω) β}
      (hm : Keeps (Seen fun s notes => ∃ before, P s before ∧ notes = before ++ [.born pid]) m) :
      Spec (Seen fun s notes => ∃ before, P s before ∧ notes = before ++ [.born pid]) m
        (fun _ => Seen fun s notes => ∃ before, P s before ∧ notes = before ++ [.born pid])
        (fun _ => Seen fun s notes => P s notes ∨ ∃ before pid, P s before ∧
          notes = before ++ [.born pid]) :=
    hm.mono (fun _ hw => hw) (fun _ _ hw => hw) fun _ _ ⟨before, hs, hnotes⟩ =>
      .inr ⟨before, pid, hs, hnotes⟩
  refine Spec.bind (hborn ?_) fun _ => ?_
  · refine noting_seen (fun s notes _ hs => ?_) fun s notes _ hs => ?_
    · rw [ofWait_none, List.append_nil]
      exact hs
    · rw [ofWait_none, List.append_nil]
      exact hs
  refine Spec.bind (hborn silent_seen) fun _ => ?_
  exact Spec.pure fun _ hw => hw

theorem killActive_keeps_notes {G : ReplaySession → List DebugNote → Prop}
    (hG : ∀ s notes more, (∀ note ∈ more, DebugNote.Quiet note) → G s notes → G s (notes ++ more)) :
    Keeps (Seen (UnlessFault outset G))
      (killActive arch : Method (Monitored DebugNote ω) Unit) := by
  refine Keeps.bind self_upkeep fun s => ?_
  split
  · exact Keeps.pure
  · refine Keeps.bind (Keeps.attempt silent_seen) fun _ => Keeps.attempt ?_
    exact quiet_keeps hG (quiet_ofWait s.pid .none)

/-- The new tracee is the only thread that is followed, and it is armed. -/
theorem restart_armed (start : StartPoint) :
    Keeps (Seen (KeepsArmed arch outset))
      (restart arch start : Method (Monitored DebugNote ω) Unit) := by
  unfold restart
  split
  · refine Keeps.bind self_upkeep fun s => ?_
    split
    · exact Spec.never
    refine Spec.bind (forkSnapshot_newborn _) fun fresh => ?_
    -- The fork is taken before the old tracee is killed, and armed in its place.
    have hkill : Spec (Seen (Newborn arch outset fresh))
        (killActive arch : Method (Monitored DebugNote ω) Unit)
        (fun _ => Seen (Newborn arch outset fresh)) (fun _ => Seen (KeepsArmed arch outset)) :=
      (killActive_keeps_notes fun _ _ _ hmore hs => ⟨hs.1.quiet hmore, hs.2.quiet hmore⟩).mono
        (fun _ hw => hw) (fun _ _ hw => hw) (fun _ _ hw => Newborn.armed hw)
    refine Spec.bind hkill fun _ => ?_
    refine Spec.bind (modifySelf_upkeep fun w hw => ?_) fun _ => rearmWatchpoint_armed fresh
    exact ⟨rfl, seated_unarmed hw rfl rfl rfl⟩
  · refine Keeps.bind (killActive_keeps_notes fun _ _ _ hmore hs => hs.quiet hmore) fun _ => ?_
    refine Keeps.bind self_upkeep fun s => ?_
    refine Spec.bind (Q := fun pid => Seen (Newborn arch outset pid)) ?_ fun pid => ?_
    · refine (spawnStopped_born s.cmdline).mono (fun _ hw => hw) (fun pid w hw => ?_)
        (fun _ w hw => ?_)
      · obtain ⟨before, hbefore, hnotes⟩ := hw
        exact newborn_of_born hbefore hnotes
      · rcases hw with hw | ⟨before, pid, hbefore, hnotes⟩
        · exact hw
        · exact Newborn.armed (newborn_of_born hbefore hnotes)
    refine Spec.bind (modifySelf_upkeep fun w hw => ?_) fun _ => rearmWatchpoint_armed pid
    exact ⟨rfl, seated_unarmed hw rfl rfl rfl⟩

omit [Ptrace arch ω] in
theorem followed_of_mt {s : ReplaySession} {mt : MtState} (h : s.mt = some mt) (p : Pid) :
    p ∈ s.followed ↔ mt.threads[p]?.isSome = true := by
  simp only [ReplaySession.followed, h]
  exact KeyMap.mem_keys_iff mt.threads p

omit [Ptrace arch ω] in
/-- One more thread is followed. -/
theorem ArmedBut.follow {s s' : ReplaySession} {mt mt' : MtState} {child : Pid}
    {notes : List DebugNote} (h : ArmedBut arch outset none s notes) (hmt : s.mt = some mt)
    (hmt' : s'.mt = some mt') (hwp : s'.watchpoint = s.watchpoint)
    (hthreads : mt'.threads = mt.threads.insert child {}) (hheld : outset.Holds notes child) :
    ArmedBut arch outset (some child) s' notes := by
  have hfollowed (p : Pid) (hp : p ∈ s'.followed) : p = child ∨ p ∈ s.followed := by
    rw [followed_of_mt hmt', hthreads, KeyMap.get_insert] at hp
    split at hp
    · rename_i heq
      exact .inl heq.symm
    · exact .inr ((followed_of_mt hmt p).mpr hp)
  refine ⟨h.noted, fun p hp => ?_, fun p hp hne => ?_⟩
  · rcases hfollowed p hp with rfl | hp
    · exact hheld
    · exact h.held p hp
  · rcases hfollowed p hp with rfl | hp
    · exact absurd rfl hne
    · rw [hwp]
      exact h.armed p hp nofun

omit [Ptrace arch ω] in
/-- The new thread is followed, and not armed yet. -/
theorem bindChild_unarmed (seq : UInt64) (tid : UInt32) (child parent : Pid) (vforked : Bool) :
    Spec (Seen (Newborn arch outset child))
      (Mt.bindChild seq tid child parent vforked : Method (Monitored DebugNote ω) Unit)
      (fun _ => Seen (Unarmed arch outset child)) (fun _ => Seen (KeepsArmed arch outset)) := by
  suffices hbind : Spec (Seen (Newborn arch outset child))
      (Mt.bindChild seq tid child parent vforked : Method (Monitored DebugNote ω) Unit)
      (fun _ => Seen (Unarmed arch outset child)) (fun _ => Seen (Newborn arch outset child)) from
    hbind.mono (fun _ hw => hw) (fun _ _ hw => hw) (fun _ _ hw => Newborn.armed hw)
  refine Spec.bind state_keeps_upkeep fun mt => ?_
  refine Spec.bind orFail_upkeep fun tidmap => ?_
  refine Spec.bind state_upkeep fun mt => ?_
  refine modifySelf_upkeep fun w hw => ⟨hw.2.1, fun hfaultless => ?_⟩
  obtain ⟨harmed, hclear⟩ := hw.2.2 hfaultless
  exact ⟨harmed.follow hw.1 rfl rfl rfl hclear.1, hclear⟩

/-! ## Requests -/

omit [Ptrace arch ω] in
/-- A request is made on every thread that is followed. -/
theorem followed_subset (s : ReplaySession) : ∀ p ∈ s.followed, p ∈ s.liveThreads := by
  intro p hp
  unfold ReplaySession.followed at hp
  unfold ReplaySession.liveThreads
  cases hmt : s.mt with
  | some mt =>
    rw [hmt] at hp
    exact hp
  | none =>
    rw [hmt] at hp
    simp only at hp
    split at hp
    · cases hp
    · exact hp

/-- The threads that are done have slot 0 as `Slot` says, since `start`. -/
structure Partway (outset : Outset) (Slot : DebugRegs → Prop)
    (start : World (Monitored DebugNote ω)) (done : List Pid) (s : ReplaySession)
    (notes : List DebugNote) : Prop where
  session : s = start.session
  later : ∃ more, notes = start.os.notes ++ more
  slots : Faultless outset notes → ∀ p ∈ done, Slot (debugRegs notes p)

/-- One more thread is done. -/
theorem Partway.next {Slot : DebugRegs → Prop} {start : World (Monitored DebugNote ω)}
    {done : List Pid} {p : Pid} {s : ReplaySession} {before notes : List DebugNote}
    (h : Partway outset Slot start done s before) (htouches : Touches p before notes)
    (hp : Slot (debugRegs notes p)) : Partway outset Slot start (done ++ [p]) s notes where
  session := h.session
  later := by
    obtain ⟨more, hmore⟩ := h.later
    obtain ⟨new, hnew⟩ := htouches.later
    exact ⟨more ++ new, by rw [hnew, hmore, List.append_assoc]⟩
  slots hfaultless q hq := by
    by_cases heq : q = p
    · rw [heq]
      exact hp
    · rw [htouches.others q heq]
      rcases List.mem_append.mp hq with hq | hq
      · exact h.slots (htouches.faultless hfaultless) q hq
      · exact absurd (List.mem_singleton.mp hq) heq

omit [Ptrace arch ω] in
/-- The call goes on, and the threads followed at its start stay in use. -/
theorem Partway.held {Slot : DebugRegs → Prop} {start start' : World (Monitored DebugNote ω)}
    {done : List Pid} {s : ReplaySession} {notes : List DebugNote}
    (h : Partway outset Slot start' done s notes) (hnotes : start'.os.notes = start.os.notes)
    (hstart : ArmedBut arch outset none start.session start.os.notes) :
    outset.noted ≤ notes.length ∧ ∀ p ∈ start.session.followed, outset.Holds notes p := by
  obtain ⟨more, rfl⟩ := h.later
  rw [hnotes, List.length_append]
  exact ⟨Nat.le_add_right_of_le hstart.noted, fun p hp => (hstart.held p hp).append more⟩

omit [Ptrace arch ω] in
theorem Partway.armedBut {Slot : DebugRegs → Prop} {start start' : World (Monitored DebugNote ω)}
    {done : List Pid} {s : ReplaySession} {notes : List DebugNote}
    (h : Partway outset Slot start' done s notes) (hnotes : start'.os.notes = start.os.notes)
    (hstart : Seen (KeepsArmed arch outset) start) (hfaultless : Faultless outset notes) :
    ArmedBut arch outset none start.session start.os.notes := by
  obtain ⟨more, rfl⟩ := h.later
  rw [hnotes] at hfaultless
  exact hstart.2 hfaultless.of_append

/-- A request is met unless an access fails, the read of the range included. -/
theorem watch_armed (addr : UInt64) (len : UInt8) (kind : WatchKind)
    (start : World (Monitored DebugNote ω)) (hstart : Seen (KeepsArmed arch outset) start) :
    Spec (fun w => w = start) (watch arch addr len kind)
      (fun _ => Seen (KeepsArmed arch outset))
      (fun _ => Seen fun s notes => KeepsArmed arch outset s notes ∨
        ∃ more, notes = start.os.notes ++ more ∧ .unread ∈ more) := by
  refine orFail_bind (fun _ w hw => ?_) fun _ hvalidate => ?_
  · rw [hw]
    exact .inl hstart
  have hvalid : isValidLen len = true := by
    unfold validate at hvalidate
    split at hvalidate
    · cases hvalidate
    · rename_i hlen
      simpa using hlen
  let wp : Watchpoint := { addr, len, kind }
  refine Spec.bind (Q := fun s w => s = start.session ∧ w = start) ?_ fun s =>
    Spec.assume fun hs => ?_
  · refine self_spec_upkeep.mono (fun _ hw => hw) (fun s w hw => ?_) (fun _ _ hw => hw)
    obtain ⟨rfl, rfl⟩ := hw
    exact ⟨rfl, rfl⟩
  subst hs
  -- the threads are armed one after the other
  refine Spec.bind
    (Q := fun _ => Seen (Partway outset (·.Armed wp arch) start start.session.liveThreads)) ?_
    fun _ => ?_
  · have hthread (done : List Pid) (p : Pid) :
        Spec (Seen (Partway outset (·.Armed wp arch) start done))
          (WatchHw.arm arch p addr len kind : Method (Monitored DebugNote ω) Unit)
          (fun _ => Seen (Partway outset (·.Armed wp arch) start (done ++ [p])))
          (fun _ => Seen fun s notes => KeepsArmed arch outset s notes ∨
            ∃ more, notes = start.os.notes ++ more ∧ .unread ∈ more) := by
      refine (arm_touches outset p wp hvalid).mono (fun _ hw => hw) (fun _ w hw => ?_)
        (fun _ w hw => .inl ?_)
      · obtain ⟨before, hbefore, htouches, harmed⟩ := hw
        exact hbefore.next htouches harmed
      · obtain ⟨hfault, before, hbefore⟩ := hw
        refine ⟨?_, fun hfaultless => absurd hfaultless hfault⟩
        rw [hbefore.session]
        exact hstart.1
    refine (forEach_upkeep hthread [] _).mono ?_ (fun _ _ hw => hw) (fun _ _ hw => hw)
    rintro w rfl
    exact ⟨rfl, ⟨[], (List.append_nil _).symm⟩, by simp⟩
  -- the range is read
  refine Spec.bind
    (Q := fun _ => Seen (Partway outset (·.Armed wp arch) start start.session.liveThreads)) ?_
    fun value => ?_
  · refine Spec.bind (noting_seen (fun t notes _ ht => ?_) fun t notes _ ht => ?_) fun _ =>
      Spec.pure fun _ hw => hw
    · rw [DebugNote.ofRead, List.append_nil]
      exact ht
    · obtain ⟨more, hmore⟩ := ht.later
      refine .inr ⟨more ++ [.unread], ?_, List.mem_append_right _ (List.mem_singleton.mpr rfl)⟩
      rw [hmore, List.append_assoc]
      exact rfl
  refine modifySelf_upkeep fun w hw => ⟨?_, fun hfaultless => ?_⟩
  · rintro _ ⟨rfl⟩
    exact hvalid
  · have hfollowed (p : Pid) (hp : p ∈ (w.withSession fun t =>
        { t with lastValue := some value, watchpoint := some wp }).session.followed) :
        p ∈ start.session.followed := by
      rw [← hw.session]
      exact hp
    obtain ⟨hnoted, hheld⟩ := hw.held rfl (hw.armedBut rfl hstart hfaultless)
    refine ⟨hnoted, fun p hp => hheld p (hfollowed p hp), fun p hp _ => ?_⟩
    exact hw.slots hfaultless p (followed_subset _ p (hfollowed p hp))

/-- Disarming is done unless an access fails; a finished replay must have no thread left. -/
theorem clearWatch_armed (start : World (Monitored DebugNote ω))
    (hstart : Seen (KeepsArmed arch outset) start)
    (hleft : start.session.watchpoint.isSome → start.session.finished.isSome →
      start.session.followed = []) :
    Spec (fun w => w = start) (clearWatch arch) (fun _ => Seen (KeepsArmed arch outset))
      (fun _ => Seen (KeepsArmed arch outset)) := by
  -- The request is dropped first: what is disarmed after it is no longer asked for.
  let s' : ReplaySession := { start.session with watchpoint := none }
  let start' : World (Monitored DebugNote ω) := ⟨s', start.os⟩
  refine Spec.bind (Q := fun s w => s = start.session ∧ w = start) ?_ fun s =>
    Spec.assume fun hs => ?_
  · refine self_spec_upkeep.mono (fun _ hw => hw) (fun s w hw => ?_) (fun _ _ hw => hw)
    obtain ⟨rfl, rfl⟩ := hw
    exact ⟨rfl, rfl⟩
  subst hs
  refine Spec.bind (Q := fun _ w => w = start') ?_ fun _ => ?_
  · refine modifySelf_upkeep fun w hw => ?_
    rw [hw]
    exact rfl
  refine Spec.bind (Q := fun _ => Seen (KeepsArmed arch outset)) (Spec.when (fun hcond => ?_) ?_)
    fun _ => ?_
  · -- the threads are disarmed one after the other
    have hthread (done : List Pid) (p : Pid) :
        Spec (Seen (Partway outset (·.Disarmed arch) start' done))
          (WatchHw.disarm arch p : Method (Monitored DebugNote ω) Unit)
          (fun _ => Seen (Partway outset (·.Disarmed arch) start' (done ++ [p])))
          (fun _ => Seen (KeepsArmed arch outset)) := by
      refine (disarm_touches outset p).mono (fun _ hw => hw) (fun _ w hw => ?_) (fun _ w hw => ?_)
      · obtain ⟨before, hbefore, htouches, hdisarmed, -⟩ := hw
        exact hbefore.next htouches hdisarmed
      · obtain ⟨hfault, before, hbefore⟩ := hw
        refine ⟨?_, fun hfaultless => absurd hfaultless hfault⟩
        rw [hbefore.session]
        exact nofun
    refine (forEach_upkeep hthread [] _).mono ?_ (fun _ w hw => ?_) (fun _ _ hw => hw)
    · rintro w rfl
      exact ⟨rfl, ⟨[], (List.append_nil _).symm⟩, by simp⟩
    · have hfollowed : w.session.followed = start.session.followed := by
        rw [hw.session]
        exact rfl
      have hnotes : start'.os.notes = start.os.notes := rfl
      refine ⟨?_, fun hfaultless => ?_⟩
      · rw [hw.session]
        exact nofun
      obtain ⟨hnoted, hheld⟩ := hw.held hnotes (hw.armedBut hnotes hstart hfaultless)
      refine ⟨hnoted, fun p hp => ?_, fun p hp _ => ?_⟩
      · rw [hfollowed] at hp
        exact hheld p hp
      · rw [hw.session]
        rw [hfollowed] at hp
        exact hw.slots hfaultless p (followed_subset _ p hp)
  · -- there was no request, or no thread is left
    rintro hcond w rfl
    refine ⟨nofun, fun hfaultless => ?_⟩
    have harmed := hstart.2 hfaultless
    cases hwp : start.session.watchpoint with
    | none => exact harmed.congr hwp.symm fun _ hp => hp
    | some wp =>
      have hfinished : start.session.finished.isSome = true := by
        simpa [hwp] using hcond
      have hnone := hleft (by simp [hwp]) hfinished
      refine ⟨harmed.noted, fun p hp => ?_, fun p hp => ?_⟩
      · exact harmed.held p hp
      · have hp' : p ∈ start.session.followed := hp
        rw [hnone] at hp'
        cases hp'
  · exact modifySelf_upkeep fun w hw => UnlessFault.congr hw rfl fun _ hp => hp

/-! ## Runs -/

theorem isWatchHit_armed (pid : Pid) :
    Keeps (Seen (KeepsArmed arch outset))
      (isWatchHit arch pid : Method (Monitored DebugNote ω) Bool) := by
  refine Keeps.bind self_upkeep fun s => ?_
  split
  · exact Keeps.pure
  · exact Keeps.bind silent_seen fun _ => Keeps.pure

theorem registerChild_newborn (child : Pid) (seq : UInt64) :
    Keeps (Seen (Newborn arch outset child))
      (Mt.registerChild arch child seq : Method (Monitored DebugNote ω) Unit) := by
  refine Keeps.bind (quiet_newborn (quiet_ofWait child .wall)) fun status => ?_
  split
  · exact silent_seen
  · exact silent_seen
  · exact Keeps.fail

/-- Driving and jumping keep every followed thread armed, unless an access fails. -/
theorem armed_upkeep [Unwind ω] :
    Upkeep arch (Seen (KeepsArmed arch outset) : World (Monitored DebugNote ω) → Prop)
      (Seen (KeepsArmed arch outset))
      { Running := fun _ => Seen (KeepsArmed arch outset)
        Stopped := fun _ _ => Seen (KeepsArmed arch outset)
        Trapped := fun _ => Seen (KeepsArmed arch outset)
        Born := fun child => Seen (Newborn arch outset child)
        Bound := fun child => Seen (Unarmed arch outset child) } where
  weaken w hw := hw
  setoptions pid := silent_seen
  saveFull pid := silent_seen
  restoreFull pid regs := silent_seen
  setSyscallNr pid nr := silent_seen
  processVmWritev pid addr data := silent_seen
  resume pid sig := silent_seen
  wait pid flags := quiet_armed (quiet_ofWait pid flags)
  rest pid status w hne hw := hw
  trap pid q := (isWatchHit_armed pid).mono (fun _ hw => hw)
    (fun hit w hw => by cases hit <;> exact hw) (fun _ _ hw => hw)
  hit := onWatchHit_armed
  event pid := birth_newborn
  register child seq := (registerChild_newborn child seq).mono (fun _ hw => hw)
    (fun _ _ hw => hw) (fun _ _ hw => Newborn.armed hw)
  bindChild := bindChild_unarmed
  armChild := armChild_armed
  place w cursor currentSeq pending resumeSignal lastRegs hw :=
    UnlessFault.congr hw rfl fun _ hp => hp
  -- The invariant is about followed threads, and there are none but those before.
  threads w mt mt' hmt hshrinks hw := by
    refine UnlessFault.congr hw rfl fun p hp => ?_
    rw [followed_of_mt hmt]
    exact hshrinks p ((followed_of_mt rfl p).mp hp)
  seat w hmt hfinished hw := by
    refine UnlessFault.congr hw rfl fun p hp => ?_
    rw [followed_of_mt rfl] at hp
    simp only [MtState.seated, KeyMap.get_insert] at hp
    split at hp
    · rename_i heq
      simp [ReplaySession.followed, hmt, hfinished, ← heq]
    · simp at hp
  finished w outcome hw := by
    refine UnlessFault.congr hw rfl fun p hp => ?_
    cases hmt : w.session.mt with
    | some mt =>
      rw [followed_of_mt hmt]
      exact (followed_of_mt (s := { w.session with finished := some outcome }) hmt p).mp hp
    | none =>
      simp [World.withSession, ReplaySession.followed, hmt] at hp
  checkpoints w cs hsingle hw := UnlessFault.congr hw rfl fun _ hp => hp
  snapshot pid := (forkSnapshot_newborn pid).mono (fun _ hw => hw.2)
    (fun _ _ hw => Newborn.armed hw) (fun _ _ hw => hw)

theorem armed_calls :
    CallUpkeep arch (Seen (KeepsArmed arch outset) : World (Monitored DebugNote ω) → Prop)
      (Seen (KeepsArmed arch outset)) where
  interval _ _ hw := UnlessFault.congr hw rfl fun _ hp => hp
  drained _ hw := UnlessFault.congr hw rfl fun _ hp => hp
  restart := restart_armed

end

/-- The states of a session whose calls meet a condition on the state before, the call and
the state after. -/
inductive ReachableWhen (arch : Arch) [Ptrace arch ω] [Unwind ω]
    (C : World ω → SessionCall → World ω → Prop) : World ω → Prop where
  | launch {cmdline : Cmdline} {records : List Record} {os : ω} {w : World ω}
      (h : exec (launch arch) ⟨ReplaySession.ofTrace cmdline records, os⟩ = some (.ok (), w)) :
      ReachableWhen arch C w
  | call {w w' : World ω} {r : Except ReplayError (Option ExitOutcome)}
      (hw : ReachableWhen arch C w) (c : SessionCall)
      (h : exec (perform arch c) w = some (r, w')) (hc : C w c w') : ReachableWhen arch C w'

/-- Nothing gets in the way of a call: the kernel did what it is trusted with, the range of
a new request can be read, and a request is not cleared while a replay that its leader's
exit finished still follows threads. -/
structure Undisturbed (w : World (Monitored DebugNote ω)) (c : SessionCall)
    (w' : World (Monitored DebugNote ω)) : Prop where
  faultless : Faultless w.outset w'.os.notes
  read : ∀ addr len kind, c = .watch addr len kind →
    ∀ more, w'.os.notes = w.os.notes ++ more → .unread ∉ more
  left : c = .clearWatch → w.session.watchpoint.isSome → w.session.finished.isSome →
    w.session.followed = []

section

variable {arch : Arch}

/-- The session's request is a valid one, and every followed thread has slot 0 so. -/
def Met (arch : Arch) (w : World (Monitored DebugNote ω)) : Prop :=
  (∀ wp, w.session.watchpoint = some wp → isValidLen wp.len = true) ∧ Requested arch w

/-- The condition a call starts with. -/
theorem Met.keepsArmed {w : World (Monitored DebugNote ω)} (h : Met arch w) :
    Seen (KeepsArmed arch w.outset) w where
  left := h.1
  right _ :=
    { noted := Nat.le_refl _
      held := fun _ hp => ⟨Nat.le_refl _, .inl hp⟩
      armed := fun p hp _ => h.2 p hp }

/-- And what is left of it where the call did not fail. -/
theorem met_of_keepsArmed {w : World (Monitored DebugNote ω)} {outset : Outset}
    (h : Seen (KeepsArmed arch outset) w) (hfaultless : Faultless outset w.os.notes) :
    Met arch w :=
  ⟨h.1, fun p hp => (h.2 hfaultless).armed p hp nofun⟩

variable [Ptrace arch ω] [Unwind ω]

theorem perform_armed {w w' : World (Monitored DebugNote ω)} {c : SessionCall}
    {r : Except ReplayError (Option ExitOutcome)} (hmet : Met arch w)
    (h : exec (perform arch c) w = some (r, w')) (hc : Undisturbed w c w') : Met arch w' := by
  have hw := hmet.keepsArmed
  refine met_of_keepsArmed ?_ hc.faultless
  have hkeeps {E : World (Monitored DebugNote ω) → Prop}
      (hE : E w' → Seen (KeepsArmed arch w.outset) w')
      (hperform : Spec (fun v => v = w)
        (perform arch c : Method (Monitored DebugNote ω) (Option ExitOutcome))
        (fun _ => Seen (KeepsArmed arch w.outset)) (fun _ => E)) :
      Seen (KeepsArmed arch w.outset) w' := by
    have hpost := hperform w rfl r w' h
    cases r with
    | ok outcome => exact hpost
    | error e => exact hE hpost
  -- Setting and clearing the watchpoint are apart; every other call keeps what is armed.
  by_cases hwatch : ∃ addr len kind, c = .watch addr len kind
  · obtain ⟨addr, len, kind, rfl⟩ := hwatch
    refine hkeeps ?_ (Spec.bind (watch_armed addr len kind w hw) fun _ => Spec.pure fun _ hw => hw)
    rintro (harmed | ⟨more, hmore, hunread⟩)
    · exact harmed
    · exact absurd hunread (hc.read addr len kind rfl more hmore)
  by_cases hclear : c = .clearWatch
  · subst hclear
    exact hkeeps (fun h => h)
      (Spec.bind (clearWatch_armed w hw (hc.left rfl)) fun _ => Spec.pure fun _ hw => hw)
  · refine hkeeps (fun h => h) ((armed_upkeep.perform armed_calls c
      (fun addr len kind heq => absurd ⟨addr, len, kind, heq⟩ hwatch)
      (fun heq => absurd heq hclear)).mono ?_ (fun _ _ hw => hw) (fun _ _ hw => hw))
    rintro v rfl
    exact hw

omit [Unwind ω] in
/-- A launched session has one clear thread and no request. -/
theorem launch_armed {cmdline : Cmdline} {records : List Record} {os : Monitored DebugNote ω}
    {w : World (Monitored DebugNote ω)}
    (h : exec (launch arch) ⟨ReplaySession.ofTrace cmdline records, os⟩ = some (.ok (), w)) :
    Requested arch w ∧ w.session.watchpoint = none := by
  -- A launch takes over one process, whose registers are new.
  have hspec : Spec (Seen fun s _ => s = ReplaySession.ofTrace cmdline records)
      (launch arch : Method (Monitored DebugNote ω) Unit)
      (fun _ => Seen fun s notes => ∃ pid before,
        s = { ReplaySession.ofTrace cmdline records with pid } ∧ notes = before ++ [.born pid])
      (fun _ _ => True) := by
    refine Spec.bind self_spec_upkeep fun s => ?_
    refine Spec.bind ((spawnStopped_born s.cmdline).mono (fun _ hw => hw.2) (fun _ _ hw => hw)
      (fun _ _ _ => trivial)) fun pid => ?_
    refine modifySelf_upkeep fun w hw => ?_
    obtain ⟨before, hs, hnotes⟩ := hw
    refine ⟨pid, before, ?_, hnotes⟩
    unfold World.withSession
    rw [hs]
  obtain ⟨pid, before, hs, hnotes⟩ := hspec.ok (s := ⟨_, os⟩) rfl h
  refine ⟨fun p hp => ?_, by rw [hs]; rfl⟩
  have hpid : p = pid := by
    rw [hs] at hp
    exact List.mem_singleton.mp hp
  rw [hpid, hnotes, debugRegs_append, hs]
  simp only [List.foldl_cons, List.foldl_nil, DebugNote.apply, if_true]
  exact disarmed_clear arch

/-- What a run keeps. -/
theorem reachable_met {w : World (Monitored DebugNote ω)}
    (h : ReachableWhen arch Undisturbed w) : Met arch w := by
  induction h with
  | launch hlaunch =>
    obtain ⟨hrequested, hnone⟩ := launch_armed hlaunch
    exact ⟨by rw [hnone]; exact nofun, hrequested⟩
  | call hw c hcall hc ih => exact perform_armed ih hcall hc

end

end Mirrorscope.Replay
