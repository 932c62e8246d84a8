import Mathlib.Tactic.IntervalCases
import Mirrorscope.Lib.Each
import Mirrorscope.Replay.Finality
import Mirrorscope.Replay.Upkeep

/-! # Whose access a hit is

A watchpoint hit is recorded with the pc and the stack that the unwinder read. The
unwinder is bound to the first thread that trapped and kept for later traps, so it reads
the thread that trapped as long as one thread raises all traps of a process.

The sightings of a session are what the kernel and the unwinder have shown of its threads:
* `bound`, `OneThread`: whose unwinder is kept, and that one thread raises all traps.
* `Attributed`: a hit was read of the thread that trapped for it.
* `Attributes`: the invariant; `Trapping` and `Captured` stand for it while a hit is serviced.
* `attributes_upkeep`, `reachable_attributes`: the driver, and the runs. `hits_attributed`: the
  hits.
-/

namespace Mirrorscope.Replay

open Capture Linux Run
open Trace (Cmdline Record)

variable {ω α : Type}

/-! ## Traps and reads -/

/-- What is seen of the traps: a process is taken over, a task is resumed, a task is found
trapped by its watchpoint, and what the unwinder read of which task, or that it failed. -/
inductive Sighting where
  | started (pid : Pid)
  | resumed (pid : Pid)
  | trapped (pid : Pid)
  | registers (pid : Pid) (pc : UInt64)
  | backtrace (pid : Pid) (pc : UInt64) (frames : List SymbolizedFrame)
  | failed
deriving DecidableEq, Repr

instance {arch : Arch} [Ptrace arch ω] : Ptrace arch (Monitored Sighting ω) where
  spawnTraced cmdline := Monitored.silent (Ptrace.spawnTraced arch cmdline)
  syscall pid sig := Monitored.noting (fun _ => [.resumed pid]) (Ptrace.syscall arch pid sig)
  step pid := Monitored.noting (fun _ => [.resumed pid]) (Ptrace.step arch pid)
  kill pid := Monitored.silent (Ptrace.kill arch pid)
  waitpid pid flags := Monitored.silent (Ptrace.waitpid arch pid flags)
  setoptions pid options :=
    Monitored.noting (fun
      | .ok _ => if options = setupOptions then [.started pid] else []
      | .error _ => []) (Ptrace.setoptions arch pid options)
  getevent pid := Monitored.silent (Ptrace.getevent arch pid)
  getregs pid := Monitored.silent (Ptrace.getregs pid)
  setregs pid regs := Monitored.silent (Ptrace.setregs pid regs)
  setSyscallNr pid nr := Monitored.silent (Ptrace.setSyscallNr arch pid nr)
  processVmReadv pid addr len := Monitored.silent (Ptrace.processVmReadv arch pid addr len)
  processVmWritev pid addr data := Monitored.silent (Ptrace.processVmWritev arch pid addr data)
  pokeUser pid offset data := Monitored.silent (Ptrace.pokeUser arch pid offset data)
  setHwWatch pid addr ctrl := Monitored.silent (Ptrace.setHwWatch arch pid addr ctrl)
  getsiginfo pid :=
    Monitored.noting (fun
      | .ok code => if code = WatchHw.trapHwbkpt then [.trapped pid] else []
      | .error _ => []) (Ptrace.getsiginfo arch pid)

/-- An answer of the unwinder is noted as such, a failure as one. -/
def Sighting.ofUnwind (sighting : α → List Sighting) : Except RemoteError α → List Sighting
  | .ok a => sighting a
  | .error _ => [.failed]

instance [Unwind ω] : Unwind (Monitored Sighting ω) where
  forPid pid := Monitored.noting (Sighting.ofUnwind fun _ => []) (Unwind.forPid pid)
  registers pid :=
    Monitored.noting (Sighting.ofUnwind fun pc => [.registers pid pc]) (Unwind.registers pid)
  backtrace pid pc :=
    Monitored.noting (Sighting.ofUnwind fun frames => [.backtrace pid pc frames])
      (Unwind.backtrace pid pc)

/-- The task the traps belong to after one more sighting. -/
def bindTo (first : Option Pid) : Sighting → Option Pid
  | .started _ | .failed => none
  | .trapped pid => first.or (some pid)
  | _ => first

/-- The task the traps belong to so far: the first that trapped since a process was taken
over or the unwinder failed. -/
def bound (seen : List Sighting) : Option Pid := seen.foldl bindTo none

/-- Between two takeovers of a process, or failures of the unwinder, one task raises all
traps. -/
def OneThread : List Sighting → Prop :=
  List.Each fun before sighting =>
    ∀ pid, sighting = .trapped pid → bound before = none ∨ bound before = some pid

/-- The hits, each with a trap of its own, in order: its pc and backtrace were read of the
task that trapped, before that or any other task ran on. -/
inductive Attributed : List Sighting → List WatchHit → Prop where
  | nil (seen : List Sighting) : Attributed seen []
  | hit {seen : List Sighting} {hits : List WatchHit} (earlier : Attributed seen hits) (pid : Pid)
      (hit : WatchHit) (later : List Sighting) :
      Attributed
        (seen ++ [.trapped pid, .registers pid hit.pc, .backtrace pid hit.pc hit.backtrace] ++
          later)
        (hits ++ [hit])

theorem bound_append (seen more : List Sighting) :
    bound (seen ++ more) = more.foldl bindTo (bound seen) := List.foldl_append

theorem Attributed.append {seen : List Sighting} {hits : List WatchHit} (h : Attributed seen hits)
    (more : List Sighting) : Attributed (seen ++ more) hits := by
  cases h with
  | nil => exact .nil _
  | hit earlier pid hit later =>
    rw [List.append_assoc _ later more]
    exact .hit earlier pid hit (later ++ more)

/-! ## The unwinder and the traps -/

/-- The unwinder is the one for the task the traps belong to. -/
structure Attributes (s : ReplaySession) (seen : List Sighting) : Prop where
  multithreaded : s.multithreaded = true
  checkpoints : s.checkpoints = []
  unwinder : bound seen = s.unwinder.map (·.pid)
  hits : OneThread seen → Attributed seen s.watchHits

/-- A task was found trapped, the task `q` is read for it, and `reads` was seen of that. -/
structure Reading (pid q : Pid) (reads : List Sighting) (s : ReplaySession)
    (seen : List Sighting) : Prop where
  multithreaded : s.multithreaded = true
  checkpoints : s.checkpoints = []
  quiet : ∀ sighting ∈ reads, ∀ first, bindTo first sighting = first
  trapped : ∃ before, seen = before ++ .trapped pid :: reads ∧ q = (bound before).getD pid ∧
    (OneThread before → Attributed before s.watchHits)

theorem foldl_bindTo_quiet {reads : List Sighting} (first : Option Pid)
    (h : ∀ sighting ∈ reads, ∀ first, bindTo first sighting = first) :
    reads.foldl bindTo first = first := by
  induction reads with
  | nil => exact List.foldl_nil
  | cons sighting reads ih =>
    rw [List.foldl_cons, h sighting List.mem_cons_self]
    exact ih fun e he => h e (List.mem_cons_of_mem _ he)

namespace Reading

variable {pid q : Pid} {reads : List Sighting} {s : ReplaySession} {seen : List Sighting}

/-- The traps belong to the task that is read. -/
theorem bound_eq (h : Reading pid q reads s seen) : bound seen = some q := by
  obtain ⟨before, rfl, rfl, -⟩ := h.trapped
  rw [bound_append, List.foldl_cons, foldl_bindTo_quiet _ h.quiet]
  cases hbound : bound before with
  | none => simp [bindTo]
  | some first => simp [bindTo]

theorem earlier (h : Reading pid q reads s seen) (hone : OneThread seen) :
    Attributed seen s.watchHits := by
  obtain ⟨before, rfl, -, hhits⟩ := h.trapped
  exact (hhits (List.each_of_append hone)).append _

/-- If one thread raises all traps, it is the one that is read. -/
theorem own (h : Reading pid q reads s seen) (hone : OneThread seen) : q = pid := by
  obtain ⟨before, rfl, rfl, -⟩ := h.trapped
  rcases hone before (.trapped pid) reads rfl pid rfl with hfirst | hfirst
  · rw [hfirst]
    exact Option.getD_none
  · rw [hfirst]
    exact Option.getD_some

/-- Further sightings that do not change whose the traps are. -/
theorem read (h : Reading pid q reads s seen) {more : List Sighting}
    (hquiet : ∀ sighting ∈ more, ∀ first, bindTo first sighting = first) :
    Reading pid q (reads ++ more) s (seen ++ more) := by
  obtain ⟨before, rfl, hq, hhits⟩ := h.trapped
  refine ⟨h.multithreaded, h.checkpoints, ?_, before, by simp, hq, hhits⟩
  intro e he
  rcases List.mem_append.mp he with he | he
  · exact h.quiet e he
  · exact hquiet e he

/-- The unwinder failed, and is not put back. -/
theorem failed (h : Reading pid q reads s seen) (hnone : s.unwinder = none) :
    Attributes s (seen ++ [.failed]) where
  multithreaded := h.multithreaded
  checkpoints := h.checkpoints
  unwinder := by
    rw [bound_append, hnone]
    exact rfl
  hits hone := (h.earlier (List.each_of_append hone)).append _

/-- The unwinder is put back. -/
theorem attributes (h : Reading pid q reads s seen) (hback : s.unwinder = some ⟨q⟩) :
    Attributes s seen where
  multithreaded := h.multithreaded
  checkpoints := h.checkpoints
  unwinder := by
    rw [h.bound_eq, hback]
    exact rfl
  hits := h.earlier

end Reading

/-! ## Servicing a hit -/

section

variable {arch : Arch} [Ptrace arch ω] [Unwind ω]

/-- A task is trapped at the watchpoint of the session, and nothing was read for it yet. -/
def Trapping (pid : Pid) (s : ReplaySession) (seen : List Sighting) : Prop :=
  s.watchpoint ≠ none ∧ ∃ before, seen = before ++ [.trapped pid] ∧ Attributes s before

/-- The pc and the backtrace were read of the task `q`, whose unwinder is back. -/
def Captured (pid q : Pid) (pc : UInt64) (frames : List SymbolizedFrame) (s : ReplaySession)
    (seen : List Sighting) : Prop :=
  s.unwinder = some ⟨q⟩ ∧ ∃ later,
    Reading pid q (.registers q pc :: .backtrace q pc frames :: later) s seen

omit [Unwind ω] in
/-- A trap is a hit by its code. -/
theorem isWatchHit_trapping (pid : Pid) :
    Spec (Seen Attributes) (isWatchHit arch pid : Method (Monitored Sighting ω) Bool)
      (fun hit w => if hit then Seen (Trapping pid) w else Seen Attributes w)
      (fun _ => Seen Attributes) := by
  refine Spec.bind self_spec_upkeep fun s => ?_
  split
  · exact Spec.pure fun w hw => by simpa using hw.2
  · rename_i wp hwp
    refine Spec.bind (Q := fun code => Seen fun s seen => s.watchpoint ≠ none ∧
      ∃ before, Attributes s before ∧
        seen = before ++ if code = WatchHw.trapHwbkpt then [.trapped pid] else []) ?_ fun code => ?_
    · refine Spec.mono (noting_seen (P := fun s seen => s.watchpoint ≠ none ∧ Attributes s seen)
        (E := fun _ => Attributes) ?_ ?_) ?_ (fun _ _ hw => hw) (fun _ _ hw => hw)
      · exact fun s seen code hs => ⟨hs.1, seen, hs.2, rfl⟩
      · intro s seen e hs
        rw [List.append_nil]
        exact hs.2
      · rintro w ⟨rfl, hw⟩
        exact ⟨by simp [hwp], hw⟩
    · refine Spec.pure fun w hw => ?_
      obtain ⟨hset, before, hbefore, hseen⟩ := hw
      -- Only the code of a hardware breakpoint is sighted as a trap.
      by_cases hcode : code = WatchHw.trapHwbkpt
      · rw [if_pos hcode] at hseen
        rw [if_pos (by simpa using hcode)]
        exact ⟨hset, before, hseen, hbefore⟩
      · rw [if_neg hcode, List.append_nil] at hseen
        rw [if_neg (by simpa using hcode)]
        unfold Seen
        rw [hseen]
        exact hbefore

theorem captureBacktrace_captured (pid : Pid) :
    Spec (Seen (Trapping pid))
      (captureBacktrace pid : Method (Monitored Sighting ω) (UInt64 × List SymbolizedFrame))
      (fun read w => ∃ q, Seen (Captured pid q read.1 read.2) w) (fun _ => Seen Attributes) := by
  -- one more answer of the unwinder, or its failure
  have hread {β : Type} {q : Pid} {reads : List Sighting} (sighting : β → List Sighting)
      {call : Call ω RemoteError β}
      (hquiet : ∀ a, ∀ e ∈ sighting a, ∀ first, bindTo first e = first) :
      Spec (Seen fun s seen => s.unwinder = none ∧ Reading pid q reads s seen)
        (osOr .unwind (Monitored.noting (Sighting.ofUnwind sighting) call))
        (fun a => Seen fun s seen => s.unwinder = none ∧ Reading pid q (reads ++ sighting a) s seen)
        (fun _ => Seen Attributes) := by
    refine noting_seen (fun s seen a hs => ⟨hs.1, ?_⟩) fun s seen e hs => hs.2.failed hs.1
    exact hs.2.read (hquiet a)
  refine Spec.bind self_spec_upkeep fun s => ?_
  -- the task that is read is settled before the unwinder is taken out
  refine Spec.bind (Q := fun _ => Seen fun t seen => t.unwinder = none ∧
    Reading pid ((s.unwinder.map (·.pid)).getD pid) [] t seen) ?_ fun _ => ?_
  · refine modifySelf_upkeep fun w hw => ?_
    obtain ⟨rfl, -, before, hseen, hbefore⟩ := hw
    refine ⟨rfl, hbefore.multithreaded, hbefore.checkpoints, by simp, before, hseen, ?_,
      hbefore.hits⟩
    rw [hbefore.unwinder]
  refine Spec.bind (Q := fun u => Seen fun t seen => t.unwinder = none ∧
    Reading pid u.pid [] t seen) ?_ fun u => ?_
  · cases s.unwinder with
    | some u => exact Spec.pure fun w hw => hw
    | none =>
      refine Spec.bind (hread (fun _ => []) (by simp)) fun _ => ?_
      exact Spec.pure fun w hw => hw
  refine Spec.bind (hread (fun pc => [.registers u.pid pc]) (by simp [bindTo])) fun pc => ?_
  refine Spec.bind (hread (fun frames => [.backtrace u.pid pc frames]) (by simp [bindTo]))
    fun frames => ?_
  refine Spec.bind (Q := fun _ => Seen (Captured pid u.pid pc frames)) ?_ fun _ =>
    Spec.pure fun w hw => ⟨u.pid, hw⟩
  refine modifySelf_upkeep fun w hw => ⟨rfl, [], ?_⟩
  exact ⟨hw.2.multithreaded, hw.2.checkpoints, hw.2.quiet, hw.2.trapped⟩

omit [Unwind ω] in
/-- Stepping over the access only runs the task on. -/
theorem stepOverWatch_captured (pid p q : Pid) (pc : UInt64) (frames : List SymbolizedFrame) :
    Keeps (Seen (Captured p q pc frames))
      (stepOverWatch arch pid : Method (Monitored Sighting ω) Unit) := by
  cases arch with
  | x86_64 => exact silent_seen
  | aarch64 =>
    refine Keeps.bind self_upkeep fun s => ?_
    split
    · exact Keeps.pure
    refine Keeps.bind silent_seen fun _ => ?_
    refine Keeps.bind ?_ fun _ => ?_
    · have hrun {s : ReplaySession} {seen : List Sighting} (hs : Captured p q pc frames s seen) :
          Captured p q pc frames s (seen ++ [.resumed pid]) := by
        obtain ⟨hback, later, hreading⟩ := hs
        exact ⟨hback, later ++ [.resumed pid], hreading.read (by simp [bindTo])⟩
      exact noting_seen (fun s seen _ hs => hrun hs) (fun s seen _ hs => hrun hs)
    refine Keeps.bind silent_seen fun status => ?_
    split
    · refine Keeps.bind orFail_upkeep fun control => ?_
      exact silent_seen
    · exact Keeps.fail

/-- The hit that is recorded is the trap's. -/
theorem onWatchHit_attributes (pid : Pid) :
    Spec (Seen (Trapping pid)) (onWatchHit arch pid : Method (Monitored Sighting ω) Unit)
      (fun _ => Seen Attributes) (fun _ => Seen Attributes) := by
  -- A failure between the backtrace and the hit adds no hit.
  have hcaptured {q : Pid} {pc : UInt64} {frames : List SymbolizedFrame}
      {w : World (Monitored Sighting ω)} (hw : Seen (Captured pid q pc frames) w) :
      Seen Attributes w := by
    obtain ⟨hback, later, hreading⟩ := hw
    exact hreading.attributes hback
  refine Spec.bind self_spec_upkeep fun s => ?_
  split
  · rename_i hnone
    intro w hw
    obtain ⟨rfl, hset, -⟩ := hw
    exact absurd hnone hset
  refine Spec.bind ((captureBacktrace_captured pid).mono (fun w hw => hw.2)
    (fun _ _ hw => hw) (fun _ _ hw => hw)) fun read => ?_
  obtain ⟨pc, frames⟩ := read
  refine Spec.bind (Q := fun _ w => ∃ q, Seen (Captured pid q pc frames) w) ?_ fun _ => ?_
  · rintro w ⟨q, hw⟩
    exact ((stepOverWatch_captured pid pid q pc frames).mono (fun _ hw => hw)
      (fun _ _ hw => ⟨q, hw⟩) (fun _ _ hw => hcaptured hw)) w hw
  refine Spec.bind (Q := fun _ w => ∃ q, Seen (Captured pid q pc frames) w) ?_ fun newValue => ?_
  · rintro w ⟨q, hw⟩
    refine (Keeps.bind silent_seen fun _ => Keeps.pure).mono (fun _ hw => hw)
      (fun _ _ hw => ⟨q, hw⟩) (fun _ _ hw => hcaptured hw) w hw
  refine modifySelf_upkeep fun w hw => ?_
  obtain ⟨q, hback, later, hreading⟩ := hw
  refine ⟨hreading.multithreaded, hreading.checkpoints, ?_, fun hone => ?_⟩
  · exact (hreading.attributes hback).unwinder
  · -- the task that was read is the one that trapped
    rcases hreading.own hone with rfl
    obtain ⟨before, hseen, -, hhits⟩ := hreading.trapped
    have hbefore : OneThread before := by
      unfold OneThread at hone
      rw [World.withSession, hseen] at hone
      exact List.each_of_append hone
    have hattributed := Attributed.hit (hhits hbefore) q
      { seq := w.session.currentSeq, pc, oldValue := w.session.lastValue, newValue,
        backtrace := frames } later
    rw [List.append_assoc] at hattributed
    rw [World.withSession, hseen]
    exact hattributed

/-! ## Runs -/

omit [Unwind ω] in
/-- A call that shows nothing of the traps. -/
theorem quiet_attributes {ε β : Type} {err : ε → ReplayError} {note : Except ε β → List Sighting}
    {call : Call ω ε β}
    (hquiet : ∀ answer, ∀ e ∈ note answer, ∀ first, bindTo first e = first) :
    Keeps (Seen Attributes) (osOr err (Monitored.noting note call)) := by
  have hkeeps {s : ReplaySession} {seen : List Sighting} (answer : Except ε β)
      (hs : Attributes s seen) : Attributes s (seen ++ note answer) := by
    refine ⟨hs.multithreaded, hs.checkpoints, ?_, fun hone => ?_⟩
    · rw [bound_append, foldl_bindTo_quiet _ (hquiet answer)]
      exact hs.unwinder
    · exact (hs.hits (List.each_of_append hone)).append _
  exact noting_seen (fun s seen a hs => hkeeps (.ok a) hs) (fun s seen e hs => hkeeps (.error e) hs)

omit [Unwind ω] in
theorem setoptions_attributes (pid : Pid) :
    Keeps (Seen Attributes)
      (os (Ptrace.setoptions arch pid Mt.mtTraceOptions) : Method (Monitored Sighting ω) Unit) := by
  refine quiet_attributes fun answer e he => ?_
  cases answer with
  | ok a => simp [Mt.mtTraceOptions, setupOptions] at he
  | error e => simp at he

omit [Unwind ω] in
theorem arm_attributes {P : ReplaySession → List Sighting → Prop} (pid : Pid) (addr : UInt64)
    (len : UInt8) (kind : WatchKind) :
    Keeps (Seen P) (WatchHw.arm arch pid addr len kind : Method (Monitored Sighting ω) Unit) := by
  cases arch with
  | x86_64 =>
    refine Keeps.bind orFail_upkeep fun _ => ?_
    exact Keeps.bind silent_seen fun _ => silent_seen
  | aarch64 =>
    refine Keeps.bind orFail_upkeep fun control => ?_
    exact silent_seen

omit [Unwind ω] in
theorem disarm_attributes {P : ReplaySession → List Sighting → Prop} (pid : Pid) :
    Keeps (Seen P) (WatchHw.disarm arch pid : Method (Monitored Sighting ω) Unit) := by
  cases arch with
  | x86_64 => exact silent_seen
  | aarch64 => exact silent_seen

omit [Unwind ω] in
theorem forEach_attributes {P : ReplaySession → List Sighting → Prop} {β : Type}
    {f : β → Method (Monitored Sighting ω) Unit} (h : ∀ b, Keeps (Seen P) (f b)) (bs : List β) :
    Keeps (Seen P) (forEach f bs) := by
  induction bs with
  | nil => exact Keeps.pure
  | cons b bs ih => exact Keeps.bind (h b) fun _ => ih

omit [Unwind ω] in
/-- A process is taken over last. -/
theorem spawnStopped_started {P : ReplaySession → List Sighting → Prop} (cmdline : Cmdline) :
    Spec (Seen P) (spawnStopped arch cmdline : Method (Monitored Sighting ω) Pid)
      (fun pid => Seen fun s seen => ∃ before, seen = before ++ [.started pid] ∧ P s before)
      (fun _ => Seen P) := by
  refine Spec.bind silent_seen fun pid => ?_
  refine Spec.bind silent_seen fun _ => ?_
  refine Spec.bind (Q := fun _ => Seen fun s seen => ∃ before,
    seen = before ++ [.started pid] ∧ P s before) ?_ fun _ => Spec.pure fun w hw => hw
  refine noting_seen (fun s seen a hs => ⟨seen, rfl, hs⟩) fun s seen e hs => ?_
  rw [List.append_nil]
  exact hs

omit [Unwind ω] in
/-- There is no checkpoint to go back to, and a fresh process gets a fresh unwinder. -/
theorem restart_attributes (start : StartPoint) :
    Keeps (Seen Attributes) (restart arch start : Method (Monitored Sighting ω) Unit) := by
  unfold restart
  split
  · refine Spec.bind self_spec_upkeep fun s => ?_
    split
    · exact Spec.never
    · rename_i index _ checkpoint hcheckpoint
      intro w hw
      obtain ⟨rfl, hattributes⟩ := hw
      rw [hattributes.checkpoints] at hcheckpoint
      cases hcheckpoint
  · -- There is no snapshot: the program is spawned again, and the unwinder dropped.
    refine Keeps.bind ?_ fun _ => ?_
    · refine Keeps.bind self_upkeep fun s => ?_
      split
      · exact Keeps.pure
      · refine Keeps.bind (Keeps.attempt silent_seen) fun _ => Keeps.attempt silent_seen
    refine Keeps.bind self_upkeep fun s => ?_
    refine Spec.bind (spawnStopped_started s.cmdline) fun pid => ?_
    refine Spec.bind (Q := fun _ => Seen fun s seen => Attributes { s with unwinder := none } seen)
      ?_ fun _ => ?_
    · refine modifySelf_upkeep fun w hw => ?_
      obtain ⟨before, hseen, hbefore⟩ := hw
      unfold Seen World.withSession
      rw [hseen]
      refine ⟨hbefore.multithreaded, hbefore.checkpoints, ?_, fun hone => ?_⟩
      · exact bound_append _ _
      · exact (hbefore.hits (List.each_of_append hone)).append _
    · refine Spec.bind (Q := fun _ => Seen Attributes) (modifySelf_upkeep fun w hw => hw)
        fun _ => ?_
      refine Keeps.bind self_upkeep fun s => ?_
      split
      · exact arm_attributes _ _ _ _
      · exact Keeps.pure

/-- No part of the session breaks the tie between the unwinder and the traps. -/
theorem attributes_upkeep :
    Upkeep arch (Seen Attributes : World (Monitored Sighting ω) → Prop) (Seen Attributes)
    { Running := fun _ => Seen Attributes
      Stopped := fun _ _ => Seen Attributes
      Trapped := fun pid => Seen (Trapping pid)
      Born := fun _ => Seen Attributes
      Bound := fun _ => Seen Attributes } where
  weaken w hw := hw
  setoptions := setoptions_attributes
  saveFull pid := silent_seen
  restoreFull pid regs := silent_seen
  setSyscallNr pid nr := silent_seen
  processVmWritev pid addr data := silent_seen
  resume pid sig := quiet_attributes (by simp [bindTo])
  wait pid flags := silent_seen
  rest pid status w hne hw := hw
  trap pid q := isWatchHit_trapping pid
  hit := onWatchHit_attributes
  event pid := silent_seen
  register child seq := by
    refine Keeps.bind silent_seen fun status => ?_
    split
    · exact setoptions_attributes child
    · exact setoptions_attributes child
    · exact Keeps.fail
  bindChild seq tid child parent vforked := by
    refine Keeps.bind state_keeps_upkeep fun mt => ?_
    refine Keeps.bind orFail_upkeep fun tidmap => ?_
    refine Keeps.bind state_keeps_upkeep fun mt => ?_
    exact modifySelf_upkeep fun w hw => ⟨hw.multithreaded, hw.checkpoints, hw.unwinder, hw.hits⟩
  -- Debug registers are not sighted.
  armChild child := by
    refine Keeps.bind self_upkeep fun s => ?_
    split
    · exact arm_attributes _ _ _ _
    · exact Keeps.pure
  place w cursor currentSeq pending resumeSignal lastRegs hw :=
    ⟨hw.multithreaded, hw.checkpoints, hw.unwinder, hw.hits⟩
  threads w mt mt' hmt hshrinks hw := ⟨hw.multithreaded, hw.checkpoints, hw.unwinder, hw.hits⟩
  seat w hmt hfinished hw := ⟨hw.multithreaded, hw.checkpoints, hw.unwinder, hw.hits⟩
  finished w outcome hw := ⟨hw.multithreaded, hw.checkpoints, hw.unwinder, hw.hits⟩
  checkpoints w cs hsingle hw := absurd hw.multithreaded (by simp [hsingle])
  snapshot pid := by
    rintro w ⟨hsingle, hw⟩
    exact absurd hw.multithreaded (by simp [hsingle])

omit [Unwind ω] in
theorem watch_attributes (addr : UInt64) (len : UInt8) (kind : WatchKind) :
    Keeps (Seen Attributes) (watch arch addr len kind : Method (Monitored Sighting ω) Unit) := by
  refine Keeps.bind orFail_upkeep fun _ => ?_
  refine Keeps.bind self_upkeep fun s => ?_
  refine Keeps.bind (forEach_attributes (fun live => arm_attributes live addr len kind) _)
    fun _ => ?_
  refine Keeps.bind (Keeps.bind silent_seen fun _ => Keeps.pure) fun value => ?_
  exact modifySelf_upkeep fun w hw => ⟨hw.multithreaded, hw.checkpoints, hw.unwinder, hw.hits⟩

omit [Unwind ω] in
theorem clearWatch_attributes :
    Keeps (Seen Attributes) (clearWatch arch : Method (Monitored Sighting ω) Unit) := by
  refine Keeps.bind self_upkeep fun s => ?_
  refine Keeps.bind (modifySelf_upkeep fun w hw =>
    ⟨hw.multithreaded, hw.checkpoints, hw.unwinder, hw.hits⟩) fun _ => ?_
  refine Keeps.bind (Keeps.when (forEach_attributes disarm_attributes _)) fun _ => ?_
  exact modifySelf_upkeep fun w hw => ⟨hw.multithreaded, hw.checkpoints, hw.unwinder, hw.hits⟩

omit [Unwind ω] in
theorem attributes_calls :
    CallUpkeep arch (Seen Attributes : World (Monitored Sighting ω) → Prop) (Seen Attributes) where
  interval _ _ hw := ⟨hw.multithreaded, hw.checkpoints, hw.unwinder, hw.hits⟩
  drained _ hw := ⟨hw.multithreaded, hw.checkpoints, hw.unwinder, fun _ => .nil _⟩
  restart := restart_attributes

/-- A session of several threads keeps the tie. -/
theorem reachable_attributes {w : World (Monitored Sighting ω)} (h : Reachable arch w)
    (hmulti : w.session.multithreaded = true) : Attributes w.session w.os.notes := by
  induction h with
  | @launch cmdline records os w hlaunch =>
    obtain ⟨pid, hsession⟩ := launch_session arch hlaunch
    have hstarted : Spec (fun w => Seen (fun _ _ => True) w)
        (launch arch : Method (Monitored Sighting ω) Unit)
        (fun _ => Seen fun _ seen => ∃ before pid, seen = before ++ [.started pid])
        (fun _ _ => True) := by
      refine Spec.bind self_upkeep fun s => ?_
      refine Spec.bind ((spawnStopped_started s.cmdline).mono (fun _ hw => hw) (fun _ _ hw => hw)
        (fun _ _ _ => trivial)) fun pid => ?_
      refine modifySelf_upkeep fun w hw => ?_
      obtain ⟨before, hseen, -⟩ := hw
      exact ⟨before, pid, hseen⟩
    obtain ⟨before, pid, hseen⟩ := hstarted.ok (s := ⟨_, os⟩) trivial hlaunch
    rw [hsession, hseen]
    rw [hsession] at hmulti
    exact ⟨hmulti, rfl, bound_append _ _, fun _ => .nil _⟩
  -- By the calls; the choice of the driver is the same in all of them.
  | @call w w' r hw c hcall ih =>
    rw [(perform_fixed arch hcall).2.2] at hmulti
    have hpost := attributes_upkeep.perform attributes_calls c
      (fun addr len kind _ => watch_attributes addr len kind) (fun _ => clearWatch_attributes)
      w (ih hmulti) r w' hcall
    cases r with
    | ok outcome => exact hpost
    | error e => exact hpost

/-- In a replay of several threads where one thread raises all watchpoint traps between
two takeovers of a process, every hit was read of the thread that trapped. -/
theorem hits_attributed {w : World (Monitored Sighting ω)} (h : Reachable arch w)
    (hmulti : w.session.multithreaded = true) (hone : OneThread w.os.notes) :
    Attributed w.os.notes w.session.watchHits :=
  (reachable_attributes h hmulti).hits hone

end

/-! ## Two writers -/

/-- A process whose stops are given: thread 1 creates thread 2, and thread 2 thread 3. -/
structure Writers where
  stops : List WaitStatus

instance : Ptrace .x86_64 Writers where
  spawnTraced _ d := (.ok 1, d)
  syscall _ _ d := (.ok (), d)
  step _ d := (.ok (), d)
  kill _ d := (.ok (), d)
  waitpid _ _ d :=
    match d.stops with
    | [] => (.error Errno.ECHILD, d)
    | stop :: stops => (.ok stop, { d with stops })
  setoptions _ _ d := (.ok (), d)
  getevent pid d := (.ok (pid + 1), d)
  getregs _ d := (.ok (regsWithNr .x86_64 56), d)
  setregs _ _ d := (.ok (), d)
  setSyscallNr _ _ d := (.ok (), d)
  processVmReadv _ _ len d := (.ok (List.replicate len 0), d)
  processVmWritev _ _ data d := (.ok data.length, d)
  pokeUser _ _ _ d := (.ok (), d)
  setHwWatch _ _ _ d := (.ok (), d)
  getsiginfo _ d := (.ok WatchHw.trapHwbkpt, d)

/-- The pc of a thread moves on with every stop. -/
instance : Unwind Writers where
  forPid _ d := (.ok (), d)
  registers pid d := (.ok ((if pid = 1 then 0x1000 else 0x2000) - d.stops.length.toUInt64), d)
  backtrace _ pc d := (.ok [⟨none, none, none, pc⟩], d)

/-- Thread 7 spawns thread 8, which spawns thread 9. -/
def spawnTwice : List Record :=
  [⟨0, .newWithTid .threadSpawn 0 7 [7, 0, 0, 0, 8, 0, 0, 0]⟩,
   ⟨1, .newWithTid .schedSwitch 0 8 [8, 0, 0, 0]⟩,
   ⟨2, .newWithTid .threadSpawn 0 8 [8, 0, 0, 0, 9, 0, 0, 0]⟩]

/-- Each of the two threads writes the watched range before it spawns. -/
def twoWriters : Monitored Sighting Writers where
  os := ⟨[.stopped 1 .trap, .stopped 1 .trap, .ptraceEvent 1 .trap EventCode.clone,
    .stopped 2 .stop, .stopped 2 .trap, .ptraceEvent 2 .trap EventCode.clone, .stopped 3 .stop]⟩
  notes := []

/-- A thread that hits the watchpoint once on its way to a spawn. -/
theorem exec_onThreadSpawn_hit {arch : Arch} [Ptrace arch ω] [Unwind ω] {record : Record}
    {tid : UInt32} {parent : Pid} {spawn : ThreadSpawn} {sig : Option Signal}
    {w w₁ w₂ w₃ w₄ w₅ w₆ : World ω}
    (htid : exec (Mt.enforceTid record) w = some (.ok tid, w₁))
    (hlive : exec (Mt.liveFor tid record.seq) w₁ = some (.ok parent, w₂))
    (hspawn : ThreadSpawn.decode record.event.payload = .ok spawn)
    (hsig : exec (Mt.takeResumeSignal parent) w₂ = some (.ok sig, w₃))
    (hhit : exec (Mt.stepRound arch parent sig) w₃ = some (.ok none, w₄))
    (hevent : exec (Mt.stepRound arch parent none) w₄ =
      some (.ok (some (.ptraceEvent parent .trap EventCode.clone)), w₅))
    (hchild : exec (do
      let child ← os (Ptrace.getevent arch parent)
      Mt.registerChild arch child record.seq
      Mt.bindChild record.seq spawn.childTid child parent false
      Mt.armChild arch child
      Mt.advance record.seq) w₅ = some (.ok (), w₆)) :
    exec (Mt.onThreadSpawn arch record) w = some (.ok (), w₆) := by
  -- The first round of waiting ends at the hit, the second at the event.
  have hstep : exec (Mt.stepThread arch parent sig) w₃ =
      some (.ok (.ptraceEvent parent .trap EventCode.clone), w₅) := by
    rw [Mt.stepThread, bind_ok hhit]
    exact loop_of_leaves (.inl ⟨_, hevent, rfl⟩)
  rw [Mt.onThreadSpawn, bind_ok htid, bind_ok hlive, hspawn, bind_ok (exec_orFail_ok _ spawn w₂),
    bind_ok hsig, bind_ok hstep]
  exact hchild

/-- The replay of the two spawns: after the first, and after both. -/
theorem exec_twoWriters : ∃ w v u x : World (Monitored Sighting Writers),
    exec (launch .x86_64) ⟨ReplaySession.ofTrace ⟨"true", []⟩ spawnTwice, twoWriters⟩ =
      some (.ok (), w) ∧
    exec (perform .x86_64 (.watch 0x5000 8 .write)) w = some (.ok none, v) ∧
    exec (perform .x86_64 (.stepTo 0)) v = some (.ok (some .running), u) ∧
    exec (perform .x86_64 (.stepTo 2)) u = some (.ok (some .running), x) ∧
    u.session.multithreaded = true ∧ u.session.watchHits.map (·.pc) = [0xFFB] ∧
    u.os.notes = [.started 1, .resumed 1, .trapped 1, .registers 1 0xFFB,
      .backtrace 1 0xFFB [⟨none, none, none, 0xFFB⟩], .resumed 1] ∧
    x.session.multithreaded = true ∧ x.session.watchHits.map (·.pc) = [0xFFB, 0xFFE] ∧
    x.os.notes = u.os.notes ++ [.resumed 2, .trapped 2, .registers 1 0xFFE,
      .backtrace 1 0xFFE [⟨none, none, none, 0xFFE⟩], .resumed 2] := by
  -- everything but the two loops is evaluated
  obtain ⟨w, v, w₀, w₁, w₂, w₃, w₄, w₅, u, x₀, x₁, x₂, x₃, x₄, x₅, x, hlaunch, hwatch, hseat,
      htid, hlive, hsig, hhit, hevent, hchild, hround, hend, hdrive, hswitch, htid', hlive', hsig',
      hhit', hevent', hchild', hround', hend', hdrive', hresults⟩ :
      ∃ w v w₀ w₁ w₂ w₃ w₄ w₅ u x₀ x₁ x₂ x₃ x₄ x₅ x : World (Monitored Sighting Writers),
        exec (launch .x86_64) ⟨ReplaySession.ofTrace ⟨"true", []⟩ spawnTwice, twoWriters⟩ =
          some (.ok (), w) ∧
        exec (perform .x86_64 (.watch 0x5000 8 .write)) w = some (.ok none, v) ∧
        exec (Mt.ensureState .x86_64) v = some (.ok (), w₀) ∧
        exec (Mt.enforceTid spawnTwice[0]) w₀ = some (.ok 7, w₁) ∧
        exec (Mt.liveFor 7 spawnTwice[0].seq) w₁ = some (.ok 1, w₂) ∧
        exec (Mt.takeResumeSignal 1) w₂ = some (.ok none, w₃) ∧
        exec (Mt.stepRound .x86_64 1 none) w₃ = some (.ok none, w₄) ∧
        exec (Mt.stepRound .x86_64 1 none) w₄ =
          some (.ok (some (.ptraceEvent 1 .trap EventCode.clone)), w₅) ∧
        exec (do
          let child ← os (Ptrace.getevent .x86_64 1)
          Mt.registerChild .x86_64 child spawnTwice[0].seq
          Mt.bindChild spawnTwice[0].seq 8 child 1 false
          Mt.armChild .x86_64 child
          Mt.advance spawnTwice[0].seq) w₅ = some (.ok (), u) ∧
        exec (Mt.driveRound .x86_64 (some 0)) w₀ = exec (do
          Mt.onThreadSpawn .x86_64 spawnTwice[0]
          pure none) w₀ ∧
        exec (Mt.driveRound .x86_64 (some 0)) u = some (.ok (some .running), u) ∧
        exec (drive .x86_64 (some 0)) v = exec (Mt.drive .x86_64 (some 0)) v ∧
        exec (Mt.driveRound .x86_64 (some 2)) u = some (.ok none, x₀) ∧
        exec (Mt.enforceTid spawnTwice[2]) x₀ = some (.ok 8, x₁) ∧
        exec (Mt.liveFor 8 spawnTwice[2].seq) x₁ = some (.ok 2, x₂) ∧
        exec (Mt.takeResumeSignal 2) x₂ = some (.ok none, x₃) ∧
        exec (Mt.stepRound .x86_64 2 none) x₃ = some (.ok none, x₄) ∧
        exec (Mt.stepRound .x86_64 2 none) x₄ =
          some (.ok (some (.ptraceEvent 2 .trap EventCode.clone)), x₅) ∧
        exec (do
          let child ← os (Ptrace.getevent .x86_64 2)
          Mt.registerChild .x86_64 child spawnTwice[2].seq
          Mt.bindChild spawnTwice[2].seq 9 child 2 false
          Mt.armChild .x86_64 child
          Mt.advance spawnTwice[2].seq) x₅ = some (.ok (), x) ∧
        exec (Mt.driveRound .x86_64 (some 2)) x₀ = exec (do
          Mt.onThreadSpawn .x86_64 spawnTwice[2]
          pure none) x₀ ∧
        exec (Mt.driveRound .x86_64 (some 2)) x = some (.ok (some .running), x) ∧
        exec (drive .x86_64 (some 2)) u = exec (Run.loop (Mt.driveRound .x86_64 (some 2))) u ∧
        u.session.multithreaded = true ∧ u.session.watchHits.map (·.pc) = [0xFFB] ∧
        u.os.notes = [.started 1, .resumed 1, .trapped 1, .registers 1 0xFFB,
          .backtrace 1 0xFFB [⟨none, none, none, 0xFFB⟩], .resumed 1] ∧
        x.session.multithreaded = true ∧ x.session.watchHits.map (·.pc) = [0xFFB, 0xFFE] ∧
        x.os.notes = u.os.notes ++ [.resumed 2, .trapped 2, .registers 1 0xFFE,
          .backtrace 1 0xFFE [⟨none, none, none, 0xFFE⟩], .resumed 2] :=
    ⟨_, _, _, _, _, _, _, _, _, _, _, _, _, _, _, _, rfl, rfl, rfl, rfl, rfl, rfl, rfl, rfl, rfl,
      rfl, rfl, rfl, rfl, rfl, rfl, rfl, rfl, rfl, rfl, rfl, rfl, rfl, rfl, rfl, rfl, rfl, rfl, rfl⟩
  have hspawn := exec_onThreadSpawn_hit htid hlive
    (show ThreadSpawn.decode _ = .ok ⟨7, 8⟩ from rfl) hsig hhit hevent hchild
  have hspawn' := exec_onThreadSpawn_hit htid' hlive'
    (show ThreadSpawn.decode _ = .ok ⟨8, 9⟩ from rfl) hsig' hhit' hevent' hchild'
  refine ⟨w, v, u, x, hlaunch, hwatch, ?_, ?_, hresults⟩
  · have hloop : exec (Mt.drive .x86_64 (some 0)) v = some (.ok .running, u) := by
      rw [Mt.drive, bind_ok hseat, loop_again (hround.trans (bind_ok hspawn))]
      exact loop_of_leaves (.inl ⟨_, hend, rfl⟩)
    exact (bind_ok (hdrive.trans hloop)).trans rfl
  · have hloop : exec (drive .x86_64 (some 2)) u = some (.ok .running, x) := by
      rw [hdrive', loop_again hswitch, loop_again (hround'.trans (bind_ok hspawn'))]
      exact loop_of_leaves (.inl ⟨_, hend', rfl⟩)
    exact (bind_ok hloop).trans rfl

/-- Thread 1 hits the watchpoint alone, and the hit is its own. -/
theorem hits_attributed_first :
    ∃ w : World (Monitored Sighting Writers), Reachable .x86_64 w ∧
      w.session.multithreaded = true ∧ OneThread w.os.notes ∧
      w.session.watchHits.map (·.pc) = [0xFFB] ∧ Attributed w.os.notes w.session.watchHits := by
  obtain ⟨w, v, u, x, hlaunch, hwatch, hfirst, -, hmulti, hpcs, hnotes, -⟩ := exec_twoWriters
  have hreachable : Reachable .x86_64 u := .call (.call (.launch hlaunch) _ hwatch) _ hfirst
  have hone : OneThread u.os.notes := by
    rw [hnotes]
    have hsnoc : OneThread ([] ++ [.started 1] ++ [.resumed 1] ++ [.trapped 1] ++
        [.registers 1 0xFFB] ++ [.backtrace 1 0xFFB [⟨none, none, none, 0xFFB⟩]] ++
        [.resumed 1]) := by
      unfold OneThread
      simp only [List.each_snoc]
      simp [List.each_nil, bound, bindTo]
    exact hsnoc
  exact ⟨u, hreachable, hmulti, hone, hpcs, hits_attributed hreachable hmulti hone⟩

/-- What was seen of the last hit. -/
theorem Attributed.last {seen : List Sighting} {hits : List WatchHit} {pcs : List UInt64}
    {pc : UInt64} (h : Attributed seen hits) (hpcs : hits.map (·.pc) = pcs ++ [pc]) :
    ∃ n pid, seen[n]? = some (.trapped pid) ∧ seen[n + 1]? = some (.registers pid pc) := by
  cases h with
  | nil => simp at hpcs
  | @hit seen hits earlier pid hit later =>
    have hpc : hit.pc = pc := by
      rw [List.map_append] at hpcs
      exact List.singleton_inj.mp (List.append_inj' hpcs rfl).2
    refine ⟨seen.length, pid, ?_, ?_⟩
    · simp
    · simp [hpc]

/-- Thread 2 hits the watchpoint after thread 1, and its hit is read of thread 1. -/
theorem hits_of_second_writer :
    ∃ w : World (Monitored Sighting Writers), Reachable .x86_64 w ∧
      w.session.multithreaded = true ∧ ¬ Attributed w.os.notes w.session.watchHits := by
  obtain ⟨w, v, u, x, hlaunch, hwatch, hfirst, hsecond, -, -, hnotes, hmulti, hpcs, hnotes'⟩ :=
    exec_twoWriters
  have hreachable : Reachable .x86_64 x :=
    .call (.call (.call (.launch hlaunch) _ hwatch) _ hfirst) _ hsecond
  refine ⟨x, hreachable, hmulti, fun hattributed => ?_⟩
  obtain ⟨n, pid, htrapped, hread⟩ := hattributed.last (show _ = [0xFFB] ++ [0xFFE] from hpcs)
  rw [hnotes', hnotes] at htrapped hread
  -- the registers were read right after the trap, but of the other thread
  have hn : n < 11 := (List.getElem?_eq_some_iff.mp htrapped).1
  interval_cases n <;> simp at htrapped hread
  exact absurd (hread.trans htrapped.symm) (by decide)

end Mirrorscope.Replay
