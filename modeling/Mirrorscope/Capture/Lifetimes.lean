import Mirrorscope.Capture.Queue

/-! # Lifetimes in a recording

What the events of a recording say of each thread: it is born by the spawn that names it,
enters and leaves its syscalls in turn, and is silent after its exit. The scheduler writes
such a log whenever a child is announced by its parent before anything else is recorded of
it.

The log and the scheduler are tied by one invariant over the reports, `Chronicled`:
* `alive`, `lastSyscall`: what a log says of a thread.
* `Lawful`, `WellFormed`: an event that a thread may make in its place in a log, and a log of
  such events.
* `Orderly`: what the kernel promises of its reports. `Announcing`: no parent is lost between a
  child and its name.
* `Starts.chronicled`, `Handled.chronicled`: the two halves of a turn keep the invariant.
* `turn_chosen`: a turn that fails has written at most a switch.
* `recording_wellFormed`: the log of every recording is well formed.
-/

namespace Mirrorscope.Capture

open Linux Run
open Trace (Event EventKind leField leField_at)

/-! ## What a log says of a thread -/

/-- The thread a spawn event names. -/
def spawnOf (e : Event) : Option UInt32 :=
  if e.kind = .threadSpawn then (ThreadSpawn.decode e.payload).toOption.map ThreadSpawn.childTid
  else none

/-- The thread whose exit was recorded. -/
def exitOf (e : Event) : Option UInt32 := if e.kind = .threadExit then e.tid else none

/-- The thread that entered or left a syscall. -/
def syscallOf (e : Event) : Option UInt32 :=
  if e.kind = .syscallEnter ∨ e.kind = .syscallExit then e.tid else none

/-- The number of a syscall leads the payload of its entry and of its exit. -/
def nrOf (e : Event) : UInt64 := UInt64.ofNat (leField e.payload 0 8)

/-- Whether a thread is alive after `log`: the leader is from the start, another thread from
the spawn that names it, and either until its exit. -/
def alive (leader t : UInt32) (log : List Event) : Bool :=
  log.foldl (fun b e => if spawnOf e = some t then true else if exitOf e = some t then false else b)
    (t == leader)

/-- The last entry into or exit from a syscall in the current lifetime of a thread. -/
def lastSyscall (t : UInt32) (log : List Event) : Option Event :=
  log.foldl (fun last e =>
    if syscallOf e = some t then some e else if exitOf e = some t then none else last) none

/-- An event of thread `t` that may follow `before`: the thread is alive; it enters a syscall
only outside one, and leaves the one it entered last. -/
structure Lawful (leader : UInt32) (before : List Event) (e : Event) (t : UInt32) : Prop where
  tag : e.tid = some t
  alive : alive leader t before = true
  enter : e.kind = .syscallEnter →
    ∀ last, lastSyscall t before = some last → last.kind = .syscallExit
  exit : e.kind = .syscallExit →
    ∃ enter, lastSyscall t before = some enter ∧ enter.kind = .syscallEnter ∧ nrOf e = nrOf enter
  switch : e.kind = .schedSwitch → SchedSwitch.decode e.payload = .ok { tid := t }
  gone : e.kind = .threadExit → ThreadExit.decode e.payload = .ok { tid := t }

/-- Every event of the log may follow those before it. -/
def WellFormed (leader : UInt32) (log : List Event) : Prop :=
  log.Each fun before e => ∃ t, Lawful leader before e t

section Events

variable {leader t : UInt32} {log : List Event} {e : Event} {ts : UInt64} {p child : Pid}
  {sig : Signal} {regs : Registers} {ret : Int64} {data : Bytes}

/-- The last event about a thread decides, and one that names it or ends it settles it. -/
theorem alive_snoc : alive leader t (log ++ [e]) =
    if spawnOf e = some t then true else if exitOf e = some t then false
    else alive leader t log := by
  rw [alive, List.foldl_append]
  rfl

/-- An exit of the thread forgets the call it was in. -/
theorem lastSyscall_snoc : lastSyscall t (log ++ [e]) =
    if syscallOf e = some t then some e else if exitOf e = some t then none
    else lastSyscall t log := by
  rw [lastSyscall, List.foldl_append]
  rfl

@[simp] theorem spawnOf_spawnEvent : spawnOf (spawnEvent ts p child) = some (tidOf child) := by
  simp [spawnOf, spawnEvent, Event.newWithTid, ThreadSpawn.decode_encode, Except.toOption]

@[simp] theorem spawnOf_switchEvent : spawnOf (switchEvent ts p) = none := rfl
@[simp] theorem spawnOf_enterEvent : spawnOf (enterEvent ts t regs) = none := rfl
@[simp] theorem spawnOf_syscallExitEvent :
    spawnOf (syscallExitEvent ts p regs ret data) = none := rfl
@[simp] theorem spawnOf_signalEvent : spawnOf (signalEvent ts p sig) = none := rfl
@[simp] theorem spawnOf_threadExitEvent : spawnOf (threadExitEvent ts p) = none := rfl

@[simp] theorem exitOf_spawnEvent : exitOf (spawnEvent ts p child) = none := rfl
@[simp] theorem exitOf_switchEvent : exitOf (switchEvent ts p) = none := rfl
@[simp] theorem exitOf_enterEvent : exitOf (enterEvent ts t regs) = none := rfl
@[simp] theorem exitOf_syscallExitEvent :
    exitOf (syscallExitEvent ts p regs ret data) = none := rfl
@[simp] theorem exitOf_signalEvent : exitOf (signalEvent ts p sig) = none := rfl
@[simp] theorem exitOf_threadExitEvent : exitOf (threadExitEvent ts p) = some (tidOf p) := rfl

@[simp] theorem syscallOf_spawnEvent : syscallOf (spawnEvent ts p child) = none := rfl
@[simp] theorem syscallOf_switchEvent : syscallOf (switchEvent ts p) = none := rfl
@[simp] theorem syscallOf_enterEvent : syscallOf (enterEvent ts t regs) = some t := rfl
@[simp] theorem syscallOf_syscallExitEvent :
    syscallOf (syscallExitEvent ts p regs ret data) = some (tidOf p) := rfl
@[simp] theorem syscallOf_signalEvent : syscallOf (signalEvent ts p sig) = none := rfl
@[simp] theorem syscallOf_threadExitEvent : syscallOf (threadExitEvent ts p) = none := rfl

@[simp] theorem nrOf_enterEvent : nrOf (enterEvent ts t regs) = regs.nr := by
  have h := leField_at [] 8 regs.nr.toNat (encodeWords regs.args.toList)
  rw [List.nil_append, List.length_nil] at h
  rw [nrOf, enterEvent, Event.newWithTid, SyscallEnter.encode, h, LittleEndian.ofNat_mod_u64]

@[simp] theorem nrOf_syscallExitEvent : nrOf (syscallExitEvent ts p regs ret data) = regs.nr := by
  have h := leField_at [] 8 regs.nr.toNat (LittleEndian.encode 8 ret.toUInt64.toNat ++
    LittleEndian.encode 4 data.length ++ data)
  simp only [List.nil_append, List.length_nil] at h
  simp only [nrOf, syscallExitEvent, Event.newWithTid, exitPayload, SyscallExit.encode,
    List.append_assoc] at h ⊢
  rw [h, LittleEndian.ofNat_mod_u64]

/-- A log grows by an event that may follow it. -/
theorem WellFormed.snoc (h : WellFormed leader log) (he : Lawful leader log e t) :
    WellFormed leader (log ++ [e]) :=
  List.each_snoc.mpr ⟨h, t, he⟩

theorem lawful_switchEvent (h : alive leader (tidOf p) log = true) :
    Lawful leader log (switchEvent ts p) (tidOf p) where
  tag := rfl
  alive := h
  enter hkind := by cases hkind
  exit hkind := by cases hkind
  switch _ := SchedSwitch.decode_encode _
  gone hkind := by cases hkind

/-- A spawn is the parent's event; it opens nothing of the parent's. -/
theorem lawful_spawnEvent (h : alive leader (tidOf p) log = true) :
    Lawful leader log (spawnEvent ts p child) (tidOf p) where
  tag := rfl
  alive := h
  enter hkind := by cases hkind
  exit hkind := by cases hkind
  switch hkind := by cases hkind
  gone hkind := by cases hkind

theorem lawful_signalEvent (h : alive leader (tidOf p) log = true) :
    Lawful leader log (signalEvent ts p sig) (tidOf p) where
  tag := rfl
  alive := h
  enter hkind := by cases hkind
  exit hkind := by cases hkind
  switch hkind := by cases hkind
  gone hkind := by cases hkind

theorem lawful_threadExitEvent (h : alive leader (tidOf p) log = true) :
    Lawful leader log (threadExitEvent ts p) (tidOf p) where
  tag := rfl
  alive := h
  enter hkind := by cases hkind
  exit hkind := by cases hkind
  switch hkind := by cases hkind
  gone _ := ThreadExit.decode_encode _

/-- What the log says of the syscall a thread is in. -/
def InSyscall (t : UInt32) (log : List Event) : Option Registers → Prop
  | none => ∀ last, lastSyscall t log = some last → last.kind = .syscallExit
  | some regs => ∃ enter, lastSyscall t log = some enter ∧ enter.kind = .syscallEnter ∧
      regs.nr = nrOf enter

/-- A call is entered outside of any call. -/
theorem lawful_enterEvent (h : alive leader t log = true) (hnone : InSyscall t log none) :
    Lawful leader log (enterEvent ts t regs) t where
  tag := rfl
  alive := h
  enter _ := hnone
  exit hkind := by cases hkind
  switch hkind := by cases hkind
  gone hkind := by cases hkind

/-- A call is left with the number it was entered with. -/
theorem lawful_syscallExitEvent (h : alive leader (tidOf p) log = true)
    (hsome : InSyscall (tidOf p) log (some regs)) :
    Lawful leader log (syscallExitEvent ts p regs ret data) (tidOf p) where
  tag := rfl
  alive := h
  enter hkind := by cases hkind
  exit _ := by
    rw [nrOf_syscallExitEvent]
    exact hsome
  switch hkind := by cases hkind
  gone hkind := by cases hkind

end Events

/-! ## What the operations leave of the log -/

namespace Scheduler

variable (s : Scheduler) (pid p : Pid)

@[simp] theorem writer_emit (e : Event) : (s.emit e).writer = s.writer ++ [e] := rfl

@[simp] theorem writer_removed (code : Option Int32) : (s.removed pid code).writer = s.writer := rfl

@[simp] theorem writer_clearRunning : (s.clearRunning pid).writer = s.writer := by
  unfold clearRunning
  split
  · rfl
  · rfl

@[simp] theorem writer_modifyThread (f : Thread → Thread) :
    (s.modifyThread pid f).writer = s.writer := by
  unfold modifyThread
  split
  · rfl
  · rfl

@[simp] theorem writer_requeue : (s.requeue pid).writer = s.writer := by
  unfold requeue
  split
  · rfl
  · rfl

@[simp] theorem writer_release : (s.release pid).writer = s.writer := by
  unfold release
  split
  · exact writer_requeue _ _
  · rfl

@[simp] theorem writer_untracked : (s.untracked pid).writer = s.writer :=
  writer_clearRunning s pid

@[simp] theorem threadsFollowed_emit (e : Event) :
    (s.emit e).threadsFollowed = s.threadsFollowed := rfl

@[simp] theorem threadsFollowed_removed (code : Option Int32) :
    (s.removed pid code).threadsFollowed = s.threadsFollowed := rfl

@[simp] theorem threadsFollowed_clearRunning :
    (s.clearRunning pid).threadsFollowed = s.threadsFollowed :=
  Capture.threadsFollowed_clearRunning s pid

@[simp] theorem threadsFollowed_modifyThread (f : Thread → Thread) :
    (s.modifyThread pid f).threadsFollowed = s.threadsFollowed := by
  unfold modifyThread
  split
  · rfl
  · rfl

@[simp] theorem threadsFollowed_requeue :
    (s.requeue pid).threadsFollowed = s.threadsFollowed := by
  unfold requeue
  split
  · rfl
  · rfl

@[simp] theorem threadsFollowed_release :
    (s.release pid).threadsFollowed = s.threadsFollowed := by
  unfold release
  split
  · exact threadsFollowed_requeue _ _
  · rfl

@[simp] theorem threadsFollowed_untracked :
    (s.untracked pid).threadsFollowed = s.threadsFollowed :=
  threadsFollowed_clearRunning s pid

@[simp] theorem pendingOf_emit (e : Event) : (s.emit e).pendingOf p = s.pendingOf p := rfl

@[simp] theorem pendingOf_removed (code : Option Int32) :
    (s.removed pid code).pendingOf p = s.pendingOf p := rfl

@[simp] theorem pendingOf_clearRunning : (s.clearRunning pid).pendingOf p = s.pendingOf p := by
  unfold pendingOf
  rw [threads_clearRunning]

@[simp] theorem pendingOf_requeue : (s.requeue pid).pendingOf p = s.pendingOf p := by
  unfold pendingOf
  rw [threads_requeue]

@[simp] theorem pendingOf_release : (s.release pid).pendingOf p = s.pendingOf p := by
  unfold release
  split
  · exact pendingOf_requeue _ _ _
  · rfl

variable {s pid p}

theorem pendingOf_untracked (hne : p ≠ pid) : (s.untracked pid).pendingOf p = s.pendingOf p := by
  unfold untracked pendingOf
  rw [threads_clearRunning, KeyMap.get_erase, if_neg (Ne.symm hne)]

/-- The pending call of another thread is untouched. -/
theorem pendingOf_modifyThread_of_ne {f : Thread → Thread} (hne : p ≠ pid) :
    (s.modifyThread pid f).pendingOf p = s.pendingOf p := by
  unfold modifyThread
  split
  · unfold pendingOf
    rw [KeyMap.get_insert, if_neg (Ne.symm hne)]
  · rfl

/-- What a tracked thread awaits after an update of it. -/
theorem pendingOf_modifyThread {f : Thread → Thread} {o : Option Registers} (h : s.Tracks pid)
    (hf : ∀ t, (f t).pendingEnter = o) : (s.modifyThread pid f).pendingOf pid = o := by
  obtain ⟨thread, hthread⟩ := Option.isSome_iff_exists.mp h
  unfold modifyThread pendingOf
  rw [hthread]
  simp only
  rw [KeyMap.get_insert, if_pos rfl]
  exact hf thread

/-- An update of the signal alone. -/
theorem pendingOf_modifyThread_of_keeps {f : Thread → Thread}
    (hf : ∀ t, (f t).pendingEnter = t.pendingEnter) :
    (s.modifyThread pid f).pendingOf p = s.pendingOf p := by
  unfold modifyThread
  split
  · rename_i thread hthread
    unfold pendingOf
    rw [KeyMap.get_insert]
    split
    · rename_i heq
      rw [← heq, hthread]
      exact hf thread
    · rfl
  · rfl

variable {ts : UInt64} {next : Pid} {ready : List Pid}

@[simp] theorem pendingOf_resumed : (s.resumed ts next ready).pendingOf p = s.pendingOf p := by
  refine (pendingOf_modifyThread_of_keeps (s := { s with ready }.switched ts next)
    (f := fun t => { t with resumeSignal := none }) fun _ => rfl).trans ?_
  unfold pendingOf
  rw [(switched_fields { s with ready } ts next).1]

@[simp] theorem threadsFollowed_resumed :
    (s.resumed ts next ready).threadsFollowed = s.threadsFollowed := by
  refine (threadsFollowed_modifyThread _ _ _).trans ?_
  unfold switched
  split
  · rfl
  · rfl

/-- A switch is recorded unless the thread ran last. -/
theorem writer_resumed : (s.resumed ts next ready).writer =
    if s.lastScheduled = some next then s.writer else s.writer ++ [switchEvent ts next] := by
  refine (writer_modifyThread _ _ _).trans ?_
  unfold switched
  split
  · rfl
  · rfl

@[simp] theorem running_release : (s.release pid).running = s.running := by
  unfold release
  split
  · exact running_requeue _ _
  · rfl

@[simp] theorem running_removed {code : Option Int32} :
    (s.removed pid code).running = s.running := rfl

theorem running_untracked :
    (s.untracked pid).running = some p ↔ p ≠ pid ∧ s.running = some p := by
  change (s.clearRunning pid).running = some p ↔ _
  rw [running_clearRunning]
  split
  · rename_i hrunning
    simp [hrunning, eq_comm]
  · rename_i hnot
    constructor
    · intro hrunning
      refine ⟨?_, hrunning⟩
      rintro rfl
      exact hnot hrunning
    · exact fun h => h.2

/-- The exit of a child queues its withheld parent at most. -/
theorem mem_ready_release (h : p ∈ (s.release pid).ready) : p ∈ s.ready ∨ s.Tracks p := by
  unfold release at h
  split at h
  · rcases mem_ready_requeue.mp h with h | ⟨rfl, h⟩
    · exact .inl h
    · exact .inr h
  · exact .inl h

end Scheduler

/-! ## Announced children -/

/-- The values of `pid_t`. -/
def IsPid (p : Pid) : Prop := -2 ^ 31 ≤ p ∧ p < 2 ^ 31

/-- Different threads have different tids. -/
theorem tidOf_inj {p q : Pid} (hp : IsPid p) (hq : IsPid q) (h : tidOf p = tidOf q) : p = q := by
  suffices hint : ∀ a b : Int, -2 ^ 31 ≤ a ∧ a < 2 ^ 31 → -2 ^ 31 ≤ b ∧ b < 2 ^ 31 →
      UInt32.ofInt a = UInt32.ofInt b → a = b from hint p q hp hq h
  intro a b ha hb hab
  have hnat := congrArg UInt32.toNat hab
  simp only [UInt32.ofInt, UInt32.toNat_ofNat'] at hnat
  omega

/-- Whether a thread was named by its parent and not seen to exit since; the leader counts as
named from the start. -/
def announced (leader : Pid) (past : List Report) (p : Pid) : Bool :=
  past.foldl (fun b r =>
    if r.child = some p then true
    else if (gone r.status).map Prod.fst = some p then false
    else b) (p == leader)

/-- A thread that is tracked since its first stop, and that its parent has not named yet. -/
def Unannounced (leader : Pid) (past : List Report) (s : Scheduler) (child : Pid) : Prop :=
  s.Tracks child ∧ announced leader past child = false

/-- What the kernel promises of its reports, `parent past p` being the thread that created `p`:
pids are of `pid_t`; a thread keeps its parent; a stop is that of the running thread or the
first one of a new child; and the next stop of the parent of a child that is not named yet
names it. -/
structure Orderly (leader : Pid) (parent : List Report → Pid → Pid) (past : List Report)
    (r : Report) : Prop where
  pid : ∀ p, about r.status = some p → IsPid p
  child : ∀ p, r.child = some p → IsPid p
  kin : ∀ p, r.state.Tracks p → parent (past ++ [r]) p = parent past p
  stop : ∀ p, stopOf r.status = some p →
    r.state.running = some p ∨ (∃ sig, r.status = .stopped p sig) ∧ ¬ r.state.Tracks p
  next : ∀ child, Unannounced leader past r.state child →
    stopOf r.status = some (parent past child) → r.child = some child

/-- No child is left behind by a parent that dies while it creates it, and none dies before it
is named: a child that is not named when it first stops has its parent still running, and
until the parent's stop that names it neither of them is seen to exit. -/
structure Announcing (leader : Pid) (parent : List Report → Pid → Pid) (past : List Report)
    (r : Report) : Prop where
  born : ∀ child sig, r.status = .stopped child sig → ¬ r.state.Tracks child →
    announced leader past child = true ∨ r.state.running = some (parent (past ++ [r]) child)
  exit : ∀ p code child, gone r.status = some (p, code) →
    Unannounced leader past r.state child → p ≠ child ∧ p ≠ parent past child

/-- A report names its child and takes the name from a thread that is gone. -/
theorem announced_snoc {leader : Pid} {past : List Report} {r : Report} {p : Pid} :
    announced leader (past ++ [r]) p =
      if r.child = some p then true
      else if (gone r.status).map Prod.fst = some p then false
      else announced leader past p := by
  rw [announced, List.foldl_append]
  rfl

/-! ## The log of a scheduler -/

/-- The log is well formed, and it agrees with what the scheduler keeps of its threads. -/
structure Chronicled (leader : Pid) (parent : List Report → Pid → Pid) (past : List Report)
    (s : Scheduler) : Prop where
  wellFormed : WellFormed (tidOf leader) s.writer
  pid : ∀ p, s.Tracks p → IsPid p
  queued : ∀ p ∈ s.ready, s.Tracks p
  running : ∀ p, s.running = some p → s.Tracks p ∧ announced leader past p = true
  /-- Only while its parent runs is a child not named yet. -/
  named : ∀ p, s.Tracks p → announced leader past p = true ∨ s.running = some (parent past p)
  alive : ∀ p, IsPid p → announced leader past p = true →
    alive (tidOf leader) (tidOf p) s.writer = true
  syscalls : ∀ p, s.Tracks p → InSyscall (tidOf p) s.writer (s.pendingOf p)
  /-- While any thread is left, the log is clear for a new one. -/
  absent : ∀ p q, s.Tracks q → IsPid p → ¬ s.Tracks p → lastSyscall (tidOf p) s.writer = none
  followed : 1 ≤ s.threadsFollowed
  alone : s.threadsFollowed ≤ 1 → ∀ p, s.Tracks p → p = leader

/-- Only the last syscall event of a thread is looked at. -/
theorem inSyscall_congr {t : UInt32} {log log' : List Event}
    (h : lastSyscall t log' = lastSyscall t log) (o : Option Registers) :
    InSyscall t log' o ↔ InSyscall t log o := by
  cases o with
  | none => simp only [InSyscall, h]
  | some regs => simp only [InSyscall, h]

/-- At the start there is the leader alone, and the log is empty. -/
theorem ofLeader_chronicled {leader : Pid} {parent : List Report → Pid → Pid} (h : IsPid leader) :
    Chronicled leader parent [] (.ofLeader leader) := by
  have htracks (p : Pid) (hp : (Scheduler.ofLeader leader).Tracks p) : p = leader := by
    rw [Scheduler.Tracks, Scheduler.ofLeader, KeyMap.get_insert] at hp
    split at hp
    · rename_i heq
      exact heq.symm
    · simp at hp
  refine { wellFormed := List.each_nil, pid := ?_, queued := ?_, running := ?_, named := ?_,
           alive := ?_, syscalls := ?_, absent := ?_, followed := le_refl 1, alone := ?_ }
  · intro p hp
    rw [htracks p hp]
    exact h
  · exact (ofLeader_queued leader).tracked
  · intro p hp
    cases hp
  · intro p hp
    rw [htracks p hp]
    exact .inl (beq_self_eq_true leader)
  · intro p _ hp
    rw [show p = leader from eq_of_beq hp]
    exact beq_self_eq_true (tidOf leader)
  · intro p hp
    rw [htracks p hp, Scheduler.pendingOf, Scheduler.ofLeader, KeyMap.get_insert, if_pos rfl]
    intro last hlast
    cases hlast
  · intro p q _ _ _
    rfl
  · intro _ p hp
    exact htracks p hp

section Steps

variable {leader pid : Pid} {parent : List Report → Pid → Pid} {past : List Report}
  {s s' : Scheduler} {r : Report}

/-- An event that begins and ends nothing. -/
structure Neutral (e : Event) : Prop where
  spawn : spawnOf e = none
  exit : exitOf e = none
  syscall : syscallOf e = none

theorem Neutral.alive {e : Event} (h : Neutral e) (l t : UInt32) (log : List Event) :
    alive l t (log ++ [e]) = alive l t log := by
  rw [alive_snoc, h.spawn, h.exit]
  simp

theorem Neutral.lastSyscall {e : Event} (h : Neutral e) (t : UInt32) (log : List Event) :
    lastSyscall t (log ++ [e]) = lastSyscall t log := by
  rw [lastSyscall_snoc, h.syscall, h.exit]
  simp

/-- Before a report is waited for, a thread is resumed if none runs. The switch that may be
written is an event of a thread that was named. -/
theorem Starts.chronicled (hstart : Starts s s') (h : Chronicled leader parent past s) :
    Chronicled leader parent past s' := by
  cases hstart with
  | running _ => exact h
  | idle _ _ => exact h
  | @resumed next ready hrunning hready ts =>
    have htracked : s.Tracks next := h.queued next (by simp [hready])
    -- no parent runs, so every child is named
    have hall (p : Pid) (hp : s.Tracks p) : announced leader past p = true := by
      rcases h.named p hp with hnamed | hruns
      · exact hnamed
      · rw [hrunning] at hruns
        cases hruns
    have halive := h.alive next (h.pid next htracked) (hall next htracked)
    have hlog : (s.resumed ts next ready).writer = s.writer ∨
        (s.resumed ts next ready).writer = s.writer ++ [switchEvent ts next] := by
      rw [Scheduler.writer_resumed]
      split
      · exact .inl rfl
      · exact .inr rfl
    have hneutral : Neutral (switchEvent ts next) := ⟨rfl, rfl, rfl⟩
    have hlives (l u : UInt32) : Capture.alive l u (s.resumed ts next ready).writer =
        Capture.alive l u s.writer := by
      rcases hlog with hlog | hlog
      · rw [hlog]
      · rw [hlog, hneutral.alive]
    have hcalls (u : UInt32) : Capture.lastSyscall u (s.resumed ts next ready).writer =
        Capture.lastSyscall u s.writer := by
      rcases hlog with hlog | hlog
      · rw [hlog]
      · rw [hlog, hneutral.lastSyscall]
    -- The log says of every thread what it said before; the queue lost its first thread to
    -- `running`.
    refine { wellFormed := ?_, pid := ?_, queued := ?_, running := ?_, named := ?_, alive := ?_,
             syscalls := ?_, absent := ?_, followed := ?_, alone := ?_ }
    · rcases hlog with hlog | hlog
      · rw [hlog]
        exact h.wellFormed
      · rw [hlog]
        exact h.wellFormed.snoc (lawful_switchEvent halive)
    · intro p hp
      exact h.pid p (Scheduler.tracks_resumed.mp hp)
    · intro p hp
      rw [Scheduler.ready_resumed] at hp
      exact Scheduler.tracks_resumed.mpr (h.queued p (by simp [hready, hp]))
    · intro p hp
      rcases Option.some.inj hp with rfl
      exact ⟨Scheduler.tracks_resumed.mpr htracked, hall _ htracked⟩
    · intro p hp
      exact .inl (hall p (Scheduler.tracks_resumed.mp hp))
    · intro p hp hnamed
      rw [hlives]
      exact h.alive p hp hnamed
    · intro p hp
      rw [Scheduler.pendingOf_resumed, inSyscall_congr (hcalls _)]
      exact h.syscalls p (Scheduler.tracks_resumed.mp hp)
    · intro p q hq hp hnot
      rw [hcalls]
      refine h.absent p q (Scheduler.tracks_resumed.mp hq) hp fun hp => hnot ?_
      exact Scheduler.tracks_resumed.mpr hp
    · rw [Scheduler.threadsFollowed_resumed]
      exact h.followed
    · intro hfew p hp
      rw [Scheduler.threadsFollowed_resumed] at hfew
      exact h.alone hfew p (Scheduler.tracks_resumed.mp hp)

/-- The running thread stops; who is tracked is the same. -/
structure Stops (s s' : Scheduler) (pid : Pid) : Prop where
  tracks : ∀ p, s'.Tracks p ↔ s.Tracks p
  ready : ∀ p ∈ s'.ready, p ∈ s.ready ∨ p = pid
  idle : s'.running = none
  followed : s'.threadsFollowed = s.threadsFollowed

/-- At a stop of the running thread no child is left that is not named. -/
theorem Chronicled.allNamed (h : Chronicled leader parent past r.state)
    (hr : Orderly leader parent past r) (hrunning : r.state.running = some pid)
    (hstop : stopOf r.status = some pid) (p : Pid) (hp : r.state.Tracks p) :
    announced leader (past ++ [r]) p = true := by
  have hgone : gone r.status = none := by
    unfold stopOf at hstop
    split at hstop
    · rename_i hstatus
      rw [hstatus]
      rfl
    · rename_i hstatus
      rw [hstatus]
      rfl
    · rename_i hstatus
      rw [hstatus]
      rfl
    · cases hstop
  rw [announced_snoc, hgone]
  cases hnamed : announced leader past p with
  | true => simp
  | false =>
    -- its parent is the thread that stops
    rcases h.named p hp with hbefore | hparent
    · rw [hnamed] at hbefore
      cases hbefore
    · have hstops := hstop.trans (hrunning.symm.trans hparent)
      simp [hr.next p ⟨hp, hnamed⟩ hstops]

/-- After a stop of the running thread. -/
theorem Chronicled.stop (h : Chronicled leader parent past r.state)
    (hr : Orderly leader parent past r) (hrunning : r.state.running = some pid)
    (hstop : stopOf r.status = some pid) (hstops : Stops r.state s' pid)
    (hwell : WellFormed (tidOf leader) s'.writer)
    (halive : ∀ p, IsPid p → announced leader (past ++ [r]) p = true →
      Capture.alive (tidOf leader) (tidOf p) s'.writer = true)
    (hsyscalls : ∀ p, r.state.Tracks p → InSyscall (tidOf p) s'.writer (s'.pendingOf p))
    (habsent : ∀ p, IsPid p → ¬ r.state.Tracks p →
      Capture.lastSyscall (tidOf p) s'.writer = Capture.lastSyscall (tidOf p) r.state.writer) :
    Chronicled leader parent (past ++ [r]) s' where
  wellFormed := hwell
  pid p hp := h.pid p ((hstops.tracks p).mp hp)
  queued p hp := by
    rw [hstops.tracks]
    rcases hstops.ready p hp with hp | rfl
    · exact h.queued p hp
    · exact (h.running p hrunning).1
  running p hp := by
    rw [hstops.idle] at hp
    cases hp
  named p hp := .inl (h.allNamed hr hrunning hstop p ((hstops.tracks p).mp hp))
  alive := halive
  syscalls p hp := hsyscalls p ((hstops.tracks p).mp hp)
  absent p q hq hp hnot := by
    rw [hstops.tracks] at hq hnot
    rw [habsent p hp hnot]
    exact h.absent p q hq hp hnot
  followed := by
    rw [hstops.followed]
    exact h.followed
  alone hfew p hp := by
    rw [hstops.followed] at hfew
    exact h.alone hfew p ((hstops.tracks p).mp hp)

/-- After a stop that leaves the log as it was, or adds to it an event that begins and ends
nothing. -/
theorem Chronicled.quietStop (h : Chronicled leader parent past r.state)
    (hr : Orderly leader parent past r) (hrunning : r.state.running = some pid)
    (hstop : stopOf r.status = some pid) (hchild : r.child = none) (hstops : Stops r.state s' pid)
    (hlog : s'.writer = r.state.writer ∨
      ∃ e, Neutral e ∧ Lawful (tidOf leader) r.state.writer e (tidOf pid) ∧
        s'.writer = r.state.writer ++ [e])
    (hpending : ∀ p, s'.pendingOf p = r.state.pendingOf p) :
    Chronicled leader parent (past ++ [r]) s' := by
  -- A stop writes nothing, or one event that opens and closes nothing.
  have hcalls (t : UInt32) : lastSyscall t s'.writer = lastSyscall t r.state.writer := by
    rcases hlog with hlog | ⟨e, hneutral, -, hlog⟩
    · rw [hlog]
    · rw [hlog, hneutral.lastSyscall]
  refine h.stop hr hrunning hstop hstops ?_ ?_ ?_ fun p _ _ => hcalls _
  · rcases hlog with hlog | ⟨e, -, hlawful, hlog⟩
    · rw [hlog]
      exact h.wellFormed
    · rw [hlog]
      exact h.wellFormed.snoc hlawful
  · intro p hp hnamed
    have hbefore : announced leader past p = true := by
      rw [announced_snoc, hchild] at hnamed
      simp only [reduceCtorEq, if_false] at hnamed
      split at hnamed
      · cases hnamed
      · exact hnamed
    rcases hlog with hlog | ⟨e, hneutral, -, hlog⟩
    · rw [hlog]
      exact h.alive p hp hbefore
    · rw [hlog, hneutral.alive]
      exact h.alive p hp hbefore
  · intro p hp
    rw [hpending, inSyscall_congr (hcalls _)]
    exact h.syscalls p hp

/-- After a syscall stop, which adds an entry or an exit of the thread. -/
theorem Chronicled.syscallStop {e : Event} (h : Chronicled leader parent past r.state)
    (hr : Orderly leader parent past r) (hrunning : r.state.running = some pid)
    (hstop : stopOf r.status = some pid) (hchild : r.child = none)
    (hstops : Stops r.state s' pid) (hspawn : spawnOf e = none) (hexit : exitOf e = none)
    (hsyscall : syscallOf e = some (tidOf pid))
    (hlawful : Lawful (tidOf leader) r.state.writer e (tidOf pid))
    (hlog : s'.writer = r.state.writer ++ [e])
    (hself : InSyscall (tidOf pid) (r.state.writer ++ [e]) (s'.pendingOf pid))
    (hpending : ∀ p, p ≠ pid → s'.pendingOf p = r.state.pendingOf p) :
    Chronicled leader parent (past ++ [r]) s' := by
  have hpid : IsPid pid := h.pid pid (h.running pid hrunning).1
  -- Another pid is another tid, so the event is about this thread only.
  have hother {p : Pid} (hp : IsPid p) (hne : p ≠ pid) :
      lastSyscall (tidOf p) s'.writer = lastSyscall (tidOf p) r.state.writer := by
    have htid : ¬ some (tidOf pid) = some (tidOf p) := fun heq =>
      hne (tidOf_inj hp hpid (Option.some.inj heq).symm)
    rw [hlog, lastSyscall_snoc, hsyscall, hexit, if_neg htid]
    simp
  refine h.stop hr hrunning hstop hstops ?_ ?_ ?_ ?_
  · rw [hlog]
    exact h.wellFormed.snoc hlawful
  · intro p hp hnamed
    rw [hlog, alive_snoc, hspawn, hexit]
    simp only [reduceCtorEq, if_false]
    refine h.alive p hp ?_
    rw [announced_snoc, hchild] at hnamed
    simp only [reduceCtorEq, if_false] at hnamed
    split at hnamed
    · cases hnamed
    · exact hnamed
  · intro p hp
    by_cases heq : p = pid
    · rw [heq, hlog]
      exact hself
    · rw [hpending p heq, inSyscall_congr (hother (h.pid p hp) heq)]
      exact h.syscalls p hp
  · intro p hp hnot
    refine hother hp ?_
    rintro rfl
    exact hnot (h.running p hrunning).1

/-- After a stop that names a child. -/
theorem Chronicled.spawnStop {child : Pid} (ts : UInt64) (h : Chronicled leader parent past r.state)
    (hr : Orderly leader parent past r) (hrunning : r.state.running = some pid)
    (hstop : stopOf r.status = some pid) (hchild : r.child = some child)
    (hstops : Stops r.state s' pid)
    (hlog : s'.writer = r.state.writer ++ [spawnEvent ts pid child])
    (hpending : ∀ p, s'.pendingOf p = r.state.pendingOf p) :
    Chronicled leader parent (past ++ [r]) s' := by
  obtain ⟨htracked, hnamed⟩ := h.running pid hrunning
  have hcalls (t : UInt32) : lastSyscall t s'.writer = lastSyscall t r.state.writer := by
    rw [hlog, lastSyscall_snoc]
    simp
  refine h.stop hr hrunning hstop hstops ?_ ?_ ?_ fun p _ _ => hcalls _
  · rw [hlog]
    exact h.wellFormed.snoc (lawful_spawnEvent (h.alive pid (h.pid pid htracked) hnamed))
  · intro p hp hafter
    rw [hlog, alive_snoc]
    simp only [spawnOf_spawnEvent, exitOf_spawnEvent, reduceCtorEq, if_false]
    split
    · rfl
    · -- Of the other threads the spawn says nothing.
      rename_i hne
      refine h.alive p hp ?_
      rw [announced_snoc, hchild, if_neg fun heq => hne (by rw [Option.some.inj heq])] at hafter
      split at hafter
      · cases hafter
      · exact hafter
  · intro p hp
    rw [hpending, inSyscall_congr (hcalls _)]
    exact h.syscalls p hp

/-- After the first stop of a child. -/
theorem Chronicled.firstStop {sig : Signal} (h : Chronicled leader parent past r.state)
    (hr : Orderly leader parent past r) (hannouncing : Announcing leader parent past r)
    (hstatus : r.status = .stopped pid sig) (hchild : r.child = none)
    (hnew : ¬ r.state.Tracks pid) (hsome : ∃ q, r.state.Tracks q) :
    Chronicled leader parent (past ++ [r])
      ({ r.state with
          threads := r.state.threads.insert pid {},
          threadsFollowed := r.state.threadsFollowed + 1 }.requeue pid) := by
  obtain ⟨q, hq⟩ := hsome
  have hpid : IsPid pid := hr.pid pid (by rw [hstatus]; rfl)
  have hbefore (p : Pid) : announced leader (past ++ [r]) p = announced leader past p := by
    rw [announced_snoc, hchild, hstatus]
    simp [gone]
  -- The child is tracked and queued; nothing is recorded of it until it runs.
  have htracks (p : Pid) :
      ({ r.state with
          threads := r.state.threads.insert pid {},
          threadsFollowed := r.state.threadsFollowed + 1 }.requeue pid).Tracks p ↔
        p = pid ∨ r.state.Tracks p :=
    Scheduler.tracks_requeue.trans (tracks_register p)
  refine { wellFormed := ?_, pid := ?_, queued := ?_, running := ?_, named := ?_, alive := ?_,
           syscalls := ?_, absent := ?_, followed := ?_, alone := ?_ }
  · rw [Scheduler.writer_requeue]
    exact h.wellFormed
  · intro p hp
    rcases (htracks p).mp hp with rfl | hp
    · exact hpid
    · exact h.pid p hp
  · intro p hp
    rw [htracks]
    rcases Scheduler.mem_ready_requeue.mp hp with hp | ⟨rfl, -⟩
    · exact .inr (h.queued p hp)
    · exact .inl rfl
  · intro p hp
    rw [Scheduler.running_requeue] at hp
    rw [htracks, hbefore]
    obtain ⟨htracked, hnamed⟩ := h.running p hp
    exact ⟨.inr htracked, hnamed⟩
  · intro p hp
    rw [Scheduler.running_requeue, hbefore]
    rcases (htracks p).mp hp with rfl | hp
    · -- either its parent has named it, or its parent runs
      exact hannouncing.born p sig hstatus hnew
    · rw [hr.kin p hp]
      exact h.named p hp
  · intro p hp hnamed
    rw [hbefore] at hnamed
    rw [Scheduler.writer_requeue]
    exact h.alive p hp hnamed
  · intro p hp
    rw [Scheduler.writer_requeue, Scheduler.pendingOf_requeue, Scheduler.pendingOf,
      KeyMap.get_insert]
    split
    · rename_i heq
      subst heq
      intro last hlast
      rw [h.absent pid q hq hpid hnew] at hlast
      cases hlast
    · rename_i hne
      rcases (htracks p).mp hp with rfl | hp
      · exact absurd rfl hne
      · exact h.syscalls p hp
  · intro p q' _ hp hnot
    rw [Scheduler.writer_requeue]
    exact h.absent p q hq hp fun hp => hnot ((htracks p).mpr (.inr hp))
  · rw [Scheduler.threadsFollowed_requeue]
    exact Nat.le_add_left 1 _
  · intro hfew
    rw [Scheduler.threadsFollowed_requeue] at hfew
    have hmany := h.followed
    change r.state.threadsFollowed + 1 ≤ 1 at hfew
    omega

/-- After the exit of a thread. -/
theorem Chronicled.exited {code : Option Int32} (h : Chronicled leader parent past r.state)
    (hr : Orderly leader parent past r) (hannouncing : Announcing leader parent past r)
    (hgone : gone r.status = some (pid, code)) (hchild : r.child = none)
    (htracks : ∀ p, s'.Tracks p ↔ p ≠ pid ∧ r.state.Tracks p)
    (hready : ∀ p ∈ s'.ready, s'.Tracks p)
    (hrunning : ∀ p, s'.running = some p ↔ p ≠ pid ∧ r.state.running = some p)
    (hpending : ∀ p, p ≠ pid → s'.pendingOf p = r.state.pendingOf p)
    (hfollowed : s'.threadsFollowed = r.state.threadsFollowed)
    (hlog : (¬ (r.state.Tracks pid ∧ r.state.threadsFollowed > 1) ∧
        s'.writer = r.state.writer) ∨
      r.state.Tracks pid ∧ ∃ ts, s'.writer = r.state.writer ++ [threadExitEvent ts pid]) :
    Chronicled leader parent (past ++ [r]) s' := by
  have hpid : IsPid pid := by
    refine hr.pid pid ?_
    unfold gone at hgone
    split at hgone
    · rename_i hstatus
      rw [hstatus, ← (Prod.mk.inj (Option.some.inj hgone)).1]
      rfl
    · rename_i hstatus
      rw [hstatus, ← (Prod.mk.inj (Option.some.inj hgone)).1]
      rfl
    · cases hgone
  have hnamed (p : Pid) : announced leader (past ++ [r]) p =
      if pid = p then false else announced leader past p := by
    rw [announced_snoc, hchild, hgone]
    simp
  have hother {p : Pid} (hp : IsPid p) (hne : p ≠ pid) : tidOf pid ≠ tidOf p :=
    fun heq => hne (tidOf_inj hp hpid heq.symm)
  have hcalls {p : Pid} (hp : IsPid p) (hne : p ≠ pid) :
      lastSyscall (tidOf p) s'.writer = lastSyscall (tidOf p) r.state.writer := by
    rcases hlog with ⟨-, hlog⟩ | ⟨-, ts, hlog⟩
    · rw [hlog]
    · rw [hlog, lastSyscall_snoc]
      simp [hother hp hne]
  refine { wellFormed := ?_, pid := ?_, queued := hready, running := ?_, named := ?_, alive := ?_,
           syscalls := ?_, absent := ?_, followed := ?_, alone := ?_ }
  · rcases hlog with ⟨-, hlog⟩ | ⟨htracked, ts, hlog⟩
    · rw [hlog]
      exact h.wellFormed
    · -- the thread that exits was named before
      have hbefore : announced leader past pid = true := by
        cases hcase : announced leader past pid with
        | true => rfl
        | false => exact absurd rfl (hannouncing.exit pid code pid hgone ⟨htracked, hcase⟩).1
      rw [hlog]
      exact h.wellFormed.snoc (lawful_threadExitEvent (h.alive pid hpid hbefore))
  · intro p hp
    exact h.pid p ((htracks p).mp hp).2
  · intro p hp
    obtain ⟨hne, hp⟩ := (hrunning p).mp hp
    obtain ⟨htracked, hbefore⟩ := h.running p hp
    rw [htracks, hnamed, if_neg (Ne.symm hne)]
    exact ⟨⟨hne, htracked⟩, hbefore⟩
  · intro p hp
    obtain ⟨hne, hp⟩ := (htracks p).mp hp
    rw [hnamed, if_neg (Ne.symm hne)]
    cases hcase : announced leader past p with
    | true => exact .inl rfl
    | false =>
      -- the parent of a child that is not named yet runs on
      rcases h.named p hp with hbefore | hparent
      · rw [hcase] at hbefore
        cases hbefore
      · have hstays := (hannouncing.exit pid code p hgone ⟨hp, hcase⟩).2
        rw [hr.kin p hp]
        exact .inr ((hrunning _).mpr ⟨hstays.symm, hparent⟩)
  · intro p hp hafter
    rw [hnamed] at hafter
    split at hafter
    · cases hafter
    · rename_i hne
      rcases hlog with ⟨-, hlog⟩ | ⟨-, ts, hlog⟩
      · rw [hlog]
        exact h.alive p hp hafter
      · have htid := hother hp (Ne.symm hne)
        rw [hlog, alive_snoc]
        simpa [htid] using h.alive p hp hafter
  · intro p hp
    obtain ⟨hne, hp⟩ := (htracks p).mp hp
    rw [hpending p hne, inSyscall_congr (hcalls (h.pid p hp) hne)]
    exact h.syscalls p hp
  · intro p q hq hp hnot
    obtain ⟨hq_ne, hq⟩ := (htracks q).mp hq
    by_cases heq : p = pid
    · subst heq
      rcases hlog with ⟨hsilent, hlog⟩ | ⟨-, ts, hlog⟩
      · rw [hlog]
        by_cases htracked : r.state.Tracks p
        · -- a silent exit is that of the only thread
          have hfew : r.state.threadsFollowed ≤ 1 := by
            by_contra hmany
            exact hsilent ⟨htracked, by omega⟩
          exact absurd ((h.alone hfew q hq).trans (h.alone hfew p htracked).symm) hq_ne
        · exact h.absent p q hq hp htracked
      · rw [hlog, lastSyscall_snoc]
        simp
    · rw [hcalls hp heq]
      exact h.absent p q hq hp fun hp => hnot ((htracks p).mpr ⟨heq, hp⟩)
  · rw [hfollowed]
    exact h.followed
  · intro hfew p hp
    rw [hfollowed] at hfew
    exact h.alone hfew p ((htracks p).mp hp).2

/-- A report of no stop, exit or child changes nothing. -/
theorem Chronicled.append (h : Chronicled leader parent past r.state)
    (hr : Orderly leader parent past r) (hchild : r.child = none)
    (hgone : gone r.status = none) : Chronicled leader parent (past ++ [r]) r.state := by
  have hnamed (p : Pid) : announced leader (past ++ [r]) p = announced leader past p := by
    rw [announced_snoc, hchild, hgone]
    simp
  refine { h with running := ?_, named := ?_, alive := ?_ }
  · simpa only [hnamed] using h.running
  · intro p hp
    rw [hnamed, hr.kin p hp]
    exact h.named p hp
  · simpa only [hnamed] using h.alive

/-- A status is handled. -/
theorem Handled.chronicled (hhandled : Handled r.state r.status r.child s')
    (h : Chronicled leader parent past r.state) (hr : Orderly leader parent past r)
    (hannouncing : Announcing leader parent past r) (hsome : ∃ q, r.state.Tracks q) :
    Chronicled leader parent (past ++ [r]) s' := by
  obtain ⟨s, status, child⟩ := r
  have hstop {pid : Pid} (hstatus : stopOf status = some pid)
      (hnot : ∀ sig, status = .stopped pid sig → s.Tracks pid) : s.running = some pid := by
    rcases hr.stop pid hstatus with hrunning | ⟨⟨sig, hsig⟩, hnew⟩
    · exact hrunning
    · exact absurd (hnot sig hsig) hnew
  have halive {pid : Pid} (hrunning : s.running = some pid) :
      Capture.alive (tidOf leader) (tidOf pid) s.writer = true := by
    obtain ⟨htracked, hnamed⟩ := h.running pid hrunning
    exact h.alive pid (h.pid pid htracked) hnamed
  -- What the cases share: who stopped, that its log has it alive, and who is queued after.
  have hrequeue {t : Scheduler} {pid p : Pid} (hready : t.ready = s.ready)
      (hp : p ∈ (t.requeue pid).ready) : p ∈ s.ready ∨ p = pid := by
    rcases Scheduler.mem_ready_requeue.mp hp with hp | ⟨rfl, -⟩
    · exact .inl (hready ▸ hp)
    · exact .inr rfl
  have hgoneReady {t : Scheduler} {pid : Pid} {code : Option Int32} (hready : t.ready = s.ready)
      (htracks : ∀ p, t.Tracks p ↔ p ≠ pid ∧ s.Tracks p) :
      ∀ p ∈ ((t.removed pid code).release pid).ready,
        ((t.removed pid code).release pid).Tracks p := by
    intro p hp
    rw [Scheduler.tracks_release, Scheduler.tracks_removed]
    rcases Scheduler.mem_ready_release hp with hp | hp
    · rw [Scheduler.removed, List.mem_filter, hready, decide_eq_true_eq] at hp
      exact (htracks p).mpr ⟨hp.2, h.queued p hp.1⟩
    · exact hp
  -- One case for each constructor of `Handled`: the two halves of a call, a spawn, the event of a
  -- vfork, other events, a first stop, a plain stop, a signal, and the two ways an exit is taken.
  cases hhandled with
  | @enter pid hpending ts regs =>
    have hrunning : s.running = some pid := hstop rfl (by simp)
    have htracked := (h.running pid hrunning).1
    have hnone := h.syscalls pid htracked
    rw [hpending] at hnone
    refine h.syscallStop (e := enterEvent ts (tidOf pid) regs) hr hrunning rfl rfl
      { tracks := by simp, ready := fun p hp => hrequeue (by simp) hp, idle := ?_,
        followed := by simp } rfl rfl rfl (lawful_enterEvent (halive hrunning) hnone)
      (by simp) ?_ ?_
    · simp [running_clearRunning_self hrunning]
    · rw [Scheduler.pendingOf_requeue, Scheduler.pendingOf_modifyThread (o := some regs)]
      · refine ⟨enterEvent ts (tidOf pid) regs, ?_, rfl, nrOf_enterEvent.symm⟩
        rw [lastSyscall_snoc]
        simp
      · simpa using htracked
      · exact fun _ => rfl
    · intro p hne
      rw [Scheduler.pendingOf_requeue, Scheduler.pendingOf_modifyThread_of_ne hne,
        Scheduler.pendingOf_emit, Scheduler.pendingOf_modifyThread_of_ne hne,
        Scheduler.pendingOf_clearRunning]
  | @exit pid enter hpending ts ret data =>
    have hrunning : s.running = some pid := hstop rfl (by simp)
    have htracked := (h.running pid hrunning).1
    have hinside := h.syscalls pid htracked
    rw [hpending] at hinside
    refine h.syscallStop (e := syscallExitEvent ts pid enter ret data) hr hrunning rfl rfl
      { tracks := by simp, ready := fun p hp => hrequeue (by simp) hp, idle := ?_,
        followed := by simp } rfl rfl rfl (lawful_syscallExitEvent (halive hrunning) hinside)
      (by simp) ?_ ?_
    · simp [running_clearRunning_self hrunning]
    · rw [Scheduler.pendingOf_requeue, Scheduler.pendingOf_emit,
        Scheduler.pendingOf_modifyThread (o := none)]
      · intro last hlast
        rw [lastSyscall_snoc] at hlast
        simp only [syscallOf_syscallExitEvent, if_true] at hlast
        rw [← Option.some.inj hlast]
        rfl
      · simpa using htracked
      · exact fun _ => rfl
    · intro p hne
      rw [Scheduler.pendingOf_requeue, Scheduler.pendingOf_emit,
        Scheduler.pendingOf_modifyThread_of_ne hne, Scheduler.pendingOf_clearRunning]
  | @spawn pid child sig event hspawn hvfork ts =>
    have hrunning : s.running = some pid := hstop rfl (by simp)
    refine h.spawnStop ts hr hrunning rfl rfl
      { tracks := by simp, ready := fun p hp => hrequeue (by simp) hp, idle := ?_,
        followed := by simp } (by simp) (by simp)
    simp [running_clearRunning_self hrunning]
  | @vfork pid child sig ts =>
    have hrunning : s.running = some pid := hstop rfl (by simp)
    refine h.spawnStop ts hr hrunning rfl rfl
      { tracks := ?_, ready := ?_, idle := running_clearRunning_self hrunning,
        followed := threadsFollowed_clearRunning s pid } ?_ ?_
    · intro p
      exact Scheduler.tracks_congr (Scheduler.threads_clearRunning s pid)
    · intro p hp
      exact .inl (Scheduler.ready_clearRunning s pid ▸ hp)
    · exact congrArg (· ++ [spawnEvent ts pid child]) (Scheduler.writer_clearRunning s pid)
    · intro p
      exact Scheduler.pendingOf_clearRunning s pid p
  | @event pid sig event hspawn =>
    have hrunning : s.running = some pid := hstop rfl (by simp)
    refine h.quietStop hr hrunning rfl rfl
      { tracks := by simp, ready := fun p hp => hrequeue (by simp) hp, idle := ?_,
        followed := by simp } (.inl (by simp)) (by simp)
    simp [running_clearRunning_self hrunning]
  | @first pid sig hnew => exact h.firstStop hr hannouncing rfl rfl hnew hsome
  | @stopped pid htracked =>
    have hrunning : s.running = some pid := hstop rfl fun _ _ => htracked
    refine h.quietStop hr hrunning rfl rfl
      { tracks := by simp, ready := fun p hp => hrequeue (by simp) hp, idle := ?_,
        followed := by simp } (.inl (by simp)) (by simp)
    simp [running_clearRunning_self hrunning]
  | @signal pid sig htracked hsig ts =>
    have hrunning : s.running = some pid := hstop rfl fun _ _ => htracked
    refine h.quietStop hr hrunning rfl rfl
      { tracks := by simp, ready := fun p hp => hrequeue (by simp) hp, idle := ?_,
        followed := by simp }
      (.inr ⟨signalEvent ts pid sig, ⟨rfl, rfl, rfl⟩, lawful_signalEvent (halive hrunning), ?_⟩) ?_
    · simp [running_clearRunning_self hrunning]
    · simp
    · intro p
      rw [Scheduler.pendingOf_requeue, Scheduler.pendingOf_modifyThread_of_keeps]
      · rw [Scheduler.pendingOf_emit, Scheduler.pendingOf_clearRunning]
      · exact fun _ => rfl
  | @exited _ pid code hgone hsilent =>
    refine h.exited hr hannouncing hgone rfl (by simp) ?_ ?_ ?_ (by simp) (.inl ⟨hsilent, by simp⟩)
    · exact hgoneReady (by simp [Scheduler.untracked]) fun _ => Scheduler.tracks_untracked
    · simp [Scheduler.running_untracked]
    · intro p hne
      simp [Scheduler.pendingOf_untracked hne]
  | @exitRecorded _ pid code hgone htracked hmany ts =>
    refine h.exited hr hannouncing hgone rfl (by simp) ?_ ?_ ?_ (by simp)
      (.inr ⟨htracked, ts, by simp⟩)
    · exact hgoneReady (by simp [Scheduler.untracked]) fun _ => Scheduler.tracks_untracked
    · simp [Scheduler.running_untracked]
    · intro p hne
      simp [Scheduler.pendingOf_untracked hne]
  | continued => exact h.append hr rfl rfl
  | stillAlive => exact h.append hr rfl rfl

end Steps

/-! ## The last turn

A turn that fails or ends the recording has written at most the switch to the thread it
resumed: what follows a record in a handler cannot fail.
-/

section LastTurn

variable {ω : Type} {log : List Event}

/-- The log so far. -/
def Logged (log : List Event) (w : Hosted Scheduler ω) : Prop := w.object.writer = log

theorem call_logged {δ α : Type} (err : δ → CaptureError) (c : ω → Except δ α × ω) :
    Keeps (Logged log) (call err c : Method ω α) :=
  call_keeps (P := fun s : Scheduler => s.writer = log) err c

theorem object_logged : Keeps (Logged log) (object : Method ω Scheduler) :=
  object_keeps (P := fun s : Scheduler => s.writer = log)

variable [Host ω]

theorem now_logged : Keeps (Logged log) (now : Method ω UInt64) := by
  intro w hw r w' h
  obtain ⟨hobject, ts, rfl⟩ := exec_now_inv h
  exact (congrArg Scheduler.writer hobject).trans hw

omit [Host ω] in
/-- An update that leaves the log alone. -/
theorem modifyObject_logged {f : Scheduler → Scheduler} (hf : ∀ s, (f s).writer = s.writer) :
    Keeps (Logged log) (modifyObject f : Method ω Unit) :=
  modifyObject_spec (P := fun s : Scheduler => s.writer = log)
    (Q := fun s : Scheduler => s.writer = log) fun s hs => (hf s).trans hs

/-- A record that could not be written is not in the log. -/
theorem append_spec (e : Event) : Spec (Logged log) (append e : Method ω Unit)
    (fun _ => Logged (log ++ [e])) (fun _ => Logged log) := by
  refine Spec.bind (call_logged _ _) fun _ => ?_
  refine modifyObject_spec (P := fun s : Scheduler => s.writer = log)
    (Q := fun s : Scheduler => s.writer = log ++ [e]) ?_
  intro s hs
  rw [Scheduler.writer_emit, hs]

/-- A record, and then updates only. -/
theorem append_then {e : Event} {α : Type} {m : Unit → Method ω α}
    (hm : ∀ P, Spec P (m ()) (fun _ _ => True) (fun _ => Logged log)) :
    Spec (Logged log) (append e >>= m) (fun _ _ => True) (fun _ => Logged log) :=
  Spec.bind (append_spec e) fun _ => hm _

variable {arch : Arch} [Ptrace arch ω]

/-- The registers, the clock and the captured data are read before the record is written. -/
theorem onSyscall_fails (pid : Pid) : Spec (Logged log) (onSyscall arch pid : Method ω Unit)
    (fun _ _ => True) (fun _ => Logged log) := by
  have hregs : Keeps (Logged log) (readSyscallRegs arch pid : Method ω _) :=
    Keeps.bind (call_logged _ _) fun _ => Keeps.pure
  refine Spec.bind hregs fun regs => ?_
  refine Spec.bind now_logged fun ts => ?_
  refine Spec.bind object_logged fun s => ?_
  refine Spec.bind (modifyObject_logged fun s => Scheduler.writer_modifyThread s _ _) fun _ => ?_
  split
  · refine append_then fun P => ?_
    exact Spec.update fun _ _ => trivial
  · rename_i enter _
    -- The buffers of the exit are read from the tracee, which may fail.
    have hexit : Keeps (Logged log) (exitEvent arch ts (tidOf pid) pid enter regs.ret :
        Method ω _) := by
      unfold exitEvent
      split
      · refine Keeps.bind (Keeps.bind (call_logged _ _) ?_) ?_
        · exact fun _ => Keeps.pure
        · exact fun _ => Keeps.pure
      · exact Keeps.pure
    refine Spec.bind hexit fun event => ?_
    exact (append_spec event).mono (fun _ h => h) (fun _ _ _ => trivial) (fun _ _ h => h)

/-- The name of the child is read before the spawn is recorded. -/
theorem onSpawn_fails (pid : Pid) : Spec (Logged log) (onSpawn arch pid : Method ω Pid)
    (fun _ _ => True) (fun _ => Logged log) := by
  refine Spec.bind (call_logged _ _) fun child => ?_
  refine Spec.bind now_logged fun ts => ?_
  exact append_then fun P => Spec.pure fun _ _ => trivial

theorem onStopped_fails (pid : Pid) (sig : Signal) :
    Spec (Logged log) (onStopped arch pid sig : Method ω Unit) (fun _ _ => True)
      (fun _ => Logged log) := by
  refine Spec.bind object_logged fun s => ?_
  split
  · have hregister : Keeps (Logged log) (registerChild arch pid : Method ω Unit) := by
      refine Keeps.bind (call_logged _ _) fun _ => ?_
      refine Keeps.bind (call_logged _ _) fun _ => ?_
      exact modifyObject_logged fun _ => rfl
    exact Spec.bind hregister fun _ => Spec.update fun _ _ => trivial
  · refine Spec.bind (modifyObject_logged fun s => Scheduler.writer_clearRunning s pid) fun _ => ?_
    refine Spec.bind (Q := fun _ _ => True) ?_ fun _ => Spec.update fun _ _ => trivial
    refine Spec.when (fun _ => ?_) fun _ _ _ => trivial
    refine Spec.bind now_logged fun ts => ?_
    exact append_then fun P => Spec.update fun _ _ => trivial

omit [Ptrace arch ω] in
/-- Where an exit is recorded, that is the last thing to fail. -/
theorem onExit_fails (pid : Pid) (code : Option Int32) :
    Spec (Logged log) (onExit pid code : Method ω Unit) (fun _ _ => True)
      (fun _ => Logged log) := by
  refine Spec.bind (modifyObject_logged fun s => Scheduler.writer_clearRunning s pid) fun _ => ?_
  refine Spec.bind object_logged fun s => ?_
  refine Spec.bind (modifyObject_logged fun _ => rfl) fun _ => ?_
  refine Spec.bind (Q := fun _ _ => True) ?_ fun _ => ?_
  · refine Spec.when (fun _ => ?_) fun _ _ _ => trivial
    refine Spec.bind now_logged fun ts => ?_
    exact (append_spec _).mono (fun _ h => h) (fun _ _ _ => trivial) (fun _ _ h => h)
  · refine Spec.bind (Q := fun _ _ => True) ?_ fun _ => Spec.update fun _ _ => trivial
    exact Spec.update fun _ _ => trivial

/-- A handler that fails has recorded nothing. -/
theorem handle_fails (status : WaitStatus) : Spec (Logged log) (handle arch status : Method ω Unit)
    (fun _ _ => True) (fun _ => Logged log) := by
  cases status with
  | exited pid code => exact onExit_fails pid _
  | signaled pid sig core => exact onExit_fails pid _
  | stopped pid sig => exact onStopped_fails pid sig
  | continued pid => exact Spec.pure fun _ _ => trivial
  | stillAlive => exact Spec.pure fun _ _ => trivial
  | ptraceSyscall pid =>
    refine Spec.bind (modifyObject_logged fun s => Scheduler.writer_clearRunning s pid) fun _ => ?_
    exact Spec.bind (onSyscall_fails pid) fun _ => Spec.update fun _ _ => trivial
  | ptraceEvent pid sig event =>
    refine Spec.bind (modifyObject_logged fun s => Scheduler.writer_clearRunning s pid) fun _ => ?_
    split
    · refine Spec.bind (onSpawn_fails pid) fun child => ?_
      split
      · exact Spec.update fun _ _ => trivial
      · exact Spec.update fun _ _ => trivial
    · exact Spec.update fun _ _ => trivial

/-- From `s` on, at most the switch to the thread that was chosen is recorded in `t`. -/
def Chosen (s t : Scheduler) : Prop :=
  t.writer = s.writer ∨ ∃ s', Starts s s' ∧ t.writer = s'.writer

variable {s : Scheduler}

/-- The switch is written when the thread differs from the last one scheduled. -/
theorem recordSchedSwitch_chosen {next : Pid} {ready : List Pid} (hrunning : s.running = none)
    (hready : s.ready = next :: ready) :
    Spec (fun w => w.object = { s with ready }) (recordSchedSwitch next : Method ω Unit)
      (fun _ w => Chosen s w.object) (fun _ w => Chosen s w.object) := by
  refine Spec.bind (Q := fun t w => t = { s with ready } ∧ w.object = { s with ready }) ?_ ?_
  · intro w hw r w' h
    obtain ⟨rfl, rfl⟩ := exec_object_inv h
    exact ⟨hw, hw⟩
  intro t
  refine Spec.assume ?_
  rintro rfl
  split
  · refine Spec.pure fun w hw => .inl ?_
    rw [hw]
  · rename_i hlast
    refine Spec.bind (Q := fun _ => Logged s.writer) ?_ fun _ => ?_
    · refine modifyObject_spec (P := fun t => t = { s with ready })
        (Q := fun t => t.writer = s.writer) ?_
      rintro t rfl
      rfl
    refine Spec.bind (Q := fun _ => Logged s.writer) ?_ fun ts => ?_
    · exact now_logged.mono (fun _ h => h) (fun _ _ h => h) (fun _ _ h => .inl h)
    refine (append_spec (switchEvent ts next)).mono (fun _ h => h) ?_ (fun _ _ h => .inl h)
    intro _ w hw
    refine .inr ⟨_, .resumed hrunning hready ts, ?_⟩
    rw [Scheduler.writer_resumed, if_neg hlast]
    exact hw

/-- Choosing the next thread is the first half of a turn. -/
theorem resumeNext_chosen (hrunning : s.running = none) :
    Spec (fun w => w.object = s) (resumeNext arch : Method ω Unit)
      (fun _ w => Chosen s w.object) (fun _ w => Chosen s w.object) := by
  refine Spec.bind (Q := fun t w => t = s ∧ w.object = s) ?_ ?_
  · intro w hw r w' h
    obtain ⟨rfl, rfl⟩ := exec_object_inv h
    exact ⟨hw, hw⟩
  intro t
  refine Spec.assume ?_
  rintro rfl
  split
  · refine Spec.pure fun w hw => .inl ?_
    rw [hw]
  · rename_i next ready hready
    refine Spec.bind (Q := fun _ w => w.object = { t with ready }) ?_ fun _ => ?_
    · refine modifyObject_spec (P := fun u => u = t) (Q := fun u => u = { t with ready }) ?_
      rintro u rfl
      rfl
    refine Spec.bind (recordSchedSwitch_chosen hrunning hready) fun _ => ?_
    -- the rest does not write
    refine Keeps.bind object_keeps fun _ => ?_
    refine Keeps.bind ?_ fun _ => Keeps.bind (call_keeps _ _) fun _ => ?_
    · refine modifyObject_spec fun u hu => ?_
      unfold Chosen
      rw [Scheduler.writer_modifyThread]
      exact hu
    · exact modifyObject_spec fun u hu => hu

/-- A status that is not handled leaves the choice as it was. -/
theorem handle_chosen (status : WaitStatus) :
    Spec (fun w => Chosen s w.object) (handle arch status : Method ω Unit) (fun _ _ => True)
      (fun _ w => Chosen s w.object) := by
  refine Spec.intro fun w hw => ?_
  have hfails : Spec (Logged w.object.writer) (handle arch status : Method ω Unit)
      (fun _ _ => True) (fun _ => Logged w.object.writer) := handle_fails status
  refine hfails.mono ?_ ?_ ?_
  · rintro u rfl
    rfl
  · exact fun _ _ h => h
  · intro _ u hu
    unfold Chosen
    rw [show u.object.writer = w.object.writer from hu]
    exact hw

/-- A preempted thread is stopped or found gone; a failure of either leaves the choice. -/
theorem preemptRunning_chosen :
    Spec (fun w => Chosen s w.object) (preemptRunning arch : Method ω Unit) (fun _ _ => True)
      (fun _ w => Chosen s w.object) := by
  refine Spec.bind object_keeps fun t => ?_
  split
  · rename_i cur _
    have hstop : Keeps (fun w : Hosted Scheduler ω => Chosen s w.object) (stopThread cur) := by
      refine Keeps.bind (tryCall_keeps _) fun answer => ?_
      split
      · exact Keeps.pure
      · split
        · exact Keeps.pure
        · exact Keeps.fail
    refine Spec.bind hstop fun _ => ?_
    exact Spec.bind (call_keeps _ _) fun status => handle_chosen status
  · exact Spec.pure fun _ _ => trivial

/-- A turn that does not go on. -/
theorem turn_chosen : Spec (fun w => w.object = s) (turn arch : Method ω (Option Unit))
    (fun r w => r ≠ none → Chosen s w.object) (fun _ w => Chosen s w.object) := by
  refine Spec.bind (Q := fun t w => t = s ∧ w.object = s) ?_ ?_
  · intro w hw r w' h
    obtain ⟨rfl, rfl⟩ := exec_object_inv h
    exact ⟨hw, hw⟩
  intro t
  refine Spec.assume ?_
  rintro rfl
  split
  · refine Spec.pure fun w hw _ => .inl ?_
    rw [hw]
  refine Spec.bind (Q := fun _ w => Chosen t w.object) ?_ fun _ => ?_
  · refine Spec.when (fun hnone => resumeNext_chosen (Option.isNone_iff_eq_none.mp hnone)) ?_
    intro _ w hw
    refine .inl ?_
    rw [hw]
  refine Spec.bind (call_keeps _ _) fun _ => ?_
  refine Spec.bind (tryCall_keeps _) fun answer => ?_
  -- A status is handled; an error of the wait preempts, ends the recording, or is returned.
  cases answer with
  | ok status =>
    refine Spec.bind (call_keeps _ _) fun _ => ?_
    refine Spec.bind (handle_chosen status) fun _ => ?_
    exact Spec.pure fun _ _ hnone => absurd rfl hnone
  | error e =>
    simp only [react]
    split
    · refine Spec.bind (call_keeps _ _) fun _ => ?_
      refine Spec.bind preemptRunning_chosen fun _ => ?_
      exact Spec.pure fun _ _ hnone => absurd rfl hnone
    · split
      · exact Spec.pure fun _ hw _ => hw
      · exact Spec.fail fun _ hw => hw

/-- The last turn of a recording. -/
theorem chosen_of_leaves {w w' : Hosted Scheduler ω} {r : Except CaptureError Unit}
    (h : Leaves (turn arch) w r w') : Chosen w.object w'.object := by
  rcases h with ⟨a, h, -⟩ | ⟨e, h, -⟩
  · exact turn_chosen.ok rfl h (by simp)
  · exact turn_chosen.error rfl h

end LastTurn

/-! ## Every recording -/

section Recordings

variable {ω : Type} {arch : Arch} [Ptrace arch ω] [Host ω] {leader : Pid}
  {parent : List Report → Pid → Pid} {past : List Report} {w w' : Hosted Scheduler ω} {r : Report}

/-- The loop goes on while a thread is tracked. -/
theorem Turn.tracked (h : Turn arch w (some r) w') : ∃ q, r.state.Tracks q := by
  have hthreads : w.object.threads.isEmpty = false := by
    cases h with
    | reported hthreads => exact hthreads
    | preempted hthreads => exact hthreads
  by_contra hnone
  have hempty : w.object.threads.isEmpty = true := by
    refine (KeyMap.isEmpty_iff _).mpr fun q => ?_
    by_contra hq
    exact hnone ⟨q, h.steps.1.tracks_iff.mpr (Option.isSome_iff_ne_none.mpr hq)⟩
  rw [hthreads] at hempty
  cases hempty

/-- By the reports of the recording: every turn begins as the last one left it. -/
theorem Recording.chronicled (h : Recording arch leader past w) (hleader : IsPid leader)
    (horderly : past.Each (Orderly leader parent))
    (hannouncing : past.Each (Announcing leader parent)) :
    Chronicled leader parent past w.object := by
  induction h with
  | new hnew =>
    rw [new_ok hnew]
    exact ofLeader_chronicled hleader
  | @turn past w w' report hw hturn ih =>
    cases report with
    | none =>
      rw [Option.toList_none, List.append_nil] at horderly hannouncing ⊢
      exact hturn.starts.chronicled (ih horderly hannouncing)
    | some r =>
      obtain ⟨hbefore, hr⟩ := List.each_snoc.mp horderly
      obtain ⟨hbefore', hr'⟩ := List.each_snoc.mp hannouncing
      obtain ⟨hstart, hhandled⟩ := hturn.steps
      exact hhandled.chronicled (hstart.chronicled (ih hbefore hbefore')) hr hr' hturn.tracked

/-- The log of every recording is well formed, after every turn and after the last one, if a
child whose first stop comes before the stop that names it has its parent running, and neither
of them exits until that stop. -/
theorem recording_wellFormed (h : Recording arch leader past w) (hleader : IsPid leader)
    (horderly : past.Each (Orderly leader parent))
    (hannouncing : past.Each (Announcing leader parent)) :
    WellFormed (tidOf leader) w.object.writer ∧
      ∀ r w', Leaves (turn arch) w r w' → WellFormed (tidOf leader) w'.object.writer := by
  have hw := h.chronicled hleader horderly hannouncing
  refine ⟨hw.wellFormed, ?_⟩
  intro r w' hleaves
  rcases chosen_of_leaves hleaves with hlog | ⟨s', hstarts, hlog⟩
  · rw [hlog]
    exact hw.wellFormed
  · rw [hlog]
    exact (hstarts.chronicled hw).wellFormed

end Recordings

/-! ## A child that is killed before it is named -/

/-- A child stops for the first time while its parent runs; then `first` and `second` are
reported, one of which names the child. -/
def cloneTape (first second : WaitStatus) : Tape .x86_64 where
  waits := [.ok (.stopped 2 .stop), .ok first, .ok second]
  children := [2]
  regs := zeroRegs

section Tape

/-- The thread that creates both children of the examples. -/
def byLeader (_ : List Report) (_ : Pid) : Pid := 1

variable {past : List Report} {r : Report}

/-- The first stop of the child, for the examples below. -/
theorem orderly_firstStop (hstatus : r.status = .stopped 2 .stop) (hchild : r.child = none)
    (hnew : (r.state.threads[(2 : Pid)]?).isSome = false) : Orderly 1 byLeader [] r := by
  refine { pid := ?_, child := by simp [hchild], kin := fun _ _ => rfl, stop := ?_, next := ?_ }
  · intro p hp
    rw [hstatus] at hp
    rcases Option.some.inj hp with rfl
    exact ⟨by decide, by decide⟩
  · intro p hp
    rw [hstatus] at hp
    rcases Option.some.inj hp with rfl
    refine .inr ⟨⟨.stop, hstatus⟩, ?_⟩
    rw [Scheduler.Tracks, hnew]
    exact Bool.false_ne_true
  · -- it is not the parent that stops
    intro child _ hstop
    rw [hstatus] at hstop
    have heq : (2 : Pid) = 1 := Option.some.inj hstop
    exact absurd heq (by decide)

/-- The exit of the child, after it was named. -/
theorem orderly_exit {status : WaitStatus} {code : Option Int32}
    (hgone : gone status = some (2, code)) (hstatus : r.status = status) (hchild : r.child = none) :
    Orderly 1 byLeader past r := by
  have hstop : stopOf status = none := by
    unfold gone at hgone
    split at hgone
    · rfl
    · rfl
    · cases hgone
  have habout : about status = some 2 := by
    unfold gone at hgone
    split at hgone
    · exact congrArg some (Prod.mk.inj (Option.some.inj hgone)).1
    · exact congrArg some (Prod.mk.inj (Option.some.inj hgone)).1
    · cases hgone
  refine { pid := ?_, child := by simp [hchild], kin := fun _ _ => rfl, stop := ?_, next := ?_ }
  · intro p hp
    rw [hstatus, habout] at hp
    rcases Option.some.inj hp with rfl
    exact ⟨by decide, by decide⟩
  · intro p hp
    rw [hstatus, hstop] at hp
    cases hp
  · intro child _ hp
    rw [hstatus, hstop] at hp
    cases hp

/-- The event of the parent that names the child. -/
theorem orderly_clone (hstatus : r.status = .ptraceEvent 1 .trap EventCode.clone)
    (hchild : r.child = some 2) (hrunning : r.state.running = some 1)
    (hnext : ∀ child, Unannounced 1 past r.state child → child = 2) :
    Orderly 1 byLeader past r := by
  refine { pid := ?_, child := ?_, kin := fun _ _ => rfl, stop := ?_, next := ?_ }
  · intro p hp
    rw [hstatus] at hp
    rcases Option.some.inj hp with rfl
    exact ⟨by decide, by decide⟩
  · intro p hp
    rw [hchild] at hp
    rcases Option.some.inj hp with rfl
    exact ⟨by decide, by decide⟩
  · intro p hp
    rw [hstatus] at hp
    rcases Option.some.inj hp with rfl
    exact .inl hrunning
  · intro child hunannounced _
    rw [hnext child hunannounced]
    exact hchild

theorem announcing_firstStop (hstatus : r.status = .stopped 2 .stop)
    (hrunning : r.state.running = some 1) : Announcing 1 byLeader past r := by
  refine { born := fun _ _ _ _ => .inr hrunning, exit := ?_ }
  intro p code child hgone
  rw [hstatus] at hgone
  cases hgone

theorem announcing_clone (hstatus : r.status = .ptraceEvent 1 .trap EventCode.clone) :
    Announcing 1 byLeader past r := by
  refine { born := ?_, exit := ?_ }
  · intro child sig hfirst
    rw [hstatus] at hfirst
    cases hfirst
  · intro p code child hgone
    rw [hstatus] at hgone
    cases hgone

/-- The parent names the child, then the child runs and exits. -/
theorem recording_wellFormed_clone :
    ∃ (past : List Report) (w : Hosted Scheduler (Tape .x86_64)), Recording .x86_64 1 past w ∧
      IsPid 1 ∧ past.Each (Orderly 1 byLeader) ∧ past.Each (Announcing 1 byLeader) ∧
      past.length = 3 ∧
      w.object.writer = [spawnEvent 0 1 2, switchEvent 0 2, threadExitEvent 0 2] ∧
      WellFormed (tidOf 1) w.object.writer := by
  obtain ⟨w₀, w₁, w₂, w₃, r₁, r₂, r₃, hnew, hfirst, hsecond, hthird, hr₁, hr₂, hr₃, hstate₁,
      hstate₂, hstate₃, hlog⟩ :
      ∃ (w₀ w₁ w₂ w₃ : Hosted Scheduler (Tape .x86_64)) (r₁ r₂ r₃ : Report),
        exec (new 1) ⟨.ofLeader 1, cloneTape (.ptraceEvent 1 .trap EventCode.clone)
          (.exited 2 0)⟩ = some (.ok (), w₀) ∧
        Turn .x86_64 w₀ (some r₁) w₁ ∧ Turn .x86_64 w₁ (some r₂) w₂ ∧
        Turn .x86_64 w₂ (some r₃) w₃ ∧
        (r₁.status = .stopped 2 .stop ∧ r₁.child = none) ∧
        (r₂.status = .ptraceEvent 1 .trap EventCode.clone ∧ r₂.child = some 2) ∧
        (r₃.status = .exited 2 0 ∧ r₃.child = none) ∧
        (r₁.state.running = some 1 ∧ (r₁.state.threads[(2 : Pid)]?).isSome = false) ∧
        r₂.state.running = some 1 ∧ r₃.state.running = some 2 ∧
        w₃.object.writer = [spawnEvent 0 1 2, switchEvent 0 2, threadExitEvent 0 2] :=
    ⟨_, _, _, _, _, _, _, rfl, .reported rfl rfl rfl rfl rfl, .reported rfl rfl rfl rfl rfl,
      .reported rfl rfl rfl rfl rfl, ⟨rfl, rfl⟩, ⟨rfl, rfl⟩, ⟨rfl, rfl⟩, ⟨rfl, rfl⟩, rfl, rfl, rfl⟩
  have hone : Recording .x86_64 1 ([] ++ [r₁]) w₁ := .turn (.new hnew) hfirst
  have htwo : Recording .x86_64 1 ([] ++ [r₁] ++ [r₂]) w₂ := .turn hone hsecond
  have hrecording : Recording .x86_64 1 ([] ++ [r₁] ++ [r₂] ++ [r₃]) w₃ := .turn htwo hthird
  -- the threads that were seen: the leader and its child
  have hseen {p : Pid} (hp : r₂.state.Tracks p) : p = 1 ∨ p = 2 := by
    by_contra hne
    refine hone.seen p (hsecond.steps.1.tracks_iff.mp hp) ⟨fun heq => hne (.inl heq), ?_⟩
    intro r hr
    rw [List.nil_append, List.mem_singleton] at hr
    rw [hr, hr₁.1]
    exact fun heq => hne (.inr (Option.some.inj heq).symm)
  have hseen' {p : Pid} (hp : r₃.state.Tracks p) : p = 1 ∨ p = 2 := by
    by_contra hne
    refine htwo.seen p (hthird.steps.1.tracks_iff.mp hp) ⟨fun heq => hne (.inl heq), ?_⟩
    intro r hr
    rw [List.nil_append, List.mem_append, List.mem_singleton, List.mem_singleton] at hr
    rcases hr with rfl | rfl
    · rw [hr₁.1]
      exact fun heq => hne (.inr (Option.some.inj heq).symm)
    · rw [hr₂.1]
      exact fun heq => hne (.inl (Option.some.inj heq).symm)
  have horderly : ([] ++ [r₁] ++ [r₂] ++ [r₃]).Each (Orderly 1 byLeader) := by
    refine List.each_snoc.mpr ⟨List.each_snoc.mpr ⟨List.each_snoc.mpr ⟨List.each_nil, ?_⟩, ?_⟩, ?_⟩
    · exact orderly_firstStop hr₁.1 hr₁.2 hstate₁.2
    · refine orderly_clone hr₂.1 hr₂.2 hstate₂ ?_
      rintro child ⟨hchild, hnot⟩
      rcases hseen hchild with rfl | rfl
      · rw [announced_snoc, hr₁.1, hr₁.2] at hnot
        simp [gone, announced] at hnot
      · rfl
    · exact orderly_exit rfl hr₃.1 hr₃.2
  have hannouncing : ([] ++ [r₁] ++ [r₂] ++ [r₃]).Each (Announcing 1 byLeader) := by
    refine List.each_snoc.mpr ⟨List.each_snoc.mpr ⟨List.each_snoc.mpr ⟨List.each_nil, ?_⟩, ?_⟩, ?_⟩
    · exact announcing_firstStop hr₁.1 hstate₁.1
    · exact announcing_clone hr₂.1
    · refine { born := fun child sig hfirst => ?_, exit := ?_ }
      · rw [hr₃.1] at hfirst
        cases hfirst
      -- both threads were named
      rintro p code child - ⟨hchild, hnot⟩
      rw [announced_snoc, hr₂.1, hr₂.2, announced_snoc, hr₁.1, hr₁.2] at hnot
      rcases hseen' hchild with rfl | rfl
      · simp [gone, announced] at hnot
      · simp at hnot
  have hleader : IsPid 1 := ⟨by decide, by decide⟩
  exact ⟨_, w₃, hrecording, hleader, horderly, hannouncing, rfl, hlog,
    (recording_wellFormed hrecording hleader horderly hannouncing).1⟩

/-- The child is killed, and then its parent names it: its exit is recorded before its
birth. -/
theorem killed_child_unborn :
    ∃ (past : List Report) (w : Hosted Scheduler (Tape .x86_64)), Recording .x86_64 1 past w ∧
      IsPid 1 ∧ past.Each (Orderly 1 byLeader) ∧
      past.map Report.status = [.stopped 2 .stop, .signaled 2 .kill false,
        .ptraceEvent 1 .trap EventCode.clone] ∧
      w.object.writer = [threadExitEvent 0 2, spawnEvent 0 1 2] ∧
      ¬ WellFormed (tidOf 1) w.object.writer := by
  obtain ⟨w₀, w₁, w₂, w₃, r₁, r₂, r₃, hnew, hfirst, hsecond, hthird, hr₁, hr₂, hr₃, hstate₁,
      hstate₃, hlog⟩ :
      ∃ (w₀ w₁ w₂ w₃ : Hosted Scheduler (Tape .x86_64)) (r₁ r₂ r₃ : Report),
        exec (new 1) ⟨.ofLeader 1, cloneTape (.signaled 2 .kill false)
          (.ptraceEvent 1 .trap EventCode.clone)⟩ = some (.ok (), w₀) ∧
        Turn .x86_64 w₀ (some r₁) w₁ ∧ Turn .x86_64 w₁ (some r₂) w₂ ∧
        Turn .x86_64 w₂ (some r₃) w₃ ∧
        (r₁.status = .stopped 2 .stop ∧ r₁.child = none) ∧
        (r₂.status = .signaled 2 .kill false ∧ r₂.child = none) ∧
        (r₃.status = .ptraceEvent 1 .trap EventCode.clone ∧ r₃.child = some 2) ∧
        (r₁.state.running = some 1 ∧ (r₁.state.threads[(2 : Pid)]?).isSome = false) ∧
        r₃.state.running = some 1 ∧
        w₃.object.writer = [threadExitEvent 0 2, spawnEvent 0 1 2] :=
    ⟨_, _, _, _, _, _, _, rfl, .reported rfl rfl rfl rfl rfl, .reported rfl rfl rfl rfl rfl,
      .reported rfl rfl rfl rfl rfl, ⟨rfl, rfl⟩, ⟨rfl, rfl⟩, ⟨rfl, rfl⟩, ⟨rfl, rfl⟩, rfl, rfl⟩
  have htwo : Recording .x86_64 1 ([] ++ [r₁] ++ [r₂]) w₂ :=
    .turn (.turn (.new hnew) hfirst) hsecond
  -- No other thread was ever reported about.
  have hseen {p : Pid} (hp : r₃.state.Tracks p) : p = 1 ∨ p = 2 := by
    by_contra hne
    refine htwo.seen p (hthird.steps.1.tracks_iff.mp hp) ⟨fun heq => hne (.inl heq), ?_⟩
    intro r hr
    rw [List.nil_append, List.mem_append, List.mem_singleton, List.mem_singleton] at hr
    rcases hr with rfl | rfl
    · rw [hr₁.1]
      exact fun heq => hne (.inr (Option.some.inj heq).symm)
    · rw [hr₂.1]
      exact fun heq => hne (.inr (Option.some.inj heq).symm)
  refine ⟨_, w₃, .turn htwo hthird, ⟨by decide, by decide⟩, ?_, ?_, hlog, ?_⟩
  · refine List.each_snoc.mpr ⟨List.each_snoc.mpr ⟨List.each_snoc.mpr ⟨List.each_nil, ?_⟩, ?_⟩, ?_⟩
    · exact orderly_firstStop hr₁.1 hr₁.2 hstate₁.2
    · exact orderly_exit rfl hr₂.1 hr₂.2
    · refine orderly_clone hr₃.1 hr₃.2 hstate₃ ?_
      rintro child ⟨hchild, hnot⟩
      rcases hseen hchild with rfl | rfl
      · rw [announced_snoc, hr₂.1, hr₂.2, announced_snoc, hr₁.1, hr₁.2] at hnot
        simp [gone, announced] at hnot
      · rfl
  · simp [hr₁.1, hr₂.1, hr₃.1]
  · intro hwell
    rw [hlog] at hwell
    obtain ⟨t, hlawful⟩ := hwell [] (threadExitEvent 0 2) [spawnEvent 0 1 2] rfl
    rcases Option.some.inj hlawful.tag with rfl
    exact absurd hlawful.alive (by decide)

end Tape

end Mirrorscope.Capture
