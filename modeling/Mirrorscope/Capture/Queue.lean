import Mathlib.Data.List.Nodup
import Mirrorscope.Capture.Turns
import Mirrorscope.Lib.Each

/-! # No thread is lost

The scheduler keeps every thread it tracks in exactly one place: it runs, it waits in the
queue, or it is withheld as the parent of a `vfork`ed child. A thread forgotten by one
branch would starve.

The places are the fields `running`, `ready` and `vforkPending` of the scheduler.
* `Queued`: every tracked thread is in one of them.
* `InOrder`: with it, what has to hold of the other fields for a turn to keep it.
* `Admissible`: the order in which the kernel may report.
* `recording_queued`: after every turn of a recording each thread has its place.
-/

namespace Mirrorscope.Capture

open Linux Run
open Trace (Event EventKind)

/-! ## What the operations leave alone -/

namespace Scheduler

variable (s : Scheduler) (pid p : Pid)

@[simp] theorem threads_emit (event : Event) : (s.emit event).threads = s.threads := rfl
@[simp] theorem ready_emit (event : Event) : (s.emit event).ready = s.ready := rfl
@[simp] theorem running_emit (event : Event) : (s.emit event).running = s.running := rfl
@[simp] theorem vforkPending_emit (event : Event) :
    (s.emit event).vforkPending = s.vforkPending := rfl

@[simp] theorem ready_modifyThread (f : Thread → Thread) :
    (s.modifyThread pid f).ready = s.ready := by
  unfold modifyThread
  split
  · rfl
  · rfl

@[simp] theorem running_modifyThread (f : Thread → Thread) :
    (s.modifyThread pid f).running = s.running := by
  unfold modifyThread
  split
  · rfl
  · rfl

@[simp] theorem vforkPending_modifyThread (f : Thread → Thread) :
    (s.modifyThread pid f).vforkPending = s.vforkPending := by
  unfold modifyThread
  split
  · rfl
  · rfl

@[simp] theorem threads_clearRunning : (s.clearRunning pid).threads = s.threads :=
  Capture.threads_clearRunning s pid

@[simp] theorem ready_clearRunning : (s.clearRunning pid).ready = s.ready := by
  unfold clearRunning
  split
  · rfl
  · rfl

@[simp] theorem vforkPending_clearRunning :
    (s.clearRunning pid).vforkPending = s.vforkPending := by
  unfold clearRunning
  split
  · rfl
  · rfl

theorem running_clearRunning :
    (s.clearRunning pid).running = if s.running = some pid then none else s.running := by
  unfold clearRunning
  split
  · rfl
  · rfl

@[simp] theorem threads_requeue : (s.requeue pid).threads = s.threads := by
  unfold requeue
  split
  · rfl
  · rfl

@[simp] theorem running_requeue : (s.requeue pid).running = s.running := by
  unfold requeue
  split
  · rfl
  · rfl

@[simp] theorem vforkPending_requeue : (s.requeue pid).vforkPending = s.vforkPending := by
  unfold requeue
  split
  · rfl
  · rfl

variable {s pid p}

/-- Changing the bookkeeping of a thread tracks the same threads. -/
@[simp] theorem tracks_modifyThread {f : Thread → Thread} :
    (s.modifyThread pid f).Tracks p ↔ s.Tracks p := by
  unfold modifyThread
  split
  · rename_i thread hthread
    unfold Tracks
    rw [KeyMap.get_insert]
    split
    · rename_i heq
      rw [← heq, hthread]
      simp
    · exact Iff.rfl
  · exact Iff.rfl

theorem tracks_congr {s s' : Scheduler} (h : s'.threads = s.threads) : s'.Tracks p ↔ s.Tracks p := by
  unfold Tracks
  rw [h]

@[simp] theorem tracks_emit {event : Event} : (s.emit event).Tracks p ↔ s.Tracks p := Iff.rfl

@[simp] theorem tracks_removed {code : Option Int32} :
    (s.removed pid code).Tracks p ↔ s.Tracks p := Iff.rfl

@[simp] theorem tracks_clearRunning : (s.clearRunning pid).Tracks p ↔ s.Tracks p :=
  tracks_congr (threads_clearRunning s pid)

@[simp] theorem tracks_requeue : (s.requeue pid).Tracks p ↔ s.Tracks p :=
  tracks_congr (threads_requeue s pid)

@[simp] theorem tracks_release : (s.release pid).Tracks p ↔ s.Tracks p := by
  unfold release
  split
  · exact tracks_requeue
  · exact Iff.rfl

@[simp] theorem tracks_untracked : (s.untracked pid).Tracks p ↔ p ≠ pid ∧ s.Tracks p := by
  unfold untracked Tracks
  rw [threads_clearRunning, KeyMap.get_erase]
  split
  · rename_i heq
    simp [heq]
  · rename_i hne
    simp [Ne.symm hne]

/-- A thread is put at the back of the queue if it is tracked and not in it. -/
theorem ready_requeue (s : Scheduler) (pid : Pid) :
    (s.Tracks pid ∧ pid ∉ s.ready ∧ (s.requeue pid).ready = s.ready ++ [pid]) ∨
      (¬ (s.Tracks pid ∧ pid ∉ s.ready) ∧ (s.requeue pid).ready = s.ready) := by
  unfold requeue
  split
  · rename_i h
    simp only [Bool.and_eq_true, Bool.not_eq_eq_eq_not, Bool.not_true, List.contains_eq_mem,
      decide_eq_false_iff_not] at h
    exact .inl ⟨h.1, h.2, rfl⟩
  · rename_i h
    refine .inr ⟨?_, rfl⟩
    rintro ⟨htracked, hready⟩
    refine h ?_
    simp [show (s.threads[pid]?).isSome = true from htracked, hready]

/-- Requeueing adds the thread, if it is tracked. -/
theorem mem_ready_requeue :
    p ∈ (s.requeue pid).ready ↔ p ∈ s.ready ∨ p = pid ∧ s.Tracks pid := by
  rcases ready_requeue s pid with ⟨htracked, -, hready⟩ | ⟨hnot, hready⟩
  · rw [hready]
    simp [htracked]
  · rw [hready]
    constructor
    · exact .inl
    · rintro (h | ⟨rfl, htracked⟩)
      · exact h
      · by_contra hmem
        exact hnot ⟨htracked, hmem⟩

/-- A thread that waits already is not queued twice. -/
theorem nodup_requeue (h : s.ready.Nodup) : (s.requeue pid).ready.Nodup := by
  rcases ready_requeue s pid with ⟨-, hnew, hready⟩ | ⟨-, hready⟩
  · rw [hready]
    exact List.nodup_append.mpr ⟨h, List.nodup_singleton _, by
      rintro a ha b hb rfl
      rw [List.mem_singleton.mp hb] at ha
      exact hnew ha⟩
  · rw [hready]
    exact h

/-- Recording a switch tracks, queues and withholds the same threads. -/
theorem switched_fields (s : Scheduler) (ts : UInt64) (next : Pid) :
    (s.switched ts next).threads = s.threads ∧ (s.switched ts next).ready = s.ready ∧
      (s.switched ts next).vforkPending = s.vforkPending := by
  unfold switched
  split
  · exact ⟨rfl, rfl, rfl⟩
  · exact ⟨rfl, rfl, rfl⟩

variable {ts : UInt64} {next : Pid} {ready : List Pid}

@[simp] theorem tracks_resumed : (s.resumed ts next ready).Tracks p ↔ s.Tracks p :=
  tracks_modifyThread.trans (tracks_congr (switched_fields { s with ready } ts next).1)

@[simp] theorem ready_resumed : (s.resumed ts next ready).ready = ready :=
  (ready_modifyThread _ _ _).trans (switched_fields { s with ready } ts next).2.1

@[simp] theorem vforkPending_resumed :
    (s.resumed ts next ready).vforkPending = s.vforkPending :=
  (vforkPending_modifyThread _ _ _).trans (switched_fields { s with ready } ts next).2.2

end Scheduler

/-! ## Where the threads are -/

/-- A thread whose exit was reported. -/
def Departed (past : List Report) (pid : Pid) : Prop :=
  ∃ r ∈ past, ∃ code, gone r.status = some (pid, code)

/-- The queue holds tracked threads, each once; the running thread is tracked and not in
it; and every tracked thread runs, is queued, or is withheld by a pending child. Only the exit
of the child queues a withheld parent again, so a child that is gone withholds nobody: a parent
kept by such a child would never run again. -/
structure Queued (past : List Report) (s : Scheduler) : Prop where
  nodup : s.ready.Nodup
  tracked : ∀ p ∈ s.ready, s.Tracks p
  running : ∀ p, s.running = some p → s.Tracks p ∧ p ∉ s.ready
  placed : ∀ p, s.Tracks p → s.running = some p ∨ p ∈ s.ready ∨
    ∃ child : Pid, s.vforkPending[child]? = some p ∧ ¬ Departed past child

/-- A withheld parent neither runs nor is queued, and one child withholds it. -/
structure Withheld (s : Scheduler) : Prop where
  apart : ∀ (child p : Pid), s.vforkPending[child]? = some p → s.running ≠ some p ∧ p ∉ s.ready
  unique : ∀ (c c' p : Pid), s.vforkPending[c]? = some p → s.vforkPending[c']? = some p → c = c'

/-- One report adds at most one departure. -/
theorem departed_snoc {past : List Report} {r : Report} {pid : Pid} :
    Departed (past ++ [r]) pid ↔ Departed past pid ∨ ∃ code, gone r.status = some (pid, code) := by
  unfold Departed
  simp only [List.mem_append, List.mem_singleton, or_and_right, exists_or, exists_eq_left]

/-- At the start the leader waits in the queue. -/
theorem ofLeader_queued (leader : Pid) : Queued [] (.ofLeader leader) where
  nodup := List.nodup_singleton _
  tracked p hp := by
    rw [List.mem_singleton.mp hp, Scheduler.Tracks, Scheduler.ofLeader, KeyMap.get_insert,
      if_pos rfl]
    rfl
  running p hp := by cases hp
  placed p hp := by
    rw [Scheduler.Tracks, Scheduler.ofLeader, KeyMap.get_insert] at hp
    split at hp
    · rename_i heq
      exact .inr (.inl (List.mem_singleton.mpr heq.symm))
    · simp at hp

/-! ## The assumptions on what is reported -/

/-- The thread whose stop a status reports. -/
def stopOf : WaitStatus → Option Pid
  | .ptraceSyscall pid | .ptraceEvent pid _ _ | .stopped pid _ => some pid
  | _ => none

/-- The thread a status is about. -/
def about : WaitStatus → Option Pid
  | .ptraceSyscall pid | .ptraceEvent pid _ _ | .stopped pid _ | .exited pid _
  | .signaled pid _ _ | .continued pid => some pid
  | .stillAlive => none

/-- A pid that is not the leader's and that nothing was reported about. -/
def Fresh (leader : Pid) (past : List Report) (pid : Pid) : Prop :=
  pid ≠ leader ∧ ∀ r ∈ past, about r.status ≠ some pid

/-- A report the kernel may make. Who stops runs, or is a new child that stops for the first
time; and a spawn event names a new child, whose exit comes later. Exits may be reported of any
thread. -/
structure Admissible (leader : Pid) (past : List Report) (r : Report) : Prop where
  stop : ∀ pid, stopOf r.status = some pid →
    r.state.running = some pid ∨ (∃ sig, r.status = .stopped pid sig) ∧ Fresh leader past pid
  spawn : ∀ child, r.child = some child → ∀ r' ∈ past, r'.child ≠ some child
  exit : ∀ child, r.child = some child → ¬ Departed past child

/-- Every report was one the kernel may make. -/
def Regular (leader : Pid) (past : List Report) : Prop := past.Each (Admissible leader)

/-- Pending children were named, and their parents reported about. -/
def Known (past : List Report) (s : Scheduler) : Prop :=
  ∀ child p : Pid, s.vforkPending[child]? = some p →
    (∃ r ∈ past, r.child = some child) ∧ ∃ r ∈ past, about r.status = some p

/-- What holds between two turns. -/
structure InOrder (past : List Report) (s : Scheduler) : Prop
    extends Queued past s, Withheld s where
  known : Known past s

/-- At the start nobody is withheld. -/
theorem ofLeader_withheld (leader : Pid) : Withheld (.ofLeader leader) where
  apart child p h := by
    rw [Scheduler.ofLeader, KeyMap.get_empty] at h
    cases h
  unique c c' p h := by
    rw [Scheduler.ofLeader, KeyMap.get_empty] at h
    cases h

/-! ## One turn -/

section Steps

variable {s s' : Scheduler} {past : List Report} {pid : Pid}

/-- Who is tracked and withheld is the same in both states. -/
structure SamePlaces (s s' : Scheduler) : Prop where
  tracks : ∀ p, s'.Tracks p ↔ s.Tracks p
  pending : s'.vforkPending = s.vforkPending

/-- The first of the queue runs. -/
theorem InOrder.resume {next : Pid} {ready : List Pid} (h : InOrder past s)
    (hready : s.ready = next :: ready) (hsame : SamePlaces s s') (hready' : s'.ready = ready)
    (hrunning' : s'.running = some next) (hrunning : s.running = none) : InOrder past s' := by
  -- The thread leaves the queue and runs; the places of the others stay.
  have hnodup : next ∉ ready ∧ ready.Nodup := by
    have hnodup := h.nodup
    rw [hready] at hnodup
    exact List.nodup_cons.mp hnodup
  have hmem {p : Pid} : p ∈ s.ready ↔ p = next ∨ p ∈ ready := by rw [hready, List.mem_cons]
  refine { nodup := ?_, tracked := ?_, running := ?_, placed := ?_, apart := ?_, unique := ?_,
           known := ?_ }
  · rw [hready']
    exact hnodup.2
  · intro p hp
    rw [hready'] at hp
    exact (hsame.tracks p).mpr (h.tracked p (hmem.mpr (.inr hp)))
  · intro p hp
    rw [hrunning'] at hp
    rcases Option.some.inj hp with rfl
    rw [hready']
    exact ⟨(hsame.tracks _).mpr (h.tracked _ (hmem.mpr (.inl rfl))), hnodup.1⟩
  · intro p hp
    rw [hrunning', hready', hsame.pending]
    rcases h.placed p ((hsame.tracks p).mp hp) with hp | hp | hp
    · rw [hrunning] at hp
      cases hp
    · rcases hmem.mp hp with rfl | hp
      · exact .inl rfl
      · exact .inr (.inl hp)
    · exact .inr (.inr hp)
  · intro child p hp
    rw [hsame.pending] at hp
    rw [hrunning', hready']
    have hnot := (h.apart child p hp).2
    rw [hmem] at hnot
    refine ⟨?_, fun hp => hnot (.inr hp)⟩
    rintro heq
    exact hnot (.inl (Option.some.inj heq).symm)
  · rw [hsame.pending]
    exact h.unique
  · intro child p hp
    rw [hsame.pending] at hp
    exact h.known child p hp

theorem Starts.inOrder (hstart : Starts s s') (h : InOrder past s) : InOrder past s' := by
  cases hstart with
  | running _ => exact h
  | idle _ _ => exact h
  | resumed hrunning hready ts =>
    exact h.resume hready { tracks := by simp, pending := by simp } (by simp) rfl hrunning

/-- The running thread stops and goes to the back of the queue. -/
theorem InOrder.requeue (h : InOrder past s) (hrunning : s.running = some pid)
    (hsame : SamePlaces s s') (hready : s'.ready = s.ready) (hidle : s'.running = none) :
    InOrder past (s'.requeue pid) := by
  -- The running thread goes to the back of the queue, and nothing runs.
  have htracks : s'.Tracks pid := (hsame.tracks pid).mpr (h.running pid hrunning).1
  have hmem {p : Pid} : p ∈ (s'.requeue pid).ready ↔ p ∈ s.ready ∨ p = pid := by
    rw [Scheduler.mem_ready_requeue, hready]
    simp [htracks]
  have htracks' (p : Pid) : (s'.requeue pid).Tracks p ↔ s.Tracks p :=
    (Scheduler.tracks_congr (Scheduler.threads_requeue _ _)).trans (hsame.tracks p)
  refine { nodup := ?_, tracked := ?_, running := ?_, placed := ?_, apart := ?_, unique := ?_,
           known := ?_ }
  · refine Scheduler.nodup_requeue ?_
    rw [hready]
    exact h.nodup
  · intro p hp
    rw [htracks']
    rcases hmem.mp hp with hp | rfl
    · exact h.tracked p hp
    · exact (h.running p hrunning).1
  · intro p hp
    rw [Scheduler.running_requeue, hidle] at hp
    cases hp
  · intro p hp
    rw [Scheduler.vforkPending_requeue, hsame.pending, hmem]
    rcases h.placed p ((htracks' p).mp hp) with hp | hp | hp
    · rw [hrunning] at hp
      exact .inr (.inl (.inr (Option.some.inj hp).symm))
    · exact .inr (.inl (.inl hp))
    · exact .inr (.inr hp)
  · intro child p hp
    rw [Scheduler.vforkPending_requeue, hsame.pending] at hp
    obtain ⟨hapart, hready⟩ := h.apart child p hp
    rw [Scheduler.running_requeue, hidle, hmem]
    refine ⟨by simp, ?_⟩
    rintro (hp | rfl)
    · exact hready hp
    · exact hapart hrunning
  · rw [Scheduler.vforkPending_requeue, hsame.pending]
    exact h.unique
  · intro child p hp
    rw [Scheduler.vforkPending_requeue, hsame.pending] at hp
    exact h.known child p hp

theorem Known.append (h : Known past s) (r : Report) : Known (past ++ [r]) s := by
  intro child p hp
  obtain ⟨⟨r₁, hr₁, hchild⟩, r₂, hr₂, habout⟩ := h child p hp
  exact ⟨⟨r₁, List.mem_append_left _ hr₁, hchild⟩, r₂, List.mem_append_left _ hr₂, habout⟩

/-- A report that is not of an exit leaves every thread where it is. -/
theorem InOrder.append {r : Report} (h : InOrder past s) (hgone : gone r.status = none) :
    InOrder (past ++ [r]) s where
  nodup := h.nodup
  tracked := h.tracked
  running := h.running
  placed p hp := by
    rcases h.placed p hp with hp | hp | ⟨child, hp, hlives⟩
    · exact .inl hp
    · exact .inr (.inl hp)
    · refine .inr (.inr ⟨child, hp, ?_⟩)
      rw [departed_snoc, hgone]
      simpa using hlives
  toWithheld := h.toWithheld
  known := h.known.append r

/-- The running thread stops at a `vfork` and is withheld by its new child. -/
theorem InOrder.withhold {child : Pid} {r : Report} (h : InOrder past s)
    (hrunning : s.running = some pid) (htracks : ∀ p, s'.Tracks p ↔ s.Tracks p)
    (hready : s'.ready = s.ready) (hidle : s'.running = none)
    (hpending : s'.vforkPending = s.vforkPending.insert child pid)
    (hnew : ∀ r' ∈ past, r'.child ≠ some child) (hlives : ¬ Departed past child)
    (hgone : gone r.status = none) (hchild : r.child = some child)
    (habout : about r.status = some pid) : InOrder (past ++ [r]) s' := by
  -- nothing is pending on the child, so no parent is forgotten
  have hfree : s.vforkPending[child]? = none := by
    cases hp : s.vforkPending[child]? with
    | none => rfl
    | some p =>
      obtain ⟨⟨r', hr', hnamed⟩, -⟩ := h.known child p hp
      exact absurd hnamed (hnew r' hr')
  have hget (c : Pid) : s'.vforkPending[c]? = if child = c then some pid else s.vforkPending[c]? := by
    rw [hpending, KeyMap.get_insert]
  have hother {c p : Pid} (hp : s'.vforkPending[c]? = some p) :
      c = child ∧ p = pid ∨ s.vforkPending[c]? = some p := by
    rw [hget] at hp
    split at hp
    · rename_i heq
      exact .inl ⟨heq.symm, (Option.some.inj hp).symm⟩
    · exact .inr hp
  have hnever {c : Pid} : s.vforkPending[c]? ≠ some pid := fun hp => (h.apart c pid hp).1 hrunning
  have hdeparted (c : Pid) : Departed (past ++ [r]) c ↔ Departed past c := by
    rw [departed_snoc, hgone]
    simp
  refine { nodup := ?_, tracked := ?_, running := ?_, placed := ?_, apart := ?_, unique := ?_,
           known := ?_ }
  · rw [hready]
    exact h.nodup
  · intro p hp
    rw [hready] at hp
    exact (htracks p).mpr (h.tracked p hp)
  · intro p hp
    rw [hidle] at hp
    cases hp
  · intro p hp
    rw [hready]
    rcases h.placed p ((htracks p).mp hp) with hp | hp | ⟨c, hp, hc⟩
    · rw [hrunning] at hp
      refine .inr (.inr ⟨child, ?_, fun hdead => hlives ((hdeparted child).mp hdead)⟩)
      rw [hget, if_pos rfl, hp]
    · exact .inr (.inl hp)
    · refine .inr (.inr ⟨c, ?_, fun hdead => hc ((hdeparted c).mp hdead)⟩)
      rw [hget, if_neg, hp]
      rintro rfl
      rw [hfree] at hp
      cases hp
  · intro c p hp
    rw [hidle, hready]
    refine ⟨by simp, ?_⟩
    rcases hother hp with ⟨-, rfl⟩ | hp
    · exact (h.running p hrunning).2
    · exact (h.apart c p hp).2
  · intro c c' p hp hp'
    rcases hother hp with ⟨rfl, rfl⟩ | hp
    · rcases hother hp' with ⟨rfl, -⟩ | hp'
      · rfl
      · exact absurd hp' hnever
    · rcases hother hp' with ⟨-, rfl⟩ | hp'
      · exact absurd hp hnever
      · exact h.unique c c' p hp hp'
  · intro c p hp
    rcases hother hp with ⟨rfl, rfl⟩ | hp
    · exact ⟨⟨r, by simp, hchild⟩, r, by simp, habout⟩
    · exact h.known.append r c p hp

/-- A new child is queued. -/
theorem InOrder.enqueue {leader : Pid} (h : InOrder past s) (hfresh : Fresh leader past pid)
    (hnew : ¬ s.Tracks pid) (htracks : ∀ p, s'.Tracks p ↔ p = pid ∨ s.Tracks p)
    (hready : s'.ready = s.ready) (hrunning : s'.running = s.running)
    (hpending : s'.vforkPending = s.vforkPending) : InOrder past (s'.requeue pid) := by
  -- The thread is tracked by now, so requeueing it adds it.
  have hmem {p : Pid} : p ∈ (s'.requeue pid).ready ↔ p ∈ s.ready ∨ p = pid := by
    rw [Scheduler.mem_ready_requeue, hready]
    simp [(htracks pid).mpr (.inl rfl)]
  have htracks' (p : Pid) : (s'.requeue pid).Tracks p ↔ p = pid ∨ s.Tracks p :=
    (Scheduler.tracks_congr (Scheduler.threads_requeue _ _)).trans (htracks p)
  refine { nodup := ?_, tracked := ?_, running := ?_, placed := ?_, apart := ?_, unique := ?_,
           known := ?_ }
  · refine Scheduler.nodup_requeue ?_
    rw [hready]
    exact h.nodup
  · intro p hp
    rw [htracks']
    rcases hmem.mp hp with hp | hp
    · exact .inr (h.tracked p hp)
    · exact .inl hp
  · intro p hp
    rw [Scheduler.running_requeue, hrunning] at hp
    obtain ⟨htracked, hready⟩ := h.running p hp
    rw [htracks', hmem]
    refine ⟨.inr htracked, ?_⟩
    rintro (hp | rfl)
    · exact hready hp
    · exact hnew htracked
  · intro p hp
    rw [Scheduler.running_requeue, hrunning, Scheduler.vforkPending_requeue, hpending, hmem]
    rcases (htracks' p).mp hp with hp | hp
    · exact .inr (.inl (.inr hp))
    · rcases h.placed p hp with hp | hp | hp
      · exact .inl hp
      · exact .inr (.inl (.inl hp))
      · exact .inr (.inr hp)
  · intro child p hp
    rw [Scheduler.vforkPending_requeue, hpending] at hp
    obtain ⟨hapart, hready⟩ := h.apart child p hp
    rw [Scheduler.running_requeue, hrunning, hmem]
    refine ⟨hapart, ?_⟩
    rintro (hp' | rfl)
    · exact hready hp'
    · -- a withheld parent was reported about, a new child was not
      obtain ⟨-, r, hr, habout⟩ := h.known child p hp
      exact hfresh.2 r hr habout
  · rw [Scheduler.vforkPending_requeue, hpending]
    exact h.unique
  · intro child p hp
    rw [Scheduler.vforkPending_requeue, hpending] at hp
    exact h.known child p hp

/-- A thread that is gone is nowhere. -/
theorem InOrder.remove (h : InOrder past s) (htracks : ∀ p, s'.Tracks p ↔ p ≠ pid ∧ s.Tracks p)
    (hready : s'.ready = s.ready.filter fun p => p ≠ pid)
    (hrunning : s'.running = if s.running = some pid then none else s.running)
    (hpending : s'.vforkPending = s.vforkPending) : InOrder past s' := by
  -- The thread leaves all of its places at once.
  have hmem {p : Pid} : p ∈ s'.ready ↔ p ≠ pid ∧ p ∈ s.ready := by
    rw [hready, List.mem_filter, decide_eq_true_eq]
    exact And.comm
  have hruns {p : Pid} : s'.running = some p ↔ p ≠ pid ∧ s.running = some p := by
    rw [hrunning]
    split
    · rename_i heq
      rw [heq]
      simp only [reduceCtorEq, Option.some.injEq, false_iff, not_and]
      exact fun hne heq => hne heq.symm
    · rename_i hne
      constructor
      · intro hp
        refine ⟨?_, hp⟩
        rintro rfl
        exact hne hp
      · exact And.right
  refine { nodup := ?_, tracked := ?_, running := ?_, placed := ?_, apart := ?_, unique := ?_,
           known := ?_ }
  · rw [hready]
    exact h.nodup.filter _
  · intro p hp
    rw [htracks]
    exact ⟨(hmem.mp hp).1, h.tracked p (hmem.mp hp).2⟩
  · intro p hp
    obtain ⟨hne, hp⟩ := hruns.mp hp
    obtain ⟨htracked, hnot⟩ := h.running p hp
    exact ⟨(htracks p).mpr ⟨hne, htracked⟩, fun hp => hnot (hmem.mp hp).2⟩
  · intro p hp
    obtain ⟨hne, hp⟩ := (htracks p).mp hp
    rw [hpending, hruns, hmem]
    rcases h.placed p hp with hp | hp | hp
    · exact .inl ⟨hne, hp⟩
    · exact .inr (.inl ⟨hne, hp⟩)
    · exact .inr (.inr hp)
  · intro child p hp
    rw [hpending] at hp
    obtain ⟨hapart, hnot⟩ := h.apart child p hp
    exact ⟨fun hp => hapart (hruns.mp hp).2, fun hp => hnot (hmem.mp hp).2⟩
  · rw [hpending]
    exact h.unique
  · intro child p hp
    rw [hpending] at hp
    exact h.known child p hp

/-- The parent that a gone child withheld is queued again. -/
theorem InOrder.release {r : Report} {code : Option Int32} (h : InOrder past s)
    (hgone : gone r.status = some (pid, code)) : InOrder (past ++ [r]) (s.release pid) := by
  have hlives {c : Pid} (hc : ¬ Departed past c) (hne : c ≠ pid) :
      ¬ Departed (past ++ [r]) c := by
    rw [departed_snoc, hgone]
    rintro (hdead | ⟨_, heq⟩)
    · exact hc hdead
    · exact hne (Prod.mk.inj (Option.some.inj heq)).1.symm
  unfold Scheduler.release
  split
  · rename_i parent hparent
    set t : Scheduler := { s with vforkPending := s.vforkPending.erase pid } with ht
    have hget (c : Pid) : t.vforkPending[c]? = if pid = c then none else s.vforkPending[c]? :=
      KeyMap.get_erase _ _ _
    have hkept {c p : Pid} (hp : t.vforkPending[c]? = some p) :
        c ≠ pid ∧ s.vforkPending[c]? = some p := by
      rw [hget] at hp
      split at hp
      · cases hp
      · rename_i hne
        exact ⟨fun heq => hne heq.symm, hp⟩
    have hmem {p : Pid} : p ∈ (t.requeue parent).ready ↔ p ∈ s.ready ∨ p = parent ∧ s.Tracks parent :=
      Scheduler.mem_ready_requeue
    have htracks (p : Pid) : (t.requeue parent).Tracks p ↔ s.Tracks p :=
      Scheduler.tracks_congr (Scheduler.threads_requeue _ _)
    refine { nodup := ?_, tracked := ?_, running := ?_, placed := ?_, apart := ?_, unique := ?_,
             known := ?_ }
    -- The withheld parent is queued again, if it is still there.
    · exact Scheduler.nodup_requeue h.nodup
    · intro p hp
      rw [htracks]
      rcases hmem.mp hp with hp | ⟨rfl, hp⟩
      · exact h.tracked p hp
      · exact hp
    · intro p hp
      rw [Scheduler.running_requeue] at hp
      obtain ⟨htracked, hnot⟩ := h.running p hp
      rw [htracks, hmem]
      refine ⟨htracked, ?_⟩
      rintro (hp | ⟨rfl, -⟩)
      · exact hnot hp
      · exact (h.apart pid p hparent).1 ‹_›
    · intro p hp
      rw [htracks] at hp
      rw [Scheduler.running_requeue, Scheduler.vforkPending_requeue, hmem]
      rcases h.placed p hp with hp' | hp' | ⟨c, hp', hc⟩
      · exact .inl hp'
      · exact .inr (.inl (.inl hp'))
      · by_cases heq : c = pid
        · rw [heq, hparent] at hp'
          rcases Option.some.inj hp' with rfl
          exact .inr (.inl (.inr ⟨rfl, hp⟩))
        · refine .inr (.inr ⟨c, ?_, hlives hc heq⟩)
          rw [hget, if_neg (fun h => heq h.symm), hp']
    · intro c p hp
      rw [Scheduler.vforkPending_requeue] at hp
      obtain ⟨hne, hp⟩ := hkept hp
      obtain ⟨hapart, hnot⟩ := h.apart c p hp
      rw [Scheduler.running_requeue, hmem]
      refine ⟨hapart, ?_⟩
      rintro (hp' | ⟨rfl, -⟩)
      · exact hnot hp'
      · exact hne (h.unique c pid p hp hparent)
    · intro c c' p hp hp'
      rw [Scheduler.vforkPending_requeue] at hp hp'
      exact h.unique c c' p (hkept hp).2 (hkept hp').2
    · intro c p hp
      rw [Scheduler.vforkPending_requeue] at hp
      exact h.known.append r c p (hkept hp).2
  · rename_i hnone
    refine { h with placed := ?_, known := h.known.append r }
    intro p hp
    rcases h.placed p hp with hp | hp | ⟨c, hp, hc⟩
    · exact .inl hp
    · exact .inr (.inl hp)
    · refine .inr (.inr ⟨c, hp, hlives hc ?_⟩)
      rintro rfl
      rw [hnone] at hp
      cases hp

/-- The thread that stopped does not run. -/
theorem running_clearRunning_self (h : s.running = some pid) :
    (s.clearRunning pid).running = none := by
  rw [Scheduler.running_clearRunning, if_pos h]

/-- A first stop adds the thread that made it. -/
theorem tracks_register (p : Pid) :
    { s with threads := s.threads.insert pid {},
             threadsFollowed := s.threadsFollowed + 1 }.Tracks p ↔ p = pid ∨ s.Tracks p := by
  unfold Scheduler.Tracks
  rw [KeyMap.get_insert]
  split
  · rename_i heq
    simp [heq]
  · rename_i hne
    simp [Ne.symm hne]

/-- A thread is tracked from its first stop on. -/
theorem Handled.tracks {status : WaitStatus} {child : Option Pid} {p : Pid}
    (h : Handled s status child s') (hp : s'.Tracks p) : s.Tracks p ∨ about status = some p := by
  cases h with
  | enter => exact .inl (by simpa using hp)
  | exit => exact .inl (by simpa using hp)
  | spawn => exact .inl (by simpa using hp)
  | vfork => exact .inl (Scheduler.tracks_clearRunning.mp hp)
  | event => exact .inl (by simpa using hp)
  | first hnew =>
    rcases (tracks_register p).mp (Scheduler.tracks_requeue.mp hp) with rfl | hp
    · exact .inr rfl
    · exact .inl hp
  | stopped => exact .inl (by simpa using hp)
  | signal => exact .inl (by simpa using hp)
  | exited hgone hsilent =>
    simp only [Scheduler.tracks_release, Scheduler.tracks_removed, Scheduler.tracks_untracked] at hp
    exact .inl hp.2
  | exitRecorded hgone =>
    simp only [Scheduler.tracks_release, Scheduler.tracks_removed, Scheduler.tracks_emit,
      Scheduler.tracks_untracked] at hp
    exact .inl hp.2
  | continued => exact .inl hp
  | stillAlive => exact .inl hp

/-- Choosing who runs tracks the same threads. -/
theorem Starts.tracks_iff {p : Pid} (h : Starts s s') : s'.Tracks p ↔ s.Tracks p := by
  cases h with
  | running _ => exact Iff.rfl
  | idle _ _ => exact Iff.rfl
  | resumed hrunning hready ts => exact Scheduler.tracks_resumed

/-- Every tracked thread is the leader or was reported about. -/
def Seen (leader : Pid) (past : List Report) (s : Scheduler) : Prop :=
  ∀ p, s.Tracks p → ¬ Fresh leader past p

/-- A status is handled. -/
theorem Handled.inOrder {leader : Pid} {r : Report} (hhandled : Handled r.state r.status r.child s')
    (h : InOrder past r.state) (hseen : Seen leader past r.state)
    (hadmissible : Admissible leader past r) : InOrder (past ++ [r]) s' := by
  obtain ⟨s, status, child⟩ := r
  have hstop {pid : Pid} (hstatus : stopOf status = some pid)
      (hnot : ∀ sig, status ≠ .stopped pid sig) : s.running = some pid := by
    rcases hadmissible.stop pid hstatus with hrunning | ⟨⟨sig, hsig⟩, -⟩
    · exact hrunning
    · exact absurd hsig (hnot sig)
  cases hhandled with
  | @enter pid hpending ts regs =>
    have hrunning : s.running = some pid := hstop rfl (by simp)
    refine (h.requeue hrunning { tracks := ?_, pending := by simp } (by simp) ?_).append rfl
    · simp
    · simp [running_clearRunning_self hrunning]
  | @exit pid enter hpending ts ret data =>
    have hrunning : s.running = some pid := hstop rfl (by simp)
    refine (h.requeue hrunning { tracks := ?_, pending := by simp } (by simp) ?_).append rfl
    · simp
    · simp [running_clearRunning_self hrunning]
  | @spawn pid child sig event hspawn hvfork ts =>
    have hrunning : s.running = some pid := hstop rfl (by simp)
    refine (h.requeue hrunning { tracks := ?_, pending := by simp } (by simp) ?_).append rfl
    · simp
    · simp [running_clearRunning_self hrunning]
  | @vfork pid child sig ts =>
    have hrunning : s.running = some pid := hstop rfl (by simp)
    refine h.withhold hrunning ?_ ?_ ?_ ?_ (hadmissible.spawn child rfl)
      (hadmissible.exit child rfl) rfl rfl rfl
    · intro p
      exact Scheduler.tracks_congr (Scheduler.threads_clearRunning _ _)
    · exact Scheduler.ready_clearRunning _ _
    · exact running_clearRunning_self hrunning
    · simp
  | @event pid sig event hspawn =>
    have hrunning : s.running = some pid := hstop rfl (by simp)
    refine (h.requeue hrunning { tracks := ?_, pending := by simp } (by simp) ?_).append rfl
    · simp
    · exact running_clearRunning_self hrunning
  -- Only a new child is queued without having run.
  | @first pid sig hnew =>
    rcases hadmissible.stop pid rfl with hrunning | ⟨-, hfresh⟩
    · exact absurd (h.running pid hrunning).1 hnew
    · exact (h.enqueue hfresh hnew tracks_register rfl rfl rfl).append rfl
  | @stopped pid htracked =>
    have hrunning : s.running = some pid := by
      rcases hadmissible.stop pid rfl with hrunning | ⟨-, hfresh⟩
      · exact hrunning
      · exact absurd hfresh (hseen pid htracked)
    refine (h.requeue hrunning { tracks := ?_, pending := by simp } (by simp) ?_).append rfl
    · simp
    · exact running_clearRunning_self hrunning
  | @signal pid sig htracked hsig ts =>
    have hrunning : s.running = some pid := by
      rcases hadmissible.stop pid rfl with hrunning | ⟨-, hfresh⟩
      · exact hrunning
      · exact absurd hfresh (hseen pid htracked)
    refine (h.requeue hrunning { tracks := ?_, pending := by simp } (by simp) ?_).append rfl
    · simp
    · simp [running_clearRunning_self hrunning]
  | @exited _ pid code hgone hsilent =>
    have hremoved : InOrder past ((s.untracked pid).removed pid code) := by
      refine h.remove (fun _ => Scheduler.tracks_untracked) ?_ ?_ ?_
      · simp [Scheduler.removed, Scheduler.untracked]
      · exact Scheduler.running_clearRunning s pid
      · exact Scheduler.vforkPending_clearRunning s pid
    exact hremoved.release hgone
  | @exitRecorded _ pid code hgone htracked hmany ts =>
    have hremoved : InOrder past
        (((s.untracked pid).emit (threadExitEvent ts pid)).removed pid code) := by
      refine h.remove (fun _ => Scheduler.tracks_untracked) ?_ ?_ ?_
      · simp [Scheduler.removed, Scheduler.untracked]
      · exact Scheduler.running_clearRunning s pid
      · exact Scheduler.vforkPending_clearRunning s pid
    exact hremoved.release hgone
  | continued => exact h.append rfl
  | stillAlive => exact h.append rfl

end Steps

/-! ## Every recording -/

section Recordings

variable {ω : Type} {arch : Arch} [Ptrace arch ω] [Host ω]

/-- What the scheduler tracks was reported, or it is the leader. -/
theorem Recording.seen {leader : Pid} {past : List Report} {w : Hosted Scheduler ω}
    (h : Recording arch leader past w) : Seen leader past w.object := by
  induction h with
  | new hnew =>
    intro p hp hfresh
    rw [new_ok hnew, Scheduler.Tracks, Scheduler.ofLeader, KeyMap.get_insert, if_neg] at hp
    · simp at hp
    · exact fun heq => hfresh.1 heq.symm
  | @turn past w w' report hw hturn ih =>
    intro p hp hfresh
    cases report with
    | none =>
      refine ih p (hturn.starts.tracks_iff.mp hp) ⟨hfresh.1, fun r hr => hfresh.2 r ?_⟩
      exact List.mem_append_left _ hr
    | some r =>
      obtain ⟨hstart, hhandled⟩ := hturn.steps
      rcases hhandled.tracks hp with hp | habout
      · refine ih p (hstart.tracks_iff.mp hp) ⟨hfresh.1, fun r hr => hfresh.2 r ?_⟩
        exact List.mem_append_left _ hr
      · exact hfresh.2 r (by simp) habout

/-- By the reports: resuming and handling each keep the order. -/
theorem Recording.inOrder {leader : Pid} {past : List Report} {w : Hosted Scheduler ω}
    (h : Recording arch leader past w) (hregular : Regular leader past) :
    InOrder past w.object := by
  induction h with
  | new hnew =>
    rw [new_ok hnew]
    refine { toQueued := ofLeader_queued _, toWithheld := ofLeader_withheld _, known := ?_ }
    intro child p hp
    rw [Scheduler.ofLeader, KeyMap.get_empty] at hp
    cases hp
  | @turn past w w' report hw hturn ih =>
    cases report with
    | none =>
      rw [Option.toList_none, List.append_nil] at hregular ⊢
      exact hturn.starts.inOrder (ih hregular)
    | some r =>
      obtain ⟨hbefore, hadmissible⟩ := List.each_snoc.mp hregular
      obtain ⟨hstart, hhandled⟩ := hturn.steps
      refine hhandled.inOrder (hstart.inOrder (ih hbefore)) ?_ hadmissible
      exact fun p hp => hw.seen p (hstart.tracks_iff.mp hp)

/-- After every turn of every recording in which stops are reported of the running thread
or as the first stop of a new child, and no child exits before it is named, every tracked thread
is in exactly one place. -/
theorem recording_queued {leader : Pid} {past : List Report} {w : Hosted Scheduler ω}
    (h : Recording arch leader past w) (hregular : Regular leader past) : Queued past w.object :=
  (h.inOrder hregular).toQueued

end Recordings

/-! ## A host that plays a tape -/

/-- A host whose waits answer in order, whose spawn events name children in order, and whose
every register file is the same. -/
structure Tape (arch : Arch) where
  waits : List (Except Errno WaitStatus)
  children : List Pid
  regs : FullRegs arch

instance (arch : Arch) : Ptrace arch (Tape arch) where
  spawnTraced _ t := (.ok 1, t)
  syscall _ _ t := (.ok (), t)
  step _ t := (.ok (), t)
  kill _ t := (.ok (), t)
  waitpid _ _ t :=
    match t.waits with
    | [] => (.error Errno.ECHILD, t)
    | answer :: waits => (answer, { t with waits })
  setoptions _ _ t := (.ok (), t)
  getevent _ t :=
    match t.children with
    | [] => (.error Errno.ESRCH, t)
    | child :: children => (.ok child, { t with children })
  getregs _ t := (.ok t.regs, t)
  setregs _ _ t := (.ok (), t)
  setSyscallNr _ _ t := (.ok (), t)
  processVmReadv _ _ _ t := (.error Errno.EFAULT, t)
  processVmWritev _ _ _ t := (.error Errno.EFAULT, t)
  pokeUser _ _ _ t := (.ok (), t)
  setHwWatch _ _ _ t := (.ok (), t)
  getsiginfo _ t := (.error Errno.ESRCH, t)

instance (arch : Arch) : Host (Tape arch) where
  kill _ _ t := (.ok (), t)
  schedSetaffinity _ _ t := (.ok (), t)
  timerCreate t := (.ok (), t)
  setInterval _ t := (.ok (), t)
  elapsed t := (0, t)
  append _ t := (.ok (), t)

/-- A register file with zeros in it. -/
def zeroRegs : FullRegs .x86_64 :=
  ({ rax := 0, origRax := 0, rdi := 0, rsi := 0, rdx := 0, r10 := 0, r8 := 0, r9 := 0, rip := 0,
     others := [] } : X86Regs)

/-- The leader `vfork`s and its child stops for the first time: the child is queued and the
leader withheld. When the child exits, the leader is queued again. -/
theorem recording_queued_vfork :
    ∃ (past : List Report) (r : Report) (w w' : Hosted Scheduler (Tape .x86_64)),
      (Recording .x86_64 1 past w ∧ Regular 1 past ∧ w.object.ready = [2] ∧
        w.object.vforkPending[(2 : Pid)]? = some 1 ∧ Queued past w.object) ∧
      (Recording .x86_64 1 (past ++ [r]) w' ∧ Regular 1 (past ++ [r]) ∧ Departed (past ++ [r]) 2 ∧
        w'.object.ready = [1] ∧ Queued (past ++ [r]) w'.object) := by
  let tape : Tape .x86_64 :=
    { waits := [.ok (.ptraceEvent 1 .trap EventCode.vfork), .ok (.stopped 2 .stop),
        .ok (.exited 2 0)]
      children := [2]
      regs := zeroRegs }
  obtain ⟨w₀, w₁, w₂, w₃, r₁, r₂, r₃, hnew, hfirst, hsecond, hthird, hstate₁, hr₁, hr₂, hr₃,
      hready, hpending, hready'⟩ :
      ∃ (w₀ w₁ w₂ w₃ : Hosted Scheduler (Tape .x86_64)) (r₁ r₂ r₃ : Report),
        exec (new 1) ⟨.ofLeader 1, tape⟩ = some (.ok (), w₀) ∧
        Turn .x86_64 w₀ (some r₁) w₁ ∧ Turn .x86_64 w₁ (some r₂) w₂ ∧
        Turn .x86_64 w₂ (some r₃) w₃ ∧ r₁.state.running = some 1 ∧
        (r₁.status = .ptraceEvent 1 .trap EventCode.vfork ∧ r₁.child = some 2) ∧
        (r₂.status = .stopped 2 .stop ∧ r₂.child = none) ∧
        (r₃.status = .exited 2 0 ∧ r₃.child = none) ∧
        w₂.object.ready = [2] ∧ w₂.object.vforkPending[(2 : Pid)]? = some 1 ∧
        w₃.object.ready = [1] :=
    ⟨_, _, _, _, _, _, _, rfl, .reported rfl rfl rfl rfl rfl, .reported rfl rfl rfl rfl rfl,
      .reported rfl rfl rfl rfl rfl, rfl, ⟨rfl, rfl⟩, ⟨rfl, rfl⟩, ⟨rfl, rfl⟩, rfl, rfl, rfl⟩
  have htwo : Recording .x86_64 1 ([] ++ [r₁] ++ [r₂]) w₂ :=
    .turn (.turn (.new hnew) hfirst) hsecond
  have hthree : Recording .x86_64 1 ([] ++ [r₁] ++ [r₂] ++ [r₃]) w₃ := .turn htwo hthird
  have hregular : Regular 1 ([] ++ [r₁] ++ [r₂]) := by
    refine List.each_snoc.mpr ⟨List.each_snoc.mpr ⟨List.each_nil, ?_⟩, ?_⟩
    · refine { stop := ?_, spawn := by simp, exit := by simp [Departed] }
      intro pid hpid
      rw [hr₁.1] at hpid
      rcases Option.some.inj hpid with rfl
      exact .inl hstate₁
    · refine { stop := ?_, spawn := by simp [hr₂.2], exit := by simp [hr₂.2] }
      intro pid hpid
      rw [hr₂.1] at hpid
      rcases Option.some.inj hpid with rfl
      refine .inr ⟨⟨.stop, hr₂.1⟩, by decide, ?_⟩
      intro r hr
      rw [List.nil_append, List.mem_singleton] at hr
      rw [hr, hr₁.1]
      decide
  have hregular' : Regular 1 ([] ++ [r₁] ++ [r₂] ++ [r₃]) := by
    refine List.each_snoc.mpr ⟨hregular, ?_⟩
    -- an exit stops nobody
    refine { stop := ?_, spawn := by simp [hr₃.2], exit := by simp [hr₃.2] }
    intro pid hpid
    rw [hr₃.1] at hpid
    cases hpid
  have hdeparted : Departed ([] ++ [r₁] ++ [r₂] ++ [r₃]) 2 :=
    departed_snoc.mpr (.inr ⟨some 0, by rw [hr₃.1]; rfl⟩)
  exact ⟨_, r₃, w₂, w₃,
    ⟨htwo, hregular, hready, hpending, recording_queued htwo hregular⟩,
    hthree, hregular', hdeparted, hready', recording_queued hthree hregular'⟩

end Mirrorscope.Capture
