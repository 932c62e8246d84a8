import Mirrorscope.Capture.Tags
import Mirrorscope.Replay.Frame
import Mirrorscope.Trace.RoundTrip

/-! # Which driver a recording is replayed by

Replay takes a trace for multi-threaded when it holds a record of a thread's life. The
scheduler seeds the thread that ran last with the leader and counts the threads it
followed, so that a recording in which no thread was created holds no such record: it
stays with the leader alone, and is replayed by the single-tracee loop.
-/

namespace Mirrorscope.Capture

open Linux Run
open Trace (Event EventKind)

/-! ## Observed creations -/

/-- The creation of a thread or process was reported. -/
def Report.IsSpawn (r : Report) : Prop :=
  ∃ pid sig event, r.status = .ptraceEvent pid sig event ∧ isSpawnEvent event = true

/-- Some creation was reported in the run. -/
def SpawnObserved (past : List Report) : Prop := ∃ r ∈ past, r.IsSpawn

/-- A thread that is not tracked stops only if its creation is reported in the run too,
before the stop or after it. -/
def ChildrenNamed (past : List Report) : Prop :=
  ∀ r ∈ past, ∀ pid sig, r.status = .stopped pid sig → ¬ r.state.Tracks pid →
    ∃ r' ∈ past, r'.IsSpawn ∧ r'.child = some pid

/-- The kinds a recording of one thread is made of. -/
def IsPlain (e : Event) : Prop :=
  e.kind = .syscallEnter ∨ e.kind = .syscallExit ∨ e.kind = .signal

/-! ## A leader alone -/

/-- The leader is the only thread there is or ever was. -/
structure Alone (leader : Pid) (s : Scheduler) : Prop where
  tracked : ∀ p, s.Tracks p → p = leader
  ready : ∀ p ∈ s.ready, p = leader
  last : s.lastScheduled = some leader
  followed : s.threadsFollowed = 1
  log : ∀ e ∈ s.writer, IsPlain e

section Steps

variable {leader pid : Pid} {s s' : Scheduler} {e : Event}

theorem ofLeader_alone (leader : Pid) : Alone leader (.ofLeader leader) where
  tracked p hp := by
    rw [Scheduler.Tracks, Scheduler.ofLeader, KeyMap.get_insert] at hp
    split at hp
    · rename_i h
      exact h.symm
    · simp at hp
  ready p hp := List.mem_singleton.mp hp
  last := rfl
  followed := rfl
  log e he := by cases he

/-- Choosing who runs records nothing: only the leader can be chosen, and it ran last. -/
theorem Starts.alone (hstart : Starts s s') (h : Alone leader s) : Alone leader s' := by
  cases hstart with
  | running _ => exact h
  | idle _ _ => exact h
  | @resumed next ready hrunning hready ts =>
    have hnext : next = leader := h.ready next (by rw [hready]; exact List.mem_cons_self)
    constructor
    · intro p hp
      exact h.tracked p (by simpa using hp)
    · intro p hp
      rw [Scheduler.ready_resumed] at hp
      exact h.ready p (by rw [hready]; exact List.mem_cons_of_mem _ hp)
    · rw [Scheduler.lastScheduled_resumed, hnext]
    · rw [Scheduler.threadsFollowed_resumed]
      exact h.followed
    · intro e he
      rw [Scheduler.writer_resumed, if_pos (by rw [h.last, hnext])] at he
      exact h.log e he

/-- A stop that records at most one plain event. -/
theorem Alone.stop (h : Alone leader s) (htracks : ∀ p, s'.Tracks p → s.Tracks p)
    (hready : ∀ p ∈ s'.ready, p ∈ s.ready ∨ s.Tracks p)
    (hlast : s'.lastScheduled = s.lastScheduled)
    (hfollowed : s'.threadsFollowed = s.threadsFollowed)
    (hlog : s'.writer = s.writer ∨ ∃ e, IsPlain e ∧ s'.writer = s.writer ++ [e]) :
    Alone leader s' where
  tracked p hp := h.tracked p (htracks p hp)
  ready p hp := (hready p hp).elim (h.ready p) (h.tracked p)
  last := hlast.trans h.last
  followed := hfollowed.trans h.followed
  log e he := by
    rcases hlog with hsame | ⟨e', hplain, hmore⟩
    · exact h.log e (hsame ▸ he)
    · rw [hmore] at he
      rcases List.mem_append.mp he with hold | hnew
      · exact h.log e hold
      · rw [List.mem_singleton.mp hnew]
        exact hplain

/-- Back in the queue comes a thread that is tracked. -/
theorem ready_of_requeue {p : Pid} (h : p ∈ (s.requeue pid).ready) :
    p ∈ s.ready ∨ s.Tracks p := by
  rcases Scheduler.mem_ready_requeue.mp h with hold | ⟨rfl, htracked⟩
  · exact .inl hold
  · exact .inr htracked

/-- As long as no creation and no unknown thread is reported, the leader stays alone. -/
theorem Handled.alone {status : WaitStatus} {child : Option Pid}
    (hhandled : Handled s status child s') (h : Alone leader s)
    (hspawn : ∀ pid sig event, status = .ptraceEvent pid sig event → isSpawnEvent event = false)
    (hknown : ∀ pid sig, status = .stopped pid sig → s.Tracks pid) : Alone leader s' := by
  cases hhandled with
  | @enter pid hpending ts regs =>
    refine h.stop (fun p hp => by simpa using hp) ?_ (by simp) (by simp)
      (.inr ⟨enterEvent ts (tidOf pid) regs, .inl rfl, by simp⟩)
    intro p hp
    simpa using ready_of_requeue hp
  | @exit pid enter hpending ts ret data =>
    refine h.stop (fun p hp => by simpa using hp) ?_ (by simp) (by simp)
      (.inr ⟨syscallExitEvent ts pid enter ret data, .inr (.inl rfl), by simp⟩)
    intro p hp
    simpa using ready_of_requeue hp
  | spawn hevent _ _ =>
    rw [hspawn _ _ _ rfl] at hevent
    cases hevent
  | vfork _ => exact absurd (hspawn _ _ _ rfl) (by decide)
  | event _ =>
    refine h.stop (fun p hp => by simpa using hp) ?_ (by simp) (by simp) (.inl (by simp))
    intro p hp
    simpa using ready_of_requeue hp
  | first hnew => exact absurd (hknown _ _ rfl) hnew
  | stopped _ =>
    refine h.stop (fun p hp => by simpa using hp) ?_ (by simp) (by simp) (.inl (by simp))
    intro p hp
    simpa using ready_of_requeue hp
  | @signal pid sig htracked hsig ts =>
    refine h.stop (fun p hp => by simpa using hp) ?_ (by simp) (by simp)
      (.inr ⟨signalEvent ts pid sig, .inr (.inr rfl), by simp⟩)
    intro p hp
    simpa using ready_of_requeue hp
  | @exited _ pid code hgone hsilent =>
    have hqueue : (s.untracked pid).ready = s.ready := Scheduler.ready_clearRunning s pid
    refine h.stop (fun p hp => (by simpa using hp : _ ∧ _).2) ?_ (by simp) (by simp)
      (.inl (by simp))
    intro p hp
    rcases Scheduler.mem_ready_release hp with hold | htracked
    · exact .inl (hqueue ▸ List.mem_of_mem_filter hold)
    · exact .inr (by simpa using htracked : _ ∧ _).2
  | exitRecorded hgone htracked hmany ts =>
    rw [h.followed] at hmany
    exact absurd hmany (by decide)
  | continued => exact h
  | stillAlive => exact h

/-- A reported creation is recorded. -/
theorem Handled.spawned {status : WaitStatus} {child : Option Pid}
    (hhandled : Handled s status child s')
    (hspawn : ∃ pid sig event, status = .ptraceEvent pid sig event ∧ isSpawnEvent event = true) :
    ∃ e ∈ s'.writer, e.kind = .threadSpawn := by
  obtain ⟨pid, sig, event, rfl, hevent⟩ := hspawn
  cases hhandled with
  | @spawn _ child _ _ _ _ ts => exact ⟨spawnEvent ts pid child, by simp, rfl⟩
  | @vfork _ child _ ts =>
    refine ⟨spawnEvent ts pid child, ?_, rfl⟩
    exact List.mem_append_right _ List.mem_cons_self
  | event hnone =>
    rw [hevent] at hnone
    cases hnone
  | exited hgone _ => cases hgone
  | exitRecorded hgone _ _ _ => cases hgone

/-- Records stay: a step of the scheduler only adds to its log. -/
theorem Starts.log_mono (h : Starts s s') {e : Event} (he : e ∈ s.writer) : e ∈ s'.writer := by
  cases h with
  | running _ => exact he
  | idle _ _ => exact he
  | resumed _ _ _ =>
    rw [Scheduler.writer_resumed]
    split
    · exact he
    · exact List.mem_append_left _ he

theorem Handled.log_mono {status : WaitStatus} {child : Option Pid} (h : Handled s status child s')
    {e : Event} (he : e ∈ s.writer) : e ∈ s'.writer := by
  rcases h.records.2.2 with hsame | ⟨e', p, hmore, -⟩
  · rw [hsame]
    exact he
  · rw [hmore]
    exact List.mem_append_left _ he

end Steps

/-! ## Every recording -/

section Recordings

variable {ω : Type} {arch : Arch} [Ptrace arch ω] [Host ω] {leader : Pid} {past : List Report}
  {w w' : Hosted Scheduler ω}

/-- Without a creation the leader is alone throughout. -/
theorem Recording.alone (h : Recording arch leader past w)
    (hspawn : ∀ r ∈ past, ¬ r.IsSpawn)
    (hknown : ∀ r ∈ past, ∀ pid sig, r.status = .stopped pid sig → r.state.Tracks pid) :
    Alone leader w.object := by
  induction h with
  | new hnew =>
    rw [new_ok hnew]
    exact ofLeader_alone leader
  | @turn past w w' report hw hturn ih =>
    cases report with
    | none =>
      rw [Option.toList_none, List.append_nil] at hspawn hknown
      exact hturn.starts.alone (ih hspawn hknown)
    | some r =>
      obtain ⟨hstart, hhandled⟩ := hturn.steps
      have hlast : r ∈ past ++ (some r).toList := List.mem_append_right _ List.mem_cons_self
      have hbefore := ih (fun r' hr' => hspawn r' (List.mem_append_left _ hr'))
        (fun r' hr' => hknown r' (List.mem_append_left _ hr'))
      refine hhandled.alone (hstart.alone hbefore) ?_ (hknown r hlast)
      intro pid sig event hstatus
      rw [← Bool.not_eq_true]
      exact fun hevent => hspawn r hlast ⟨pid, sig, event, hstatus, hevent⟩

/-- A creation that was reported is in the log. -/
theorem Recording.spawned (h : Recording arch leader past w) (hspawn : SpawnObserved past) :
    ∃ e ∈ w.object.writer, e.kind = .threadSpawn := by
  induction h with
  | new _ =>
    obtain ⟨r, hr, -⟩ := hspawn
    cases hr
  | @turn past w w' report hw hturn ih =>
    obtain ⟨r, hr, hevent⟩ := hspawn
    rcases List.mem_append.mp hr with hold | hnew
    · obtain ⟨e, he, hkind⟩ := ih ⟨r, hold, hevent⟩
      refine ⟨e, ?_, hkind⟩
      cases report with
      | none => exact hturn.starts.log_mono he
      | some r' => exact hturn.steps.2.log_mono (hturn.steps.1.log_mono he)
    · rw [Option.mem_toList] at hnew
      subst hnew
      exact hturn.steps.2.spawned hevent

/-- The log of a recording, or of one that ends here, holds only plain events without a
creation, and the record of one with it. -/
theorem Recording.routed (h : Recording arch leader past w) (hnamed : ChildrenNamed past)
    (hend : w' = w ∨ ∃ r, Leaves (Capture.turn arch) w r w') :
    (SpawnObserved past → ∃ e ∈ w'.object.writer, e.kind = .threadSpawn) ∧
      (¬ SpawnObserved past → ∀ e ∈ w'.object.writer, IsPlain e) := by
  have hchosen : Chosen w.object w'.object := by
    rcases hend with rfl | ⟨r, hleaves⟩
    · exact .inl rfl
    · exact chosen_of_leaves hleaves
  constructor
  · intro hspawn
    obtain ⟨e, he, hkind⟩ := h.spawned hspawn
    refine ⟨e, ?_, hkind⟩
    rcases hchosen with hlog | ⟨s', hstarts, hlog⟩
    · rw [hlog]
      exact he
    · rw [hlog]
      exact hstarts.log_mono he
  · intro hnone
    have hspawn : ∀ r ∈ past, ¬ r.IsSpawn := fun r hr hevent => hnone ⟨r, hr, hevent⟩
    have hknown : ∀ r ∈ past, ∀ pid sig, r.status = .stopped pid sig → r.state.Tracks pid := by
      intro r hr pid sig hstatus
      by_contra hnew
      obtain ⟨r', hr', hevent, -⟩ := hnamed r hr pid sig hstatus hnew
      exact hspawn r' hr' hevent
    have halone := h.alone hspawn hknown
    rcases hchosen with hlog | ⟨s', hstarts, hlog⟩
    · rw [hlog]
      exact halone.log
    · rw [hlog]
      exact (hstarts.alone halone).log

end Recordings

end Mirrorscope.Capture

namespace Mirrorscope.Replay

open Capture Linux Run
open Trace (Event EventKind Record storedRecords)

/-! ## The driver a trace is given to -/

/-- Whether a record tells of a thread's life. -/
def isLifecycle (kind : EventKind) : Bool :=
  match kind with
  | .schedSwitch | .threadSpawn | .threadExit => true
  | _ => false

theorem storedRecords_events (n : Nat) (events : List Event) :
    (storedRecords n events).map (·.event) = events.map Event.stored := by
  induction events generalizing n with
  | nil => rfl
  | cons event events ih => exact congrArg (event.stored :: ·) (ih (n + 1))

/-- What is read back of a log is multi-threaded just when a stored event tells of a
thread's life. -/
theorem traceIsMultithreaded_stored (log : List Event) :
    traceIsMultithreaded (storedRecords 0 log) = log.any fun e => isLifecycle e.stored.kind := by
  have hany : traceIsMultithreaded (storedRecords 0 log) =
      ((storedRecords 0 log).map (·.event)).any fun e => isLifecycle e.kind := by
    rw [List.any_map]
    rfl
  rw [hany, storedRecords_events, List.any_map]
  rfl

/-- A session knows what kind of trace it is on. -/
theorem Reachable.multithreaded {ω : Type} {arch : Arch} [Ptrace arch ω] [Unwind ω] {w : World ω}
    (h : Reachable arch w) : w.session.multithreaded = traceIsMultithreaded w.session.records := by
  induction h with
  | @launch cmdline records os w hlaunch =>
    have hfixed : Fixed fun s => s.multithreaded = traceIsMultithreaded s.records := by
      intro s s' _ hrecords hm hs
      rw [hm, hs, hrecords]
    have hkeeps : KeepsSession (fun s => s.multithreaded = traceIsMultithreaded s.records)
        (Replay.launch arch : Method ω Unit) := by
      refine Keeps.bind self_keeps fun s => ?_
      refine Keeps.bind (spawnStopped_keeps arch s.cmdline) fun pid => ?_
      exact hfixed.modifySelf fun _ => ⟨rfl, rfl, rfl⟩
    have hstart : On (fun s => s.multithreaded = traceIsMultithreaded s.records)
        (⟨ReplaySession.ofTrace cmdline records, os⟩ : World ω) := rfl
    exact hkeeps.ok hstart hlaunch
  | call hw c hcall ih =>
    obtain ⟨-, hrecords, hm⟩ := perform_fixed arch hcall
    rw [hm, ih, hrecords]

/-- On a trace of one thread a drive is the single-tracee loop. -/
theorem drive_single {ω : Type} {arch : Arch} [Ptrace arch ω] [Unwind ω] {v : World ω}
    (hsingle : v.session.multithreaded = false) (hrunning : v.session.finished = none)
    (stopAt : Option UInt64) :
    exec (drive arch stopAt) v = exec (Run.loop (driveRound arch stopAt)) v := by
  unfold drive
  rw [bind_ok (exec_self v), hrunning, hsingle]
  rfl

/-- A plain event is stored under its own kind. -/
theorem stored_plain {e : Event} (h : IsPlain e) : e.stored.kind = e.kind := by
  unfold Event.stored
  rcases h with h | h | h
  · rw [h]
    rfl
  · rw [h]
    rfl
  · rw [h]
    rfl

/-- The records read back of plain events. -/
theorem plain_of_stored {log : List Event} (h : ∀ e ∈ log, IsPlain e) :
    ∀ record ∈ storedRecords 0 log, IsPlain record.event := by
  intro record hrecord
  have hmem : record.event ∈ (storedRecords 0 log).map (·.event) := List.mem_map_of_mem hrecord
  rw [storedRecords_events] at hmem
  obtain ⟨e, he, hstored⟩ := List.mem_map.mp hmem
  have hplain := h e he
  rw [IsPlain, ← hstored, stored_plain hplain]
  exact hplain

theorem not_lifecycle_of_plain {e : Event} (h : IsPlain e) : isLifecycle e.stored.kind = false := by
  rw [stored_plain h]
  rcases h with h | h | h
  · rw [h]
    rfl
  · rw [h]
    rfl
  · rw [h]
    rfl

section Routed

variable {ω : Type} {arch : Arch} [Ptrace arch ω] [Host ω] {leader : Pid} {past : List Report}
  {w w' : Hosted Scheduler ω}

/-- After every turn of a recording and after its last one: its trace counts as
multi-threaded just when a creation was reported; without one it holds only syscalls and
signals, and every session on it is driven by the single-tracee loop. -/
theorem recording_routed (h : Recording arch leader past w) (hnamed : ChildrenNamed past)
    (hend : w' = w ∨ ∃ r, Leaves (turn arch) w r w') :
    (traceIsMultithreaded (storedRecords 0 w'.object.writer) = true ↔ SpawnObserved past) ∧
      (¬ SpawnObserved past →
        (∀ record ∈ storedRecords 0 w'.object.writer, record.event.kind = .syscallEnter ∨
          record.event.kind = .syscallExit ∨ record.event.kind = .signal) ∧
        ∀ (ω' : Type) (_ : Ptrace arch ω') (_ : Unwind ω') (v : World ω') (stopAt : Option UInt64),
          Reachable arch v → v.session.records = storedRecords 0 w'.object.writer →
          v.session.finished = none →
          exec (drive arch stopAt) v = exec (Run.loop (driveRound arch stopAt)) v) := by
  obtain ⟨hspawned, hplain⟩ := h.routed hnamed hend
  have hsingle (hnone : ¬ SpawnObserved past) :
      traceIsMultithreaded (storedRecords 0 w'.object.writer) = false := by
    rw [traceIsMultithreaded_stored, List.any_eq_false]
    intro e he
    rw [not_lifecycle_of_plain (hplain hnone e he)]
    exact Bool.false_ne_true
  refine ⟨⟨?_, ?_⟩, ?_⟩
  · intro hmulti
    by_contra hnone
    rw [hsingle hnone] at hmulti
    cases hmulti
  · intro hspawn
    obtain ⟨e, he, hkind⟩ := hspawned hspawn
    rw [traceIsMultithreaded_stored, List.any_eq_true]
    refine ⟨e, he, ?_⟩
    rw [Event.stored, hkind]
    rfl
  · intro hnone
    refine ⟨plain_of_stored (hplain hnone), ?_⟩
    intro ω' _ _ v stopAt hreachable hrecords hrunning
    refine drive_single ?_ hrunning stopAt
    rw [hreachable.multithreaded, hrecords, hsingle hnone]

end Routed

/-- A child stops for the first time and is then named by its parent. -/
theorem recording_routed_clone :
    ∃ (past : List Report) (w : Hosted Scheduler (Tape .x86_64)), Recording .x86_64 1 past w ∧
      ChildrenNamed past ∧ past.length = 2 ∧
      traceIsMultithreaded (storedRecords 0 w.object.writer) = true := by
  obtain ⟨w₀, w₁, w₂, r₁, r₂, hnew, hfirst, hsecond, hr₁, hr₂⟩ :
      ∃ (w₀ w₁ w₂ : Hosted Scheduler (Tape .x86_64)) (r₁ r₂ : Report),
        exec (new 1) ⟨.ofLeader 1, cloneTape (.ptraceEvent 1 .trap EventCode.clone)
          (.exited 2 0)⟩ = some (.ok (), w₀) ∧
        Turn .x86_64 w₀ (some r₁) w₁ ∧ Turn .x86_64 w₁ (some r₂) w₂ ∧
        r₁.status = .stopped 2 .stop ∧
        (r₂.status = .ptraceEvent 1 .trap EventCode.clone ∧ r₂.child = some 2) :=
    ⟨_, _, _, _, _, rfl, .reported rfl rfl rfl rfl rfl, .reported rfl rfl rfl rfl rfl, rfl,
      ⟨rfl, rfl⟩⟩
  have hrecording : Recording .x86_64 1 ([] ++ [r₁] ++ [r₂]) w₂ :=
    .turn (.turn (.new hnew) hfirst) hsecond
  have hspawn : r₂.IsSpawn := ⟨1, .trap, EventCode.clone, hr₂.1, by decide⟩
  have hlast : r₂ ∈ [] ++ [r₁] ++ [r₂] := List.mem_append_right _ List.mem_cons_self
  have hnamed : ChildrenNamed ([] ++ [r₁] ++ [r₂]) := by
    intro r hr pid sig hstatus _
    rw [List.nil_append, List.mem_append, List.mem_singleton, List.mem_singleton] at hr
    rcases hr with rfl | rfl
    · rw [hr₁] at hstatus
      cases hstatus
      exact ⟨r₂, hlast, hspawn, hr₂.2⟩
    · rw [hr₂.1] at hstatus
      cases hstatus
  exact ⟨_, w₂, hrecording, hnamed, rfl,
    (recording_routed hrecording hnamed (.inl rfl)).1.mpr ⟨r₂, hlast, hspawn⟩⟩

end Mirrorscope.Replay
