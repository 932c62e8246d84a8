import Mirrorscope.Capture.Lifetimes
import Mirrorscope.Replay.Directed

/-! # The schedule that is written

Replay takes the tid of the last switch as the thread that runs, and accepts a record only
of that thread. The recorder tags a record with the thread that reported it. The two agree
as long as nothing is recorded of a thread that was not scheduled last.
-/

namespace Mirrorscope.Capture

open Linux Run
open Trace (Event EventKind Record)

/-! ## The schedule of a log -/

/-- The thread a switch names. -/
def switchOf (e : Event) : Option UInt32 :=
  match e.kind with
  | .schedSwitch =>
    match SchedSwitch.decode e.payload with
    | .ok switch => some switch.tid
    | .error _ => none
  | _ => none

/-- The tid of the most recent switch, and the leader's before any. -/
def scheduled (leader : UInt32) (log : List Event) : UInt32 :=
  log.foldl (fun tid e => (switchOf e).getD tid) leader

/-- Every record that is not a switch is tagged with the thread that is scheduled. -/
def InSchedule (leader : UInt32) (log : List Event) : Prop :=
  log.Each fun before e => e.kind = .schedSwitch ∨ e.tid = some (scheduled leader before)

theorem scheduled_snoc {leader : UInt32} {log : List Event} {e : Event} :
    scheduled leader (log ++ [e]) = (switchOf e).getD (scheduled leader log) := by
  rw [scheduled, List.foldl_append]
  rfl

@[simp] theorem switchOf_switchEvent {ts : UInt64} {next : Pid} :
    switchOf (switchEvent ts next) = some (tidOf next) := by
  simp [switchOf, switchEvent, Event.newWithTid, SchedSwitch.decode_encode]

namespace Scheduler

variable (s : Scheduler) (pid : Pid)

@[simp] theorem lastScheduled_emit (e : Event) : (s.emit e).lastScheduled = s.lastScheduled := rfl

@[simp] theorem lastScheduled_removed (code : Option Int32) :
    (s.removed pid code).lastScheduled = s.lastScheduled := rfl

@[simp] theorem lastScheduled_clearRunning :
    (s.clearRunning pid).lastScheduled = s.lastScheduled := by
  unfold clearRunning
  split
  · rfl
  · rfl

@[simp] theorem lastScheduled_modifyThread (f : Thread → Thread) :
    (s.modifyThread pid f).lastScheduled = s.lastScheduled := by
  unfold modifyThread
  split
  · rfl
  · rfl

@[simp] theorem lastScheduled_requeue : (s.requeue pid).lastScheduled = s.lastScheduled := by
  unfold requeue
  split
  · rfl
  · rfl

@[simp] theorem lastScheduled_release : (s.release pid).lastScheduled = s.lastScheduled := by
  unfold release
  split
  · exact lastScheduled_requeue _ _
  · rfl

@[simp] theorem lastScheduled_untracked : (s.untracked pid).lastScheduled = s.lastScheduled :=
  lastScheduled_clearRunning s pid

@[simp] theorem lastScheduled_resumed (ts : UInt64) (ready : List Pid) :
    (s.resumed ts pid ready).lastScheduled = some pid := by
  refine (lastScheduled_modifyThread _ _ _).trans ?_
  unfold switched
  split
  · rename_i hlast
    exact hlast
  · rfl

end Scheduler

/-! ## What a report may be about -/

/-- A stop is that of the running thread, or the first stop of a new child, or an `execve`. The
last may come out of turn: when a thread other than the leader calls it, the kernel gives that
thread the pid of the leader before it reports the stop. Nothing is recorded of it. -/
def StopsInTurn (r : Report) : Prop :=
  ∀ p, stopOf r.status = some p → r.state.running = some p ∨
    (∃ sig, r.status = .stopped p sig) ∧ ¬ r.state.Tracks p ∨
    ∃ sig, r.status = .ptraceEvent p sig EventCode.exec

/-- An exit that is recorded is that of the thread that was scheduled last. -/
def ExitsInTurn (r : Report) : Prop :=
  ∀ p code, gone r.status = some (p, code) → r.state.Tracks p → r.state.threadsFollowed > 1 →
    r.state.lastScheduled = some p

/-! ## The tags of a scheduler -/

/-- The log is in schedule, and the thread scheduled by it is the one the scheduler knows as
scheduled last; no other runs. -/
structure Tagged (leader : Pid) (s : Scheduler) : Prop where
  inSchedule : InSchedule (tidOf leader) s.writer
  last : ∃ p, s.lastScheduled = some p ∧ scheduled (tidOf leader) s.writer = tidOf p
  running : ∀ p, s.running = some p → s.lastScheduled = some p

section Steps

variable {leader : Pid} {s s' : Scheduler} {r : Report}

theorem ofLeader_tagged (leader : Pid) : Tagged leader (.ofLeader leader) where
  inSchedule := List.each_nil
  last := ⟨leader, rfl, rfl⟩
  running p hp := by cases hp

theorem Starts.tagged (hstart : Starts s s') (h : Tagged leader s) : Tagged leader s' := by
  cases hstart with
  | running _ => exact h
  | idle _ _ => exact h
  | @resumed next ready hrunning hready ts =>
    refine { inSchedule := ?_, last := ⟨next, by simp, ?_⟩, running := ?_ }
    · rw [Scheduler.writer_resumed]
      split
      · exact h.inSchedule
      · exact List.each_snoc.mpr ⟨h.inSchedule, .inl rfl⟩
    · rw [Scheduler.writer_resumed]
      split
      · -- the thread ran last, so it is scheduled already
        rename_i hlast
        obtain ⟨p, hp, hscheduled⟩ := h.last
        rw [hscheduled, Option.some.inj (hp.symm.trans hlast)]
      · rw [scheduled_snoc]
        simp
    · intro p hp
      rw [Scheduler.lastScheduled_resumed]
      exact hp

/-- What a step records: nothing, or one event of the thread that stopped or that exits. -/
theorem Handled.records {status : WaitStatus} {child : Option Pid} (h : Handled s status child s') :
    s'.lastScheduled = s.lastScheduled ∧ (∀ p, s'.running = some p → s.running = some p) ∧
      (s'.writer = s.writer ∨ ∃ e p, s'.writer = s.writer ++ [e] ∧ switchOf e = none ∧
        e.tid = some (tidOf p) ∧
        (stopOf status = some p ∧ (∀ sig, status = .stopped p sig → s.Tracks p) ∧
            (∀ sig, status ≠ .ptraceEvent p sig EventCode.exec) ∨
          ∃ code, gone status = some (p, code) ∧ s.Tracks p ∧ s.threadsFollowed > 1)) := by
  have hclear {pid p : Pid} (hp : (s.clearRunning pid).running = some p) : s.running = some p := by
    rw [Scheduler.running_clearRunning] at hp
    split at hp
    · cases hp
    · exact hp
  -- By what was reported; no case gives the turn to another thread.
  cases h with
  | @enter pid hpending ts regs =>
    refine ⟨by simp, fun p hp => hclear (by simpa using hp),
      .inr ⟨enterEvent ts (tidOf pid) regs, pid, by simp, rfl, rfl, ?_⟩⟩
    exact .inl ⟨rfl, by simp, by simp⟩
  | @exit pid enter hpending ts ret data =>
    refine ⟨by simp, fun p hp => hclear (by simpa using hp),
      .inr ⟨syscallExitEvent ts pid enter ret data, pid, by simp, rfl, rfl, ?_⟩⟩
    exact .inl ⟨rfl, by simp, by simp⟩
  | @spawn pid child sig event hspawn hvfork ts =>
    refine ⟨by simp, fun p hp => hclear (by simpa using hp),
      .inr ⟨spawnEvent ts pid child, pid, by simp, rfl, rfl, ?_⟩⟩
    refine .inl ⟨rfl, by simp, ?_⟩
    -- an `execve` creates no thread
    rintro sig' heq
    rw [(WaitStatus.ptraceEvent.inj heq).2.2] at hspawn
    exact absurd hspawn (by decide)
  | @vfork pid child sig ts =>
    refine ⟨Scheduler.lastScheduled_clearRunning s pid, fun p hp => hclear hp,
      .inr ⟨spawnEvent ts pid child, pid, ?_, rfl, rfl,
        .inl ⟨rfl, by simp, by simp [EventCode.vfork, EventCode.exec]⟩⟩⟩
    exact congrArg (· ++ [spawnEvent ts pid child]) (Scheduler.writer_clearRunning s pid)
  | event => exact ⟨by simp, fun p hp => hclear (by simpa using hp), .inl (by simp)⟩
  | first => exact ⟨by simp, fun p hp => by simpa using hp, .inl (by simp)⟩
  | stopped => exact ⟨by simp, fun p hp => hclear (by simpa using hp), .inl (by simp)⟩
  | @signal pid sig htracked hsig ts =>
    refine ⟨by simp, fun p hp => hclear (by simpa using hp),
      .inr ⟨signalEvent ts pid sig, pid, by simp, rfl, rfl, ?_⟩⟩
    exact .inl ⟨rfl, fun _ _ => htracked, by simp⟩
  | exited hgone hsilent =>
    refine ⟨by simp, fun p hp => ?_, .inl (by simp)⟩
    simp only [Scheduler.running_release, Scheduler.running_removed] at hp
    exact (Scheduler.running_untracked.mp hp).2
  | @exitRecorded _ pid code hgone htracked hmany ts =>
    refine ⟨by simp, fun p hp => ?_, .inr ⟨threadExitEvent ts pid, pid, by simp, rfl, rfl, ?_⟩⟩
    · simp only [Scheduler.running_release, Scheduler.running_removed,
        Scheduler.running_emit] at hp
      exact (Scheduler.running_untracked.mp hp).2
    · exact .inr ⟨code, hgone, htracked, hmany⟩
  | continued => exact ⟨rfl, fun _ hp => hp, .inl rfl⟩
  | stillAlive => exact ⟨rfl, fun _ hp => hp, .inl rfl⟩

theorem Handled.tagged (hhandled : Handled r.state r.status r.child s')
    (h : Tagged leader r.state) (hstops : StopsInTurn r) (hexits : ExitsInTurn r) :
    Tagged leader s' := by
  -- A step moves no turn, so only the record it may have appended has to be looked at.
  obtain ⟨hlast, hrunning, hlog⟩ := hhandled.records
  obtain ⟨q, hq, hscheduled⟩ := h.last
  have hruns (p : Pid) (hp : s'.running = some p) : s'.lastScheduled = some p := by
    rw [hlast]
    exact h.running p (hrunning p hp)
  rcases hlog with hlog | ⟨e, p, hlog, hswitch, htag, hwhy⟩
  · rw [← hlog] at hscheduled
    refine { inSchedule := ?_, last := ⟨q, hlast.trans hq, hscheduled⟩, running := hruns }
    rw [hlog]
    exact h.inSchedule
  · -- the thread the record is of was scheduled last
    have hp : r.state.lastScheduled = some p := by
      rcases hwhy with ⟨hstop, htracked, hexec⟩ | ⟨code, hgone, htracked, hmany⟩
      · rcases hstops p hstop with hruns | ⟨⟨sig, hsig⟩, hnew⟩ | ⟨sig, hsig⟩
        · exact h.running p hruns
        · exact absurd (htracked sig hsig) hnew
        · exact absurd hsig (hexec sig)
      · exact hexits p code hgone htracked hmany
    rcases Option.some.inj (hq.symm.trans hp) with rfl
    refine { inSchedule := ?_, last := ⟨q, hlast.trans hq, ?_⟩, running := hruns }
    · rw [hlog]
      refine List.each_snoc.mpr ⟨h.inSchedule, .inr ?_⟩
      rw [htag, hscheduled]
    · rw [hlog, scheduled_snoc, hswitch]
      exact hscheduled

end Steps

/-! ## What replay accepts -/

section Accepts

variable {leader : UInt32} {records : List Record}

theorem lastSwitch_snoc (record : Record) : Replay.lastSwitch (records ++ [record]) =
    (Replay.switchedTo record).or (Replay.lastSwitch records) := by
  rw [Replay.lastSwitch, List.foldl_append]
  rfl

/-- No switch in a list means no switch in a part of it. -/
theorem lastSwitch_of_append {rest : List Record} (h : Replay.lastSwitch (records ++ rest) = none) :
    Replay.lastSwitch records = none := by
  induction rest using List.reverseRecOn with
  | nil =>
    rw [List.append_nil] at h
    exact h
  | append_singleton rest record ih =>
    rw [← List.append_assoc, lastSwitch_snoc, Option.or_eq_none_iff] at h
    exact ih h.2

theorem scheduled_eq_lastSwitch (records : List Record) :
    scheduled leader (records.map Record.event) = (Replay.lastSwitch records).getD leader := by
  induction records using List.reverseRecOn with
  | nil => rfl
  | append_singleton records record ih =>
    rw [List.map_append, List.map_singleton, scheduled_snoc, ih, lastSwitch_snoc]
    change (Replay.switchedTo record).getD _ = _
    cases Replay.switchedTo record with
    | none => rfl
    | some tid => rfl

/-- In a log that is in schedule, a record of a thread is tagged with the last switch. -/
theorem tag_of_inSchedule (h : InSchedule leader (records.map Record.event)) {n : Nat}
    {record : Record} (here : records[n]? = some record)
    (hconcrete : Replay.isConcrete record = true) :
    record.event.tid = some ((Replay.lastSwitch (records.take n)).getD leader) := by
  -- The log is split at the record, where `InSchedule` speaks of it.
  have hsplit : records.map Record.event = (records.take n).map Record.event ++
      record.event :: (records.drop (n + 1)).map Record.event := by
    rw [← List.map_cons, ← List.map_append]
    obtain ⟨hn, rfl⟩ := List.getElem?_eq_some_iff.mp here
    rw [← List.drop_eq_getElem_cons hn, List.take_append_drop]
  rcases h _ _ _ hsplit with hswitch | htid
  · rw [Replay.isConcrete, hswitch] at hconcrete
    cases hconcrete
  · rw [htid, scheduled_eq_lastSwitch]

/-- It is one of the thread replay directs to run. -/
theorem directed_of_inSchedule (h : InSchedule leader (records.map Record.event)) {cursor : Nat}
    {record : Record} (here : records[cursor]? = some record)
    (hconcrete : Replay.isConcrete record = true) :
    Replay.directed records cursor = record.event.tid := by
  rw [Replay.directed, tag_of_inSchedule h here hconcrete]
  cases hlast : Replay.lastSwitch (records.take cursor) with
  | some tid => rfl
  | none =>
    -- no switch was passed, so the first record of a thread is the leader's too
    obtain ⟨first, hfirst⟩ : ∃ first, records.find? Replay.isConcrete = some first := by
      refine Option.isSome_iff_exists.mp (List.find?_isSome.mpr ⟨record, ?_, hconcrete⟩)
      exact List.mem_of_getElem? here
    obtain ⟨hfirst', n, hn, hget, hbefore⟩ := List.find?_eq_some_iff_getElem.mp hfirst
    have hle : n ≤ cursor := by
      by_contra hlt
      have hrecord := hbefore cursor (by omega)
      rw [(List.getElem?_eq_some_iff.mp here).2, hconcrete] at hrecord
      cases hrecord
    have hnone : Replay.lastSwitch (records.take n) = none := by
      rw [← List.take_append_drop n (records.take cursor), List.take_take,
        Nat.min_eq_left hle] at hlast
      exact lastSwitch_of_append hlast
    rw [hfirst, Option.none_or, Option.bind_some,
      tag_of_inSchedule h (List.getElem?_eq_some_iff.mpr ⟨hn, hget⟩) hfirst', hnone]

/-- So the driver accepts its tag. -/
theorem enforceTid_accepts {ω : Type} {w : Replay.World ω} {record : Record}
    (h : InSchedule leader (w.session.records.map Record.event)) (hdriven : Replay.Driven w.session)
    (here : w.session.records[w.session.cursor]? = some record)
    (hconcrete : Replay.isConcrete record = true) :
    ∃ tid w', exec (Replay.Mt.enforceTid record : Replay.Method ω UInt32) w =
      some (.ok tid, w') := by
  have htid := tag_of_inSchedule h here hconcrete
  have hdirected := directed_of_inSchedule h here hconcrete
  have hstate : ∀ u : Replay.World ω, u = w → ∃ mt, u.session.mt = some mt := by
    rintro u rfl
    exact hdriven.state
  set tid := (Replay.lastSwitch (w.session.records.take w.session.cursor)).getD leader
  suffices hreturns : Returns (fun u => u = w)
      (Replay.Mt.enforceTid record : Replay.Method ω UInt32) fun _ _ => True by
    obtain ⟨answer, w', hexec, -⟩ := hreturns w rfl
    exact ⟨answer, w', hexec⟩
  unfold Replay.Mt.enforceTid
  rw [htid]
  refine Returns.bind (Replay.state_returns hstate) fun mt => ?_
  cases hexpected : mt.expectedTid with
  | none =>
    refine Returns.bind (Q := fun _ _ => True) ?_ fun _ => Returns.pure fun _ _ => trivial
    exact Replay.modifyState_returns (fun u hu => hstate u hu.2) fun _ _ _ _ => trivial
  | some expected =>
    refine Returns.mono (P := fun _ => expected = tid ∧ True) (Q := fun _ _ => True) ?_ ?_
      fun _ _ _ => trivial
    · refine Returns.assume fun heq => ?_
      simp only [if_pos heq]
      exact Returns.pure fun _ _ => trivial
    · -- the driver expects the directed thread
      rintro u ⟨hmt, rfl⟩
      have hexpects := hdriven.expects mt hmt
      rw [hexpected] at hexpects
      refine ⟨Option.some.inj ?_, trivial⟩
      rw [← htid, ← hdirected]
      exact hexpects.symm

end Accepts

/-! ## Every recording -/

section Recordings

variable {ω : Type} {arch : Arch} [Ptrace arch ω] [Host ω] {leader : Pid} {past : List Report}
  {w : Hosted Scheduler ω}

theorem Recording.tagged (h : Recording arch leader past w) (hstops : ∀ r ∈ past, StopsInTurn r)
    (hexits : ∀ r ∈ past, ExitsInTurn r) : Tagged leader w.object := by
  -- Over the turns of the recording; a turn starts a thread and handles one report.
  induction h with
  | new hnew =>
    rw [new_ok hnew]
    exact ofLeader_tagged leader
  | @turn past w w' report hw hturn ih =>
    have hbefore := ih (fun r hr => hstops r (List.mem_append_left _ hr))
      fun r hr => hexits r (List.mem_append_left _ hr)
    cases report with
    | none => exact hturn.starts.tagged hbefore
    | some r =>
      obtain ⟨hstart, hhandled⟩ := hturn.steps
      have hr : r ∈ past ++ (some r).toList := by simp
      exact hhandled.tagged (hstart.tagged hbefore) (hstops r hr) (hexits r hr)

/-- If every exit that is recorded is that of the thread scheduled last, every record of every
recording is tagged with the tid of the switch before it, after every turn and after the last
one; so replay accepts the tag of every record. -/
theorem recording_inSchedule (h : Recording arch leader past w)
    (hstops : ∀ r ∈ past, StopsInTurn r) (hexits : ∀ r ∈ past, ExitsInTurn r) :
    InSchedule (tidOf leader) w.object.writer ∧
      (∀ r w', Leaves (turn arch) w r w' → InSchedule (tidOf leader) w'.object.writer) ∧
      ∀ {δ : Type} (u : Replay.World δ) (record : Record),
        u.session.records.map Record.event = w.object.writer → Replay.Driven u.session →
        u.session.records[u.session.cursor]? = some record → Replay.isConcrete record = true →
        ∃ tid u', exec (Replay.Mt.enforceTid record : Replay.Method δ UInt32) u =
          some (.ok tid, u') := by
  have hw := h.tagged hstops hexits
  refine ⟨hw.inSchedule, ?_, ?_⟩
  · intro r w' hleaves
    rcases chosen_of_leaves hleaves with hlog | ⟨s', hstarts, hlog⟩
    · rw [hlog]
      exact hw.inSchedule
    · rw [hlog]
      exact (hstarts.tagged hw).inSchedule
  · intro δ u record hlog hdriven here hconcrete
    have hrecords : InSchedule (tidOf leader) (u.session.records.map Record.event) := by
      rw [hlog]
      exact hw.inSchedule
    exact enforceTid_accepts hrecords hdriven here hconcrete

end Recordings

/-! ## An exit out of turn -/

/-- The leader clones a child, which stops for the first time while the leader runs on; then
`last` is reported. -/
def exitTape (last : WaitStatus) : Tape .x86_64 where
  waits := [.ok (.ptraceEvent 1 .trap EventCode.clone), .ok (.stopped 2 .stop), .ok last]
  children := [2]
  regs := zeroRegs

theorem stopsInTurn_of_running {r : Report} {p : Pid} (hstop : stopOf r.status = some p)
    (hrunning : r.state.running = some p) : StopsInTurn r := by
  intro q hq
  rcases Option.some.inj (hstop.symm.trans hq) with rfl
  exact .inl hrunning

theorem stopsInTurn_of_new {r : Report} {p : Pid} {sig : Signal} (hstatus : r.status = .stopped p sig)
    (hnew : (r.state.threads[p]?).isSome = false) : StopsInTurn r := by
  intro q hq
  rw [hstatus] at hq
  rcases Option.some.inj hq with rfl
  refine .inr (.inl ⟨⟨sig, hstatus⟩, ?_⟩)
  rw [Scheduler.Tracks, hnew]
  exact Bool.false_ne_true

theorem exitsInTurn_of_stays {r : Report} (h : gone r.status = none) : ExitsInTurn r := by
  intro p code hgone
  rw [h] at hgone
  cases hgone

/-- The leader exits while it runs. -/
theorem recording_inSchedule_exit :
    ∃ (past : List Report) (w : Hosted Scheduler (Tape .x86_64)), Recording .x86_64 1 past w ∧
      (∀ r ∈ past, StopsInTurn r) ∧ (∀ r ∈ past, ExitsInTurn r) ∧
      w.object.writer = [spawnEvent 0 1 2, threadExitEvent 0 1] ∧
      InSchedule (tidOf 1) w.object.writer := by
  obtain ⟨w₀, w₁, w₂, w₃, r₁, r₂, r₃, hnew, hfirst, hsecond, hthird, hr₁, hr₂, hr₃, hstate₁,
      hstate₂, hstate₃, hlog⟩ :
      ∃ (w₀ w₁ w₂ w₃ : Hosted Scheduler (Tape .x86_64)) (r₁ r₂ r₃ : Report),
        exec (new 1) ⟨.ofLeader 1, exitTape (.exited 1 0)⟩ = some (.ok (), w₀) ∧
        Turn .x86_64 w₀ (some r₁) w₁ ∧ Turn .x86_64 w₁ (some r₂) w₂ ∧
        Turn .x86_64 w₂ (some r₃) w₃ ∧ r₁.status = .ptraceEvent 1 .trap EventCode.clone ∧
        r₂.status = .stopped 2 .stop ∧ r₃.status = .exited 1 0 ∧ r₁.state.running = some 1 ∧
        (r₂.state.threads[(2 : Pid)]?).isSome = false ∧ r₃.state.lastScheduled = some 1 ∧
        w₃.object.writer = [spawnEvent 0 1 2, threadExitEvent 0 1] :=
    ⟨_, _, _, _, _, _, _, rfl, .reported rfl rfl rfl rfl rfl, .reported rfl rfl rfl rfl rfl,
      .reported rfl rfl rfl rfl rfl, rfl, rfl, rfl, rfl, rfl, rfl, rfl⟩
  have hrecording : Recording .x86_64 1 ([] ++ [r₁] ++ [r₂] ++ [r₃]) w₃ :=
    .turn (.turn (.turn (.new hnew) hfirst) hsecond) hthird
  have hstops : ∀ r ∈ [] ++ [r₁] ++ [r₂] ++ [r₃], StopsInTurn r := by
    intro r hr
    simp only [List.nil_append, List.cons_append, List.mem_cons, List.not_mem_nil, or_false] at hr
    rcases hr with rfl | rfl | rfl
    · exact stopsInTurn_of_running (by rw [hr₁]; rfl) hstate₁
    · exact stopsInTurn_of_new hr₂ hstate₂
    · intro p hp
      rw [hr₃] at hp
      cases hp
  have hexits : ∀ r ∈ [] ++ [r₁] ++ [r₂] ++ [r₃], ExitsInTurn r := by
    intro r hr
    simp only [List.nil_append, List.cons_append, List.mem_cons, List.not_mem_nil, or_false] at hr
    rcases hr with rfl | rfl | rfl
    · exact exitsInTurn_of_stays (by rw [hr₁]; rfl)
    · exact exitsInTurn_of_stays (by rw [hr₂]; rfl)
    · intro p code hgone _ _
      rw [hr₃] at hgone
      rw [← (Prod.mk.inj (Option.some.inj hgone)).1]
      exact hstate₃
  exact ⟨_, w₃, hrecording, hstops, hexits, hlog,
    (recording_inSchedule hrecording hstops hexits).1⟩

/-- The leader exits its whole group while it runs: the exit of the child, which is stopped in
the queue, is recorded though the leader was scheduled last. -/
theorem exit_out_of_turn :
    ∃ (past : List Report) (w : Hosted Scheduler (Tape .x86_64)), Recording .x86_64 1 past w ∧
      (∀ r ∈ past, StopsInTurn r) ∧
      past.map Report.status = [.ptraceEvent 1 .trap EventCode.clone, .stopped 2 .stop,
        .exited 2 0] ∧
      w.object.writer = [spawnEvent 0 1 2, threadExitEvent 0 2] ∧
      ¬ InSchedule (tidOf 1) w.object.writer := by
  obtain ⟨w₀, w₁, w₂, w₃, r₁, r₂, r₃, hnew, hfirst, hsecond, hthird, hr₁, hr₂, hr₃, hstate₁,
      hstate₂, hlog⟩ :
      ∃ (w₀ w₁ w₂ w₃ : Hosted Scheduler (Tape .x86_64)) (r₁ r₂ r₃ : Report),
        exec (new 1) ⟨.ofLeader 1, exitTape (.exited 2 0)⟩ = some (.ok (), w₀) ∧
        Turn .x86_64 w₀ (some r₁) w₁ ∧ Turn .x86_64 w₁ (some r₂) w₂ ∧
        Turn .x86_64 w₂ (some r₃) w₃ ∧ r₁.status = .ptraceEvent 1 .trap EventCode.clone ∧
        r₂.status = .stopped 2 .stop ∧ r₃.status = .exited 2 0 ∧ r₁.state.running = some 1 ∧
        (r₂.state.threads[(2 : Pid)]?).isSome = false ∧
        w₃.object.writer = [spawnEvent 0 1 2, threadExitEvent 0 2] :=
    ⟨_, _, _, _, _, _, _, rfl, .reported rfl rfl rfl rfl rfl, .reported rfl rfl rfl rfl rfl,
      .reported rfl rfl rfl rfl rfl, rfl, rfl, rfl, rfl, rfl, rfl⟩
  refine ⟨[] ++ [r₁] ++ [r₂] ++ [r₃], w₃, .turn (.turn (.turn (.new hnew) hfirst) hsecond) hthird,
    ?_, ?_, hlog, ?_⟩
  · intro r hr
    simp only [List.nil_append, List.cons_append, List.mem_cons, List.not_mem_nil, or_false] at hr
    rcases hr with rfl | rfl | rfl
    · exact stopsInTurn_of_running (by rw [hr₁]; rfl) hstate₁
    · exact stopsInTurn_of_new hr₂ hstate₂
    · intro p hp
      rw [hr₃] at hp
      cases hp
  · simp [hr₁, hr₂, hr₃]
  · intro hin
    rw [hlog] at hin
    rcases hin [spawnEvent 0 1 2] (threadExitEvent 0 2) [] rfl with hkind | htag
    · cases hkind
    · exact absurd htag (by decide)

end Mirrorscope.Capture
