import Mirrorscope.Replay.Frame

/-! # After a divergence

A call that reports a divergence leaves the session where the check failed. What
a later call then does depends on the driver: the single-tracee driver has moved
past the record, and the multi-threaded one tries the same record again. The
invariant here says what a multi-threaded session knows before its first record
is consumed; from it follows exactly when a divergence is final.

The invariant is stated for every place of a call:
* `Settled`: between two calls. `Driving`: between two rounds of the multi-threaded driver.
* `AtRecord`, `AtThread`: in a handler, with its record at the cursor, and then with its thread
  found.
* `Fresh`: what is known of the thread table before the first record was consumed.
* `Handles`: a handler consumes its record, or it fails and the record is still at the cursor.
-/

namespace Mirrorscope.Replay

open Capture Linux Run
open Trace (EventKind Record)

/-! ## Before the first record -/

/-- The first record that is not a checkpoint. -/
def firstRecord (records : List Record) : Option Record :=
  records.find? fun r => r.event.kind ≠ .checkpoint

/-- Its tid. -/
def firstTid (records : List Record) : Option UInt32 :=
  (firstRecord records).bind fun r => r.event.tid

/-- Thread state that no record has been consumed into: the expected tid can only
be that of the first record, the leader is bound to it or nothing is bound, and
no syscall is in flight. -/
structure Fresh (first : Option UInt32) (mt : MtState) : Prop where
  expected : ∀ tid, mt.expectedTid = some tid → first = some tid
  leader : mt.tidmap.isEmpty = true ∨ ∃ tid, first = some tid ∧ (mt.tidmap.liveOf tid).isSome
  idle : ∀ (pid : Pid) (thread : ThreadRt), mt.threads[pid]? = some thread → thread.pending = none

/-- A multi-threaded session: it takes no snapshots, and while nothing is
consumed it has only passed checkpoint records. -/
structure Settled (s : ReplaySession) : Prop where
  noSnapshots : s.checkpoints = []
  skipped : s.currentSeq = none → ∀ r ∈ s.records.take s.cursor, r.event.kind = .checkpoint
  fresh : s.currentSeq = none → ∀ mt, s.mt = some mt → Fresh (firstTid s.records) mt

/-- A multi-threaded session whose driver has its thread state. -/
structure Seated (s : ReplaySession) : Prop where
  noSnapshots : s.checkpoints = []
  multithreaded : s.multithreaded = true
  unfinished : s.finished = none
  state : ∃ mt, s.mt = some mt

/-- The driver between two records. -/
structure Driving (s : ReplaySession) : Prop extends Settled s, Seated s

/-- The driver at a record that is not a checkpoint, the last consumed one being `cur`. -/
structure AtRecord (cur : Option UInt64) (record : Record) (s : ReplaySession) : Prop
    extends Driving s where
  current : s.currentSeq = cur
  here : s.records[s.cursor]? = some record
  kind : record.event.kind ≠ .checkpoint

/-- The driver at a record whose tid has a live thread. -/
structure AtThread (cur : Option UInt64) (record : Record) (tid : UInt32) (s : ReplaySession) :
    Prop extends AtRecord cur record s where
  tagged : record.event.tid = some tid
  bound : ∀ mt, s.mt = some mt → (mt.tidmap.liveOf tid).isSome

/-- What is kept of the drive does not depend on the other fields. -/
theorem Driving.congr {s s' : ReplaySession} (h : Driving s)
    (hcheckpoints : s'.checkpoints = s.checkpoints) (hseq : s'.currentSeq = s.currentSeq)
    (hrecords : s'.records = s.records) (hcursor : s'.cursor = s.cursor) (hmt : s'.mt = s.mt)
    (hmulti : s'.multithreaded = s.multithreaded) (hfinished : s'.finished = s.finished) :
    Driving s' where
  noSnapshots := by rw [hcheckpoints, h.noSnapshots]
  skipped := by rw [hseq, hrecords, hcursor]; exact h.skipped
  fresh := by rw [hseq, hmt, hrecords]; exact h.fresh
  multithreaded := by rw [hmulti, h.multithreaded]
  unfinished := by rw [hfinished, h.unfinished]
  state := by rw [hmt]; exact h.state

theorem AtThread.ignoresHits (cur : Option UInt64) (record : Record) (tid : UInt32) :
    IgnoresHits (AtThread cur record tid) where
  unwinder _ _ h :=
    { toDriving := h.toDriving.congr rfl rfl rfl rfl rfl rfl rfl
      current := h.current, here := h.here, kind := h.kind, tagged := h.tagged, bound := h.bound }
  hits _ _ _ h :=
    { toDriving := h.toDriving.congr rfl rfl rfl rfl rfl rfl rfl
      current := h.current, here := h.here, kind := h.kind, tagged := h.tagged, bound := h.bound }

/-- Reading the registers notes them. -/
theorem AtThread.withRegs {cur : Option UInt64} {record : Record} {tid : UInt32}
    {s : ReplaySession}
    (h : AtThread cur record tid s) (regs : Option Registers) :
    AtThread cur record tid { s with lastRegs := regs } where
  toDriving := h.toDriving.congr rfl rfl rfl rfl rfl rfl rfl
  current := h.current
  here := h.here
  kind := h.kind
  tagged := h.tagged
  bound := h.bound

/-- While nothing is consumed, the record at the cursor is the first one. -/
theorem AtRecord.first {cur : Option UInt64} {record : Record} {s : ReplaySession}
    (h : AtRecord cur record s) (hnone : s.currentSeq = none) :
    firstRecord s.records = some record := by
  have hlt : s.cursor < s.records.length := by
    by_contra hge
    have hrec := h.here
    rw [List.getElem?_eq_none (by omega)] at hrec
    cases hrec
  have hget : s.records[s.cursor] = record := by
    have hrec := h.here
    rw [List.getElem?_eq_getElem hlt] at hrec
    exact Option.some.inj hrec
  have hsplit : s.records =
      s.records.take s.cursor ++ record :: s.records.drop (s.cursor + 1) := by
    conv_lhs => rw [← List.take_append_drop s.cursor s.records, List.drop_eq_getElem_cons hlt]
    rw [hget]
  have hskip : (s.records.take s.cursor).find? (fun r => r.event.kind ≠ .checkpoint) = none := by
    rw [List.find?_eq_none]
    intro r hr
    simp [h.skipped hnone r hr]
  rw [firstRecord, hsplit, List.find?_append, hskip]
  simp [h.kind]

theorem AtRecord.firstTid {cur : Option UInt64} {record : Record} {s : ReplaySession}
    (h : AtRecord cur record s) (hnone : s.currentSeq = none) :
    firstTid s.records = record.event.tid := by
  rw [Replay.firstTid, h.first hnone]
  rfl

/-- Replacing the thread state by one that is as fresh keeps the driver at its record. -/
theorem AtRecord.withState {cur : Option UInt64} {record : Record} {s : ReplaySession}
    (h : AtRecord cur record s) {mt : MtState}
    (hfresh : s.currentSeq = none → Fresh record.event.tid mt) :
    AtRecord cur record { s with mt := some mt } where
  noSnapshots := h.noSnapshots
  skipped := h.skipped
  fresh hnone mt' hmt' := by
    rcases Option.some.inj hmt' with rfl
    have hf := hfresh hnone
    rwa [← h.firstTid hnone] at hf
  multithreaded := h.multithreaded
  unfinished := h.unfinished
  state := ⟨mt, rfl⟩
  current := h.current
  here := h.here
  kind := h.kind

/-- Before the first record was consumed the thread table is as it was made. -/
theorem AtRecord.freshState {cur : Option UInt64} {record : Record} {s : ReplaySession}
    {mt : MtState} (h : AtRecord cur record s) (hmt : s.mt = some mt)
    (hnone : s.currentSeq = none) :
    Fresh record.event.tid mt := by
  have hf := h.fresh hnone mt hmt
  rwa [h.firstTid hnone] at hf

/-! ## The driver keeps it -/

section Driver

variable {ω : Type} {P P' : ReplaySession → Prop} {E : ReplayError → World ω → Prop}

/-- The thread table of the session, which a handler finds there. -/
theorem state_spec :
    Spec (On P) (Mt.state : Method ω MtState)
      (fun mt w => P w.session ∧ w.session.mt = some mt) E := by
  apply Spec.bind self_spec
  intro s
  split
  · rename_i mt hmt
    apply Spec.pure
    rintro w ⟨hs, rfl⟩
    exact ⟨hs, hmt⟩
  · exact Spec.never

theorem modifyState_spec {f : MtState → MtState}
    (h : ∀ s mt, P s → s.mt = some mt → P' { s with mt := some (f mt) }) :
    Spec (On P) (Mt.modifyState f : Method ω Unit) (fun _ => On P') E := by
  apply Spec.bind state_spec
  intro mt
  apply Spec.update
  rintro w ⟨hs, hmt⟩
  exact h w.session mt hs hmt

/-- Changing one thread's bookkeeping without setting a syscall in flight. -/
theorem Fresh.modifyThread {first : Option UInt32} {mt : MtState} (h : Fresh first mt)
    (live : Pid) {f : ThreadRt → ThreadRt} (hf : ∀ t, t.pending = none → (f t).pending = none) :
    Fresh first (Mt.MtState.modifyThread mt live f) := by
  unfold Mt.MtState.modifyThread
  split
  · rename_i thread hthread
    refine { expected := h.expected, leader := h.leader, idle := ?_ }
    intro pid t ht
    rw [KeyMap.get_insert] at ht
    split at ht
    · rcases Option.some.inj ht with rfl
      exact hf thread (h.idle live thread hthread)
    · exact h.idle pid t ht
  · exact h

variable {cur : Option UInt64} {record : Record} {tid : UInt32}

/-- No pending call is made up for a thread. -/
theorem modifyThread_keeps (live : Pid) {f : ThreadRt → ThreadRt}
    (hf : ∀ t, t.pending = none → (f t).pending = none) :
    KeepsSession (AtThread cur record tid)
      (Mt.modifyState fun mt => Mt.MtState.modifyThread mt live f : Method ω Unit) := by
  apply modifyState_spec
  intro s mt hs hmt
  refine { toAtRecord := hs.withState ?_, tagged := hs.tagged, bound := ?_ }
  · intro hnone
    exact (hs.freshState hmt hnone).modifyThread live hf
  · intro mt' hmt'
    rcases Option.some.inj hmt' with rfl
    rw [tidmap_modifyThread]
    exact hs.bound mt hmt

theorem takeResumeSignal_keeps (live : Pid) :
    KeepsSession (AtThread cur record tid)
      (Mt.takeResumeSignal live : Method ω (Option Signal)) := by
  apply Spec.bind state_spec
  intro mt
  have hkeep : KeepsSession (AtThread cur record tid)
      (Mt.modifyState fun mt => Mt.MtState.modifyThread mt live fun t =>
        { t with resumeSignal := none } : Method ω Unit) :=
    modifyThread_keeps live fun t ht => ht
  exact Spec.bind (hkeep.mono (fun _ h => h.1) (fun _ _ h => h) (fun _ _ h => h)) fun _ =>
    Keeps.pure

/-- Taking the pending call leaves none. -/
theorem takePending_keeps (live : Pid) :
    KeepsSession (AtThread cur record tid)
      (Mt.takePending live : Method ω (Option PendingSys)) := by
  apply Spec.bind state_spec
  intro mt
  have hkeep : KeepsSession (AtThread cur record tid)
      (Mt.modifyState fun mt => Mt.MtState.modifyThread mt live fun t =>
        { t with pending := none } : Method ω Unit) :=
    modifyThread_keeps live fun t _ => rfl
  exact Spec.bind (hkeep.mono (fun _ h => h.1) (fun _ _ h => h) (fun _ _ h => h)) fun _ =>
    Keeps.pure

/-- The thread is the expected one; before any switch, whichever the record names. -/
theorem enforceTid_spec :
    Spec (On (AtRecord cur record)) (Mt.enforceTid record : Method ω UInt32)
      (fun tid w => AtRecord cur record w.session ∧ record.event.tid = some tid)
      (fun _ => On (AtRecord cur record)) := by
  unfold Mt.enforceTid
  split
  · exact Spec.fail fun _ h => h
  · rename_i tid htid
    apply Spec.bind state_spec
    intro mt
    split
    · rename_i hexpected
      -- adopting the record's own tid keeps the state fresh
      have hkeep : KeepsSession (AtRecord cur record)
          (Mt.modifyState fun mt => { mt with expectedTid := some tid } : Method ω Unit) := by
        apply modifyState_spec
        intro s mt' hs hmt'
        apply hs.withState
        intro hnone
        have hf := hs.freshState hmt' hnone
        refine { expected := ?_, leader := hf.leader, idle := hf.idle }
        intro t ht
        rcases Option.some.inj ht with rfl
        exact htid
      apply Spec.bind (hkeep.mono (fun _ h => h.1) (fun _ _ h => h) (fun _ _ h => h))
      intro _
      exact Spec.pure fun w hw => ⟨hw, htid⟩
    · split
      · exact Spec.pure fun w hw => ⟨hw.1, htid⟩
      · exact Spec.fail fun w hw => hw.1

/-- The thread is in the table, or the table is empty and it is the leader. -/
theorem liveFor_spec (seq : UInt64) :
    Spec (fun w => AtRecord cur record w.session ∧ record.event.tid = some tid)
      (Mt.liveFor tid seq : Method ω Pid)
      (fun _ => On (AtThread cur record tid)) (fun _ => On (AtRecord cur record)) := by
  apply Spec.bind (Q := fun mt w => (AtRecord cur record w.session ∧ record.event.tid = some tid) ∧
    w.session.mt = some mt)
  · exact state_spec (P := fun s => AtRecord cur record s ∧ record.event.tid = some tid)
  intro mt
  split
  · rename_i live hlive
    apply Spec.pure
    rintro w ⟨⟨hs, htid⟩, hmt⟩
    refine { toAtRecord := hs, tagged := htid, bound := ?_ }
    intro mt' hmt'
    rw [hmt] at hmt'
    rcases Option.some.inj hmt' with rfl
    rw [hlive]
    rfl
  · split
    -- The first thread of all is bound to the leader here.
    · apply Spec.bind (orFail_spec fun _ w hw => hw.1.1)
      intro tidmap
      apply Spec.bind (Q := fun _ => On (AtThread cur record tid))
      · apply Spec.bind (Q := fun mt' w => (mt.tidmap.bind tid mt.leader = .ok tidmap ∧
          AtRecord cur record w.session ∧ record.event.tid = some tid) ∧ w.session.mt = some mt')
        · have hstate : Spec (On fun s => mt.tidmap.bind tid mt.leader = .ok tidmap ∧
              AtRecord cur record s ∧ record.event.tid = some tid) (Mt.state : Method ω MtState) _
              (fun _ => On (AtRecord cur record)) := state_spec
          exact hstate.mono (fun w hw => ⟨hw.1, hw.2.1⟩) (fun _ _ h => h) (fun _ _ h => h)
        intro mt'
        apply Spec.update
        rintro w ⟨⟨hbind, hs, htid⟩, hmt'⟩
        have hbound : (tidmap.liveOf tid).isSome := by
          rw [(TidMap.bind_ok hbind).2, if_pos rfl]
          rfl
        refine { toAtRecord := hs.withState ?_, tagged := htid, bound := ?_ }
        · intro hnone
          have hf := hs.freshState hmt' hnone
          exact { expected := hf.expected, leader := .inr ⟨tid, htid, hbound⟩, idle := hf.idle }
        · intro mt'' hmt''
          rcases Option.some.inj hmt'' with rfl
          exact hbound
      · intro _
        exact Keeps.pure.mono (fun _ h => h) (fun _ _ h => h) (fun _ _ h => h.toAtRecord)
    · exact Spec.fail fun w hw => hw.1.1

/-- A part that keeps the driver at its thread also keeps it at its record. -/
theorem atThread_spec {α : Type} {m : Method ω α} (h : KeepsSession (AtThread cur record tid) m) :
    Spec (On (AtThread cur record tid)) m (fun _ => On (AtThread cur record tid))
      (fun _ => On (AtRecord cur record)) :=
  h.mono (fun _ hs => hs) (fun _ _ hs => hs) (fun _ _ hs => hs.toAtRecord)

/-- Consuming a record ends what was known before the first one. -/
theorem advance_spec (seq : UInt64) :
    Spec (On Seated) (Mt.advance seq : Method ω Unit) (fun _ => On Driving) E := by
  apply modifySelf_spec
  intro s hs
  exact
    { noSnapshots := hs.noSnapshots
      skipped := fun hnone => (by cases hnone)
      fresh := fun hnone => (by cases hnone)
      multithreaded := hs.multithreaded
      unfinished := hs.unfinished
      state := hs.state }

theorem modifyState_seated {f : MtState → MtState} :
    Spec (On Seated) (Mt.modifyState f : Method ω Unit) (fun _ => On Seated) E := by
  apply modifyState_spec
  intro s mt hs _
  exact { noSnapshots := hs.noSnapshots, multithreaded := hs.multithreaded,
          unfinished := hs.unfinished, state := ⟨_, rfl⟩ }

/-- A handler of a record: it consumes the record, or fails where it stands. -/
def Handles (cur : Option UInt64) (record : Record) {α : Type} (m : Method ω α) : Prop :=
  Spec (On (AtRecord cur record)) m (fun _ => On Driving) (fun _ => On (AtRecord cur record))

/-- Consuming the record of a thread. -/
theorem advance_handles (seq : UInt64) :
    Spec (On (AtThread cur record tid)) (Mt.advance seq : Method ω Unit) (fun _ => On Driving)
      (fun _ => On (AtRecord cur record)) :=
  (advance_spec seq).mono (fun _ h => h.toSeated) (fun _ _ h => h) (fun _ _ h => h)

/-- Every handler of a thread's record starts by checking the tid and finding the
live thread. -/
theorem handles_of_atThread {α : Type} {seq : UInt64} {f : UInt32 → Pid → Method ω α}
    (h : ∀ tid live, Spec (On (AtThread cur record tid)) (f tid live) (fun _ => On Driving)
      (fun _ => On (AtRecord cur record))) :
    Handles cur record (do
      let tid ← Mt.enforceTid record
      let live ← Mt.liveFor tid seq
      f tid live) := by
  apply Spec.bind enforceTid_spec
  intro tid
  apply Spec.bind (liveFor_spec seq)
  intro live
  exact h tid live

theorem onSchedSwitch_handles : Handles cur record (Mt.onSchedSwitch record : Method ω Unit) := by
  apply Spec.bind orFail_keeps
  intro switch
  apply Spec.bind (Q := fun _ => On Seated)
  · exact (modifyState_seated).mono (fun _ h => h.toSeated) (fun _ _ h => h) (fun _ _ h => h)
  · intro _
    exact advance_spec record.seq

variable (arch : Arch) [Ptrace arch ω] [Unwind ω]

/-- The record is consumed when the number of the call has matched. -/
theorem onSyscallEnter_handles :
    Handles cur record (Mt.onSyscallEnter arch record : Method ω Unit) := by
  apply handles_of_atThread
  intro tid live
  apply Spec.bind (atThread_spec (takeResumeSignal_keeps live))
  intro sig
  apply Spec.bind
    (atThread_spec (stepThread_keeps arch (AtThread.ignoresHits cur record tid) live sig))
  intro status
  split
  · apply Spec.bind (atThread_spec (read_keeps arch live))
    intro regs
    apply Spec.bind (atThread_spec (modifySelf_keeps fun s hs => hs.withRegs (some regs)))
    intro _
    apply Spec.bind (atThread_spec orFail_keeps)
    intro enter
    split
    · exact Spec.fail fun _ hs => hs.toAtRecord
    · apply Spec.bind (atThread_spec (Keeps.when (suppressSyscall_keeps arch live)))
      intro _
      -- from the pending slot on nothing can fail before the record is consumed
      apply Spec.bind (Q := fun _ => On Seated)
      · exact (modifyState_seated).mono (fun _ h => h.toSeated) (fun _ _ h => h) (fun _ _ h => h)
      · intro _
        exact advance_spec record.seq
  · exact Spec.fail fun _ hs => hs.toAtRecord

/-- The record is consumed when its result was injected. -/
theorem onSyscallExit_handles :
    Handles cur record (Mt.onSyscallExit arch record : Method ω Unit) := by
  apply handles_of_atThread
  intro tid live
  apply Spec.bind
    (atThread_spec (stepThread_keeps arch (AtThread.ignoresHits cur record tid) live none))
  intro status
  split
  · apply Spec.bind (atThread_spec (read_keeps arch live))
    intro regs
    apply Spec.bind (atThread_spec (modifySelf_keeps fun s hs => hs.withRegs (some regs)))
    intro _
    apply Spec.bind (atThread_spec orFail_keeps)
    intro exit
    apply Spec.bind (atThread_spec (takePending_keeps live))
    intro pending
    split
    · exact Spec.fail fun _ hs => hs.toAtRecord
    · apply Spec.bind (atThread_spec (injectResult_keeps arch live _ _))
      intro _
      exact advance_handles record.seq
  · exact Spec.fail fun _ hs => hs.toAtRecord

/-- The record is consumed when the signal has matched. -/
theorem onSignal_handles : Handles cur record (Mt.onSignal arch record : Method ω Unit) := by
  apply handles_of_atThread
  intro tid live
  apply Spec.bind (atThread_spec (takeResumeSignal_keeps live))
  intro sig
  apply Spec.bind
    (atThread_spec (stepThread_keeps arch (AtThread.ignoresHits cur record tid) live sig))
  intro status
  split
  · rename_i delivered
    apply Spec.bind (atThread_spec orFail_keeps)
    intro recorded
    split
    · exact Spec.fail fun _ hs => hs.toAtRecord
    · apply Spec.bind (Q := fun _ => On Seated)
      · exact (modifyState_seated).mono (fun _ h => h.toSeated) (fun _ _ h => h) (fun _ _ h => h)
      · intro _
        exact advance_spec record.seq
  · exact Spec.fail fun _ hs => hs.toAtRecord

omit [Ptrace arch ω] [Unwind ω] in
/-- The new thread has no pending call, and its parent's tid stays bound. -/
theorem bindChild_keeps (seq : UInt64) (childTid : UInt32) (child parent : Pid) (vforked : Bool) :
    KeepsSession (AtThread cur record tid)
      (Mt.bindChild seq childTid child parent vforked : Method ω Unit) := by
  apply Spec.bind state_spec
  intro mt
  apply Spec.bind (orFail_spec fun _ w hw => hw.1)
  intro tidmap
  apply Spec.bind (Q := fun mt' w => (mt.tidmap.bind childTid child = .ok tidmap ∧
    AtThread cur record tid w.session ∧ w.session.mt = some mt) ∧ w.session.mt = some mt')
  · exact state_spec (P := fun s => mt.tidmap.bind childTid child = .ok tidmap ∧
      AtThread cur record tid s ∧ s.mt = some mt)
  intro mt'
  apply Spec.update
  rintro w ⟨⟨hbind, hs, hmt⟩, hmt'⟩
  rw [hmt] at hmt'
  rcases Option.some.inj hmt' with rfl
  -- the leader's binding survives, and a new thread has no syscall in flight
  have hbound : (tidmap.liveOf tid).isSome := by
    rw [(TidMap.bind_ok hbind).2]
    split
    · rfl
    · exact hs.bound mt hmt
  refine { toAtRecord := hs.withState ?_, tagged := hs.tagged, bound := ?_ }
  · intro hnone
    have hf := hs.freshState hmt hnone
    refine { expected := hf.expected, leader := .inr ⟨tid, hs.tagged, hbound⟩, idle := ?_ }
    intro pid thread hthread
    rw [KeyMap.get_insert] at hthread
    split at hthread
    · rcases Option.some.inj hthread with rfl
      rfl
    · exact hf.idle pid thread hthread
  · intro mt'' hmt''
    rcases Option.some.inj hmt'' with rfl
    exact hbound

/-- The record is consumed when the child is bound and armed. -/
theorem onThreadSpawn_handles :
    Handles cur record (Mt.onThreadSpawn arch record : Method ω Unit) := by
  apply handles_of_atThread
  intro tid parent
  apply Spec.bind (atThread_spec orFail_keeps)
  intro spawn
  apply Spec.bind (atThread_spec (takeResumeSignal_keeps parent))
  intro sig
  apply Spec.bind
    (atThread_spec (stepThread_keeps arch (AtThread.ignoresHits cur record tid) parent sig))
  intro status
  split
  · split
    · apply Spec.bind (atThread_spec os_keeps)
      intro child
      apply Spec.bind (atThread_spec (registerChild_keeps arch child record.seq))
      intro _
      apply Spec.bind (atThread_spec (bindChild_keeps record.seq spawn.childTid child parent _))
      intro _
      apply Spec.bind (atThread_spec (armChild_keeps arch child))
      intro _
      exact advance_handles record.seq
    · exact Spec.fail fun _ hs => hs.toAtRecord
  · exact Spec.fail fun _ hs => hs.toAtRecord

omit [Ptrace arch ω] [Unwind ω] in
theorem removeThread_seated (live : Pid) :
    Spec (On Seated) (Mt.removeThread tid live : Method ω Unit) (fun _ => On Seated) E :=
  modifyState_seated

/-- An exit record is consumed too; the leader's ends the replay. -/
theorem onThreadExit_spec :
    Spec (On (AtRecord cur record)) (Mt.onThreadExit arch record : Method ω (Option ExitOutcome))
      (Round (On Driving) fun _ => On Settled) (fun _ => On (AtRecord cur record)) := by
  apply Spec.bind enforceTid_spec
  intro tid
  apply Spec.bind (liveFor_spec record.seq)
  intro live
  apply Spec.bind (atThread_spec (takeResumeSignal_keeps live))
  intro sig
  apply Spec.bind
    (atThread_spec (stepThread_keeps arch (AtThread.ignoresHits cur record tid) live sig))
  intro status
  split
  · exact Spec.fail fun _ hs => hs.toAtRecord
  · rename_i outcome _
    apply Spec.bind state_spec
    intro mt
    -- The thread is dropped before the record is consumed, and the leader's end is noted last.
    apply Spec.bind (Q := fun _ => On Seated)
    · exact (removeThread_seated live).mono (fun _ h => h.1.toSeated) (fun _ _ h => h)
        (fun _ _ h => h)
    intro _
    apply Spec.bind (advance_spec record.seq)
    intro _
    split
    · apply Spec.bind (Q := fun _ => On Settled)
      · apply modifySelf_spec
        intro s hs
        exact { noSnapshots := hs.toSettled.noSnapshots, skipped := hs.skipped, fresh := hs.fresh }
      · intro _
        exact Spec.pure fun _ hs => hs
    · exact Spec.pure fun _ hs => hs

/-- Passing a checkpoint record. -/
theorem passCheckpoint {s : ReplaySession} (hs : Driving s)
    (here : s.records[s.cursor]? = some record) (hkind : record.event.kind = .checkpoint) :
    Driving { s with cursor := s.cursor + 1 } where
  noSnapshots := hs.toSettled.noSnapshots
  skipped hnone r hr := by
    rw [List.take_add_one, here, List.mem_append] at hr
    rcases hr with hr | hr
    · exact hs.skipped hnone r hr
    · rcases List.mem_singleton.mp hr with rfl
      exact hkind
  fresh := hs.fresh
  multithreaded := hs.multithreaded
  unfinished := hs.unfinished
  state := hs.state

/-- How a failing drive leaves the session: settled, and at the record whose check
failed if it reports a divergence. -/
def FailedAt (e : ReplayError) (w : World ω) : Prop :=
  Settled w.session ∧ (e.IsDivergence → ∃ cur record, AtRecord cur record w.session)

omit [Ptrace arch ω] [Unwind ω] in
theorem AtRecord.failedAt {w : World ω} (h : AtRecord cur record w.session) (e : ReplayError) :
    FailedAt e w :=
  ⟨h.toSettled, fun _ => ⟨cur, record, h⟩⟩

omit [Ptrace arch ω] [Unwind ω] in
theorem Handles.andNone {m : Method ω Unit} (h : Handles cur record m) :
    Spec (On (AtRecord cur record)) (do m; pure (none : Option ExitOutcome))
      (Round (On Driving) fun _ => On Settled) (fun _ => On (AtRecord cur record)) :=
  Spec.bind h fun _ => Spec.pure fun _ hs => hs

/-- Every record that is not a checkpoint is consumed, or fails where it stands. -/
theorem onRecord_spec (cur : Option UInt64) (hkind : record.event.kind ≠ .checkpoint) :
    Spec (On (AtRecord cur record)) (Mt.onRecord arch record : Method ω (Option ExitOutcome))
      (Round (On Driving) fun _ => On Settled) (fun _ => On (AtRecord cur record)) := by
  unfold Mt.onRecord
  split
  · rename_i hcheckpoint
    exact absurd hcheckpoint hkind
  · exact onSchedSwitch_handles.andNone
  · exact (onSyscallEnter_handles arch).andNone
  · exact (onSyscallExit_handles arch).andNone
  · exact (onThreadSpawn_handles arch).andNone
  · exact onThreadExit_spec arch
  · exact (onSignal_handles arch).andNone
  · exact Spec.fail fun _ hs => hs

theorem driveRound_spec (stopAt : Option UInt64) :
    Spec (On Driving) (Mt.driveRound arch stopAt : Method ω (Option ExitOutcome))
      (Round (On Driving) fun _ => On Settled) FailedAt := by
  apply Spec.bind self_spec
  intro s
  split
  · apply Spec.pure
    rintro w ⟨hs, rfl⟩
    exact hs.toSettled
  split
  · apply Spec.fail
    rintro w ⟨hs, rfl⟩
    exact ⟨hs.toSettled, fun he => he.elim⟩
  · rename_i record here
    -- A checkpoint record is passed by the driver itself.
    by_cases hkind : record.event.kind = .checkpoint
    · simp only [Mt.onRecord, hkind]
      apply Spec.bind (Q := fun _ => On Driving)
      · apply Spec.update
        rintro w ⟨hs, rfl⟩
        exact passCheckpoint hs here hkind
      · intro _
        exact Spec.pure fun _ hs => hs
    · refine (onRecord_spec arch s.currentSeq hkind).mono ?_ (fun _ _ h => h) ?_
      · rintro w ⟨hs, rfl⟩
        exact { toDriving := hs, current := rfl, here := here, kind := hkind }
      · exact fun e w h => AtRecord.failedAt h e

omit [Unwind ω] in
/-- The first entry seats the leader alone. -/
theorem ensureState_spec :
    Spec (On fun s => Settled s ∧ s.multithreaded = true ∧ s.finished = none)
      (Mt.ensureState arch : Method ω Unit) (fun _ => On Driving) FailedAt := by
  apply Spec.bind self_spec
  intro s
  split
  · rename_i mt hmt
    apply Spec.pure
    rintro w ⟨⟨hs, hmulti, hfinished⟩, rfl⟩
    exact { toSettled := hs, multithreaded := hmulti, unfinished := hfinished, state := ⟨mt, hmt⟩ }
  · rename_i hmt
    apply Spec.bind (Q := fun _ => On fun s =>
      Settled s ∧ s.multithreaded = true ∧ s.finished = none)
    · intro w hw r w' hexec
      rcases exec_osOr_inv hexec with ⟨a, os', -, rfl, rfl⟩ | ⟨e, os', -, rfl, rfl⟩
      · exact hw.2 ▸ hw.1
      · exact ⟨hw.2 ▸ hw.1.1, fun he => he.elim⟩
    · intro _
      apply modifySelf_spec
      rintro s ⟨hs, hmulti, hfinished⟩
      -- A new table binds nobody, and its one thread is in no call.
      refine { noSnapshots := hs.noSnapshots, skipped := hs.skipped, fresh := ?_,
               multithreaded := hmulti, unfinished := hfinished, state := ⟨_, rfl⟩ }
      intro _ mt hmt
      rcases Option.some.inj hmt with rfl
      refine { expected := fun tid h => (by cases h), leader := .inl TidMap.isEmpty_new,
               idle := ?_ }
      intro pid thread hthread
      rw [KeyMap.get_insert] at hthread
      split at hthread
      · rcases Option.some.inj hthread with rfl
        rfl
      · simp at hthread

theorem mtDrive_spec (stopAt : Option UInt64) :
    Spec (On fun s => Settled s ∧ s.multithreaded = true ∧ s.finished = none)
      (Mt.drive arch stopAt : Method ω ExitOutcome) (fun _ => On Settled) FailedAt := by
  apply Spec.bind (ensureState_spec arch)
  intro _
  exact Spec.loop (driveRound_spec arch stopAt)

/-! ## Calls keep it -/

/-- A condition that holds without snapshots and survives the reset to process entry. -/
structure EntryLaws (P : ReplaySession → Prop) : Prop extends IgnoresWatch P where
  noSnapshots : ∀ s, P s → s.checkpoints = []
  entry : ∀ s pid, P s → P { s with
    pid, cursor := 0, currentSeq := none, pending := none, resumeSignal := none, lastRegs := none,
    finished := none, mt := none }

omit [Unwind ω] in
theorem respawn_keeps (h : EntryLaws P) : KeepsSession P (respawn arch : Method ω Unit) := by
  apply Keeps.bind (killActive_keeps arch)
  intro _
  apply Keeps.bind self_keeps
  intro s
  apply Keeps.bind (spawnStopped_keeps arch s.cmdline)
  intro pid
  apply Keeps.bind (modifySelf_keeps fun s hs => h.entry s pid hs)
  intro _
  exact rearmWatchpoint_keeps arch h.unwinder

/-- Without snapshots every restart is from process entry. -/
theorem planStart_of_noSnapshots {s : ReplaySession} (h : s.checkpoints = []) (seq : UInt64) :
    planStart s seq = { index := none, seq := 0 } := by
  rw [planStart, h]
  rfl

omit [Unwind ω] in
/-- Without snapshots every restart spawns the program again. -/
theorem restart_spec (h : EntryLaws P) (seq : UInt64) (s : ReplaySession) :
    Spec (fun w => P s ∧ w.session = s) (restart arch (planStart s seq) : Method ω Unit)
      (fun _ => On P) (fun _ => On P) := by
  by_cases hs : P s
  · rw [planStart_of_noSnapshots (h.noSnapshots s hs)]
    apply (respawn_keeps arch h).mono _ (fun _ _ h => h) (fun _ _ h => h)
    rintro w ⟨hw, rfl⟩
    exact hw
  · intro w hw
    exact absurd hw.1 hs

/-- A settled session on a multi-threaded trace. -/
def MtSettled (s : ReplaySession) : Prop := s.multithreaded = true ∧ Settled s

theorem Settled.congr {s s' : ReplaySession} (h : Settled s)
    (hcheckpoints : s'.checkpoints = s.checkpoints) (hseq : s'.currentSeq = s.currentSeq)
    (hrecords : s'.records = s.records) (hcursor : s'.cursor = s.cursor) (hmt : s'.mt = s.mt) :
    Settled s' where
  noSnapshots := by rw [hcheckpoints, h.noSnapshots]
  skipped := by rw [hseq, hrecords, hcursor]; exact h.skipped
  fresh := by rw [hseq, hmt, hrecords]; exact h.fresh

/-- A fresh process starts the trace over. -/
theorem MtSettled.entryLaws : EntryLaws MtSettled where
  unwinder _ _ h := ⟨h.1, h.2.congr rfl rfl rfl rfl rfl⟩
  hits _ _ _ h := ⟨h.1, h.2.congr rfl rfl rfl rfl rfl⟩
  watchpoint _ _ h := ⟨h.1, h.2.congr rfl rfl rfl rfl rfl⟩
  interval _ _ h := ⟨h.1, h.2.congr rfl rfl rfl rfl rfl⟩
  noSnapshots _ h := h.2.noSnapshots
  entry _ _ h := by
    refine ⟨h.1, { noSnapshots := h.2.noSnapshots, skipped := ?_, fresh := ?_ }⟩
    · intro _ r hr
      simp at hr
    · intro _ mt hmt
      cases hmt

/-- Driving a settled multi-threaded session leaves it settled. -/
theorem drive_spec (stopAt : Option UInt64) :
    Spec (On MtSettled) (drive arch stopAt : Method ω ExitOutcome) (fun _ => On MtSettled)
      (fun e w => MtSettled w.session ∧ FailedAt e w) := by
  have hfixed : Fixed fun s => s.multithreaded = true := fun _ _ _ _ h hs => h.trans hs
  apply Spec.bind self_spec
  intro s
  split
  · apply Spec.pure
    rintro w ⟨hs, rfl⟩
    exact hs
  · rename_i hfinished
    split
    · refine ((hfixed.mtDrive arch stopAt).and (mtDrive_spec arch stopAt)).mono ?_ ?_ ?_
      · rintro w ⟨⟨hmulti, hs⟩, rfl⟩
        exact ⟨hmulti, hs, hmulti, hfinished⟩
      · exact fun _ w h => h
      · exact fun e w h => ⟨⟨h.1, h.2.1⟩, h.2⟩
    · rename_i hsingle
      rintro w ⟨⟨hmulti, -⟩, rfl⟩
      exact absurd hmulti hsingle

/-! ## Only the driver reports a divergence -/

omit [Unwind ω] in
/-- A watchpoint that cannot be armed is no divergence. -/
theorem arm_noDivergence (pid : Pid) (addr : UInt64) (len : UInt8) (kind : WatchKind) :
    NoDivergence (WatchHw.arm arch pid addr len kind : Method ω Unit) := by
  unfold WatchHw.arm
  split
  · refine NoDivergence.bind (NoDivergence.orFail fun _ h => h) fun dr7 => ?_
    exact NoDivergence.bind (NoDivergence.osOr fun _ h => h) fun _ =>
      NoDivergence.osOr fun _ h => h
  · refine NoDivergence.bind (NoDivergence.orFail fun _ h => h) fun control => ?_
    exact NoDivergence.osOr fun _ h => h

omit [Unwind ω] in
theorem disarm_noDivergence (pid : Pid) :
    NoDivergence (WatchHw.disarm arch pid : Method ω Unit) := by
  unfold WatchHw.disarm
  split
  · exact NoDivergence.osOr fun _ h => h
  · exact NoDivergence.osOr fun _ h => h

omit [Unwind ω] in
theorem respawn_noDivergence : NoDivergence (respawn arch : Method ω Unit) := by
  have hkill : NoDivergence (killActive arch : Method ω Unit) := by
    apply NoDivergence.bind NoDivergence.self
    intro s
    split
    · exact NoDivergence.pure
    · exact NoDivergence.bind NoDivergence.attempt fun _ => NoDivergence.attempt
  apply NoDivergence.bind hkill
  intro _
  apply NoDivergence.bind NoDivergence.self
  intro s
  -- The old tracee is killed whether or not that succeeds; the new one may fail to start.
  have hspawn : NoDivergence (spawnStopped arch s.cmdline : Method ω Pid) := by
    refine NoDivergence.bind (NoDivergence.osOr fun _ h => h) fun pid => ?_
    apply NoDivergence.bind NoDivergence.os
    intro _
    exact NoDivergence.bind NoDivergence.os fun _ => NoDivergence.pure
  apply NoDivergence.bind hspawn
  intro pid
  apply NoDivergence.bind NoDivergence.modifySelf
  intro _
  apply NoDivergence.bind NoDivergence.modifySelf
  intro _
  apply NoDivergence.bind NoDivergence.self
  intro s
  split
  · exact arm_noDivergence arch _ _ _ _
  · exact NoDivergence.pure

omit [Unwind ω] in
theorem restart_noDivergence (s : ReplaySession) (seq : UInt64) :
    Spec (fun w => MtSettled s ∧ w.session = s) (restart arch (planStart s seq) : Method ω Unit)
      (fun _ => On MtSettled) (fun e w => MtSettled w.session ∧ ¬ e.IsDivergence) := by
  have hkeep := restart_spec (ω := ω) arch MtSettled.entryLaws seq s
  by_cases hs : MtSettled s
  · rw [planStart_of_noSnapshots hs.2.noSnapshots] at hkeep ⊢
    refine (hkeep.and (respawn_noDivergence arch)).mono ?_ ?_ ?_
    · exact fun w hw => ⟨hw, trivial⟩
    · exact fun _ w h => h.1
    · exact fun e w h => h
  · intro w hw
    exact absurd hw.1 hs

/-- A call on a settled multi-threaded session leaves it settled, and at the record
whose check failed if it reports a divergence. -/
theorem perform_spec (c : SessionCall) :
    Spec (On MtSettled) (perform arch c : Method ω (Option ExitOutcome)) (fun _ => On MtSettled)
      (fun e w => MtSettled w.session ∧ FailedAt e w) := by
  have hkeep : KeepsSession MtSettled (perform arch c : Method ω (Option ExitOutcome)) :=
    perform_keeps arch MtSettled.entryLaws.toIgnoresWatch
      (fun s seq => restart_spec arch MtSettled.entryLaws seq s)
      (fun stopAt => (drive_spec arch stopAt).mono (fun _ h => h) (fun _ _ h => h)
        (fun _ _ h => h.1)) c
  -- a call that does not drive reports no divergence
  have hother (h : NoDivergence (perform arch c : Method ω (Option ExitOutcome))) :
      Spec (On MtSettled) (perform arch c : Method ω (Option ExitOutcome))
        (fun _ => On MtSettled) (fun e w => MtSettled w.session ∧ FailedAt e w) := by
    refine (hkeep.and h).mono (fun w hw => ⟨hw, trivial⟩) (fun _ _ h => h.1) ?_
    exact fun e w h => ⟨h.1, h.1.2, fun he => absurd he h.2⟩
  cases c with
  | runTo seq =>
    refine Spec.bind ?_ fun _ => Spec.pure fun _ h => h
    apply Spec.bind self_spec
    intro s
    apply Spec.bind (Q := fun _ => On MtSettled)
    · apply Spec.when
      · intro _
        apply (restart_noDivergence arch s seq).mono (fun _ h => h) (fun _ _ h => h)
        exact fun e w h => ⟨h.1, h.1.2, fun he => absurd he h.2⟩
      · rintro _ w ⟨hs, rfl⟩
        exact hs
    · intro _
      exact drive_spec arch (some seq)
  | stepTo seq => exact Spec.bind (drive_spec arch (some seq)) fun _ => Spec.pure fun _ h => h
  | runToEnd => exact Spec.bind (drive_spec arch none) fun _ => Spec.pure fun _ h => h
  | restoreTo seq =>
    refine Spec.bind ?_ fun _ => Spec.pure fun _ h => h
    apply Spec.bind self_spec
    intro s
    apply (restart_noDivergence arch s seq).mono (fun _ h => h) (fun _ _ h => h)
    exact fun e w h => ⟨h.1, h.1.2, fun he => absurd he h.2⟩
  | checkpointInterval interval =>
    exact hother (NoDivergence.bind NoDivergence.modifySelf fun _ => NoDivergence.pure)
  | watch addr len kind =>
    apply hother
    refine NoDivergence.bind ?_ fun _ => NoDivergence.pure
    refine NoDivergence.bind (NoDivergence.orFail fun _ h => h) fun _ => ?_
    apply NoDivergence.bind NoDivergence.self
    intro s
    have harm : NoDivergence (forEach (fun live => WatchHw.arm arch live addr len kind)
        s.liveThreads : Method ω Unit) :=
      NoDivergence.forEach (fun live => arm_noDivergence arch live addr len kind) _
    apply NoDivergence.bind harm
    intro _
    have hread : NoDivergence (readMemory arch s.pid addr len.toNat : Method ω Bytes) :=
      NoDivergence.bind (NoDivergence.osOr fun _ h => h) fun _ => NoDivergence.pure
    exact NoDivergence.bind hread fun _ => NoDivergence.modifySelf
  | clearWatch =>
    apply hother
    refine NoDivergence.bind ?_ fun _ => NoDivergence.pure
    apply NoDivergence.bind NoDivergence.self
    intro s
    apply NoDivergence.bind NoDivergence.modifySelf
    intro _
    have hdisarm : NoDivergence (Run.when (s.watchpoint.isSome && s.finished.isNone)
        (forEach (WatchHw.disarm arch) s.liveThreads) : Method ω Unit) :=
      Spec.when (fun _ => NoDivergence.forEach (disarm_noDivergence arch) _)
        (fun _ _ _ => trivial)
    exact NoDivergence.bind hdisarm fun _ => NoDivergence.modifySelf
  | takeWatchHits =>
    apply hother
    refine NoDivergence.bind ?_ fun _ => NoDivergence.pure
    apply NoDivergence.bind NoDivergence.self
    intro s
    exact NoDivergence.bind NoDivergence.modifySelf fun _ => NoDivergence.pure

/-- In every state of a session on a multi-threaded trace, the session is settled. -/
theorem Reachable.settled {w : World ω} (h : Reachable arch w)
    (hmulti : w.session.multithreaded = true) : Settled w.session := by
  induction h with
  | @launch cmdline records os w hlaunch =>
    rcases launch_session arch hlaunch with ⟨pid, hs⟩
    rw [hs]
    exact { noSnapshots := rfl, skipped := fun _ r hr => (by simp [ReplaySession.ofTrace] at hr),
            fresh := fun _ mt hmt => (by cases hmt) }
  | @call w w' r hw c hcall ih =>
    rw [(perform_fixed arch hcall).2.2] at hmulti
    have hpost := perform_spec arch c w ⟨hmulti, ih hmulti⟩ r w' hcall
    cases r with
    | ok a => exact hpost.2
    | error e => exact hpost.1.2

end Driver

end Mirrorscope.Replay
