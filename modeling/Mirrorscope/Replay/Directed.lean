import Mirrorscope.Replay.Finality
import Mirrorscope.Replay.Journaled

/-! # Only the directed thread runs

The schedule of a trace directs one thread at every record. The driver of a
multi-threaded replay resumes the live thread bound to it and no other, consumes a
record only at that thread's stop, and the threads it follows are the bound ones.

The stages of a round, for a session `s₀` with `record` at its cursor:
* `directed`: the thread that a place in the trace directs. `Scheduled`: the thread table
  follows the schedule.
* `Found`, `AtLive`: the thread of the record is known, and then its live pid. `Gone`: that
  thread has ended.
* `Stepping`, `After`: the journal of a handler, before its thread has stopped and after.
* `Obeys`: what a round may do to the journal and the session. `driveRound_obeys`: every round
  does only that.
* `drive_directed`: the rounds of a drive, from the launch on.
-/

namespace Mirrorscope.Replay

open Capture Linux Run
open Trace (EventKind Record)

/-! ## The schedule of a trace -/

/-- Whether a record is an event of the thread it is tagged with. -/
def isConcrete (record : Record) : Bool :=
  match record.event.kind with
  | .syscallEnter | .syscallExit | .threadSpawn | .threadExit | .signal => true
  | _ => false

/-- The tid a switch record names. -/
def switchedTo (record : Record) : Option UInt32 :=
  match record.event.kind with
  | .schedSwitch =>
    match SchedSwitch.decode record.event.payload with
    | .ok switch => some switch.tid
    | .error _ => none
  | _ => none

/-- The tid of the most recent switch. -/
def lastSwitch (records : List Record) : Option UInt32 :=
  records.foldl (fun last record => (switchedTo record).or last) none

/-- The tid that is directed to run at the cursor: that of the most recent switch, and
before any switch that of the first concrete record. -/
def directed (records : List Record) (cursor : Nat) : Option UInt32 :=
  (lastSwitch (records.take cursor)).or ((records.find? isConcrete).bind fun r => r.event.tid)

/-- Going past a record changes the directed tid only at a switch. -/
theorem directed_succ {records : List Record} {cursor : Nat} {record : Record}
    (h : records[cursor]? = some record) :
    directed records (cursor + 1) = (switchedTo record).or (directed records cursor) := by
  rw [directed, directed, List.take_add_one, h, lastSwitch, Option.toList_some,
    List.foldl_append, List.foldl_cons, List.foldl_nil, ← lastSwitch, Option.or_assoc]

/-- No thread ran before the cursor and no switch was passed. -/
def Unstarted (records : List Record) (cursor : Nat) : Prop :=
  ∀ r ∈ records.take cursor, isConcrete r = false ∧ switchedTo r = none

/-- A record of neither kind leaves the schedule unstarted. -/
theorem Unstarted.succ {records : List Record} {cursor : Nat} {record : Record}
    (h : Unstarted records cursor) (here : records[cursor]? = some record)
    (hconcrete : isConcrete record = false) (hswitch : switchedTo record = none) :
    Unstarted records (cursor + 1) := by
  intro r hr
  rw [List.take_add_one, here, List.mem_append] at hr
  rcases hr with hr | hr
  · exact h r hr
  · rcases List.mem_singleton.mp hr with rfl
    exact ⟨hconcrete, hswitch⟩

theorem lastSwitch_eq_none {records : List Record} (h : ∀ r ∈ records, switchedTo r = none) :
    lastSwitch records = none := by
  induction records with
  | nil => rfl
  | cons r rs ih =>
    have hr : switchedTo r = none := h r List.mem_cons_self
    rw [lastSwitch, List.foldl_cons, hr]
    exact ih fun r' hr' => h r' (List.mem_cons_of_mem r hr')

/-- The first concrete record directs its own thread. -/
theorem Unstarted.directed {records : List Record} {cursor : Nat} {record : Record}
    (h : Unstarted records cursor) (here : records[cursor]? = some record)
    (hconcrete : isConcrete record = true) : directed records cursor = record.event.tid := by
  have hfind : records.find? isConcrete = some record := by
    have hskip : (records.take cursor).find? isConcrete = none := by
      rw [List.find?_eq_none]
      intro r hr
      simp [(h r hr).1]
    rw [← List.take_append_drop cursor records, List.find?_append, hskip]
    have hdrop : (records.drop cursor).head? = some record := by
      rw [List.head?_drop, here]
    obtain ⟨rest, hrest⟩ : ∃ rest, records.drop cursor = record :: rest :=
      ⟨_, List.eq_cons_of_mem_head? hdrop⟩
    rw [hrest]
    simp [hconcrete]
  rw [Replay.directed, lastSwitch_eq_none fun r hr => (h r hr).2, hfind]
  rfl

/-! ## The threads that are followed -/

/-- Whether the driver follows a live pid. -/
def MtState.Follows (mt : MtState) (p : Pid) : Prop := (mt.threads[p]?).isSome = true

/-- Whether a live pid is bound to a recorded tid. -/
def TidMap.Binds (m : TidMap) (p : Pid) : Prop := ∃ tid, m.liveOf tid = some p

/-- What the driver follows: the bound threads, or the leader alone while nothing is
bound; the leader stays bound until its exit ends the replay. -/
structure BoundThreads (ended : Bool) (mt : MtState) : Prop where
  exact : mt.tidmap.isEmpty = false ∨ ended = true → ∀ p, mt.Follows p ↔ mt.tidmap.Binds p
  fresh : mt.tidmap.isEmpty = true → ended = false → ∀ p, mt.Follows p ↔ p = mt.leader
  leader : mt.tidmap.isEmpty = false → ended = false → mt.tidmap.Binds mt.leader

theorem TidMap.Binds.notEmpty {m : TidMap} {p : Pid} (h : m.Binds p) : m.isEmpty = false := by
  obtain ⟨tid, htid⟩ := h
  cases hempty : m.isEmpty with
  | false => rfl
  | true =>
    rw [(TidMap.isEmpty_iff m).mp hempty tid] at htid
    cases htid

/-- After a binding exactly the new pid is bound in addition. -/
theorem TidMap.binds_bind {m m' : TidMap} {tid : UInt32} {live : Pid}
    (h : m.bind tid live = .ok m') (p : Pid) : m'.Binds p ↔ p = live ∨ m.Binds p := by
  obtain ⟨hfree, hlive⟩ := TidMap.bind_ok h
  constructor
  · rintro ⟨r, hr⟩
    rw [hlive] at hr
    split at hr
    · exact .inl (Option.some.inj hr).symm
    · exact .inr ⟨r, hr⟩
  · rintro (rfl | ⟨r, hr⟩)
    · exact ⟨tid, by rw [hlive, if_pos rfl]⟩
    · by_cases htid : tid = r
      · -- the tid was bound before, so to this pid
        subst htid
        have hsame : live = p := by
          rcases (TidMap.conflict_eq_none.mp hfree).1 with hnone | hsome
          · rw [TidMap.liveOf, hnone] at hr
            cases hr
          · rw [TidMap.liveOf, hsome] at hr
            exact Option.some.inj hr
        exact ⟨tid, by rw [hlive, if_pos rfl, hsame]⟩
      · exact ⟨r, by rw [hlive, if_neg htid, hr]⟩

/-- Dropping a tid's binding drops exactly its pid. -/
theorem TidMap.binds_unbindRecorded {m : TidMap} {tid : UInt32} {live : Pid}
    (h : m.liveOf tid = some live) (p : Pid) :
    (m.unbindRecorded tid).Binds p ↔ p ≠ live ∧ m.Binds p := by
  constructor
  · rintro ⟨r, hr⟩
    rw [TidMap.liveOf_unbindRecorded] at hr
    split at hr
    · cases hr
    · rename_i hne
      refine ⟨?_, r, hr⟩
      rintro rfl
      exact hne (TidMap.liveOf_injective h hr)
  · rintro ⟨hne, r, hr⟩
    refine ⟨r, ?_⟩
    rw [TidMap.liveOf_unbindRecorded, if_neg, hr]
    rintro rfl
    rw [h] at hr
    exact hne (Option.some.inj hr).symm

/-- The new thread is followed like the others. -/
theorem follows_insert (mt : MtState) (child p : Pid) (thread : ThreadRt) :
    ((mt.threads.insert child thread)[p]?).isSome = true ↔ p = child ∨ mt.Follows p := by
  rw [KeyMap.get_insert]
  split
  · rename_i h
    simp [h]
  · rename_i h
    simp [MtState.Follows, Ne.symm h]

theorem follows_erase (mt : MtState) (live p : Pid) :
    ((mt.threads.erase live)[p]?).isSome = true ↔ p ≠ live ∧ mt.Follows p := by
  rw [KeyMap.get_erase]
  split
  · rename_i h
    simp [h]
  · rename_i h
    simp [MtState.Follows, Ne.symm h]

theorem follows_modifyThread (mt : MtState) (live p : Pid) (f : ThreadRt → ThreadRt) :
    (Mt.MtState.modifyThread mt live f).Follows p ↔ mt.Follows p := by
  unfold Mt.MtState.modifyThread
  split
  · rename_i thread hthread
    refine (follows_insert mt live p (f thread)).trans ⟨?_, .inr⟩
    rintro (rfl | h)
    · simp [MtState.Follows, hthread]
    · exact h
  · exact Iff.rfl

namespace BoundThreads

theorem modifyThread {ended : Bool} {mt : MtState} (h : BoundThreads ended mt) (live : Pid)
    (f : ThreadRt → ThreadRt) : BoundThreads ended (Mt.MtState.modifyThread mt live f) where
  exact hbound p := by
    rw [tidmap_modifyThread] at hbound ⊢
    exact (follows_modifyThread mt live p f).trans (h.exact hbound p)
  fresh hempty hended p := by
    rw [tidmap_modifyThread] at hempty
    rw [leader_modifyThread]
    exact (follows_modifyThread mt live p f).trans (h.fresh hempty hended p)
  leader hbound hended := by
    rw [tidmap_modifyThread] at hbound ⊢
    rw [leader_modifyThread]
    exact h.leader hbound hended

/-- The first binding is the leader's, who is the only one followed. -/
theorem bindLeader {mt : MtState} {tid : UInt32} {tidmap : TidMap} (h : BoundThreads false mt)
    (hempty : mt.tidmap.isEmpty = true) (hbind : mt.tidmap.bind tid mt.leader = .ok tidmap) :
    BoundThreads false { mt with tidmap } := by
  have hnone (p : Pid) : ¬ mt.tidmap.Binds p := by
    intro hp
    rw [hp.notEmpty] at hempty
    cases hempty
  have hleader : tidmap.Binds mt.leader := (TidMap.binds_bind hbind _).mpr (.inl rfl)
  refine { exact := ?_, fresh := ?_, leader := fun _ _ => hleader }
  · intro _ p
    refine (h.fresh hempty rfl p).trans ?_
    rw [TidMap.binds_bind hbind]
    simp [hnone p]
  · intro hempty' _
    have hne : tidmap.isEmpty = false := hleader.notEmpty
    rw [show tidmap.isEmpty = true from hempty'] at hne
    cases hne

/-- A bound child is followed. -/
theorem bindChild {mt : MtState} {childTid : UInt32} {child : Pid} {tidmap : TidMap}
    (h : BoundThreads false mt) (hbound : mt.tidmap.isEmpty = false)
    (hbind : mt.tidmap.bind childTid child = .ok tidmap) (vforkSuspended : KeyMap Pid Pid) :
    BoundThreads false
      { mt with tidmap, threads := mt.threads.insert child {}, vforkSuspended } := by
  have hleader : tidmap.Binds mt.leader :=
    (TidMap.binds_bind hbind _).mpr (.inr (h.leader hbound rfl))
  refine { exact := ?_, fresh := ?_, leader := fun _ _ => hleader }
  · intro _ p
    refine (follows_insert mt child p {}).trans ?_
    rw [TidMap.binds_bind hbind, h.exact (.inl hbound) p]
  · intro hempty _
    have hne : tidmap.isEmpty = false := hleader.notEmpty
    rw [show tidmap.isEmpty = true from hempty] at hne
    cases hne

/-- A thread that is gone is neither bound nor followed; without the leader the
replay is over. -/
theorem removeThread {mt : MtState} {tid : UInt32} {live : Pid} (h : BoundThreads false mt)
    (hlive : mt.tidmap.liveOf tid = some live) (vforkSuspended : KeyMap Pid Pid) :
    BoundThreads (live = mt.leader)
      { mt with
        threads := mt.threads.erase live, tidmap := mt.tidmap.unbindRecorded tid,
        vforkSuspended } := by
  have hbound : mt.tidmap.isEmpty = false := TidMap.Binds.notEmpty ⟨tid, hlive⟩
  have hleader (hne : live ≠ mt.leader) : (mt.tidmap.unbindRecorded tid).Binds mt.leader :=
    (TidMap.binds_unbindRecorded hlive _).mpr ⟨hne.symm, h.leader hbound rfl⟩
  refine { exact := ?_, fresh := ?_, leader := ?_ }
  · intro _ p
    refine (follows_erase mt live p).trans ?_
    rw [TidMap.binds_unbindRecorded hlive, h.exact (.inl hbound) p]
  · intro hempty hended
    have hne : (mt.tidmap.unbindRecorded tid).isEmpty = false :=
      (hleader (of_decide_eq_false hended)).notEmpty
    rw [show (mt.tidmap.unbindRecorded tid).isEmpty = true from hempty] at hne
    cases hne
  · intro _ hended
    exact hleader (of_decide_eq_false hended)

end BoundThreads

/-! ## The state of the schedule -/

/-- The tid the driver expects is the directed one; it expects none only before the
first thread runs. -/
def Expects (records : List Record) (cursor : Nat) : Option UInt32 → Prop
  | some tid => directed records cursor = some tid
  | none => Unstarted records cursor

/-- A session on a multi-threaded trace, between two records. -/
structure Scheduled (s : ReplaySession) : Prop where
  noSnapshots : s.checkpoints = []
  entry : s.mt = none → s.cursor = 0
  expects : ∀ mt, s.mt = some mt → Expects s.records s.cursor mt.expectedTid
  followed : ∀ mt, s.mt = some mt → BoundThreads s.finished.isSome mt

/-- Once the leader is bound, the threads followed are exactly those bound. -/
def ExactlyFollowed (s : ReplaySession) : Prop :=
  ∀ mt, s.mt = some mt → mt.tidmap.isEmpty = false ∨ s.finished.isSome = true →
    ∀ p, mt.Follows p ↔ mt.tidmap.Binds p

theorem Scheduled.exactlyFollowed {s : ReplaySession} (h : Scheduled s) : ExactlyFollowed s :=
  fun mt hmt => (h.followed mt hmt).exact

/-- The driver has its thread state and the replay has not ended. -/
structure Driven (s : ReplaySession) : Prop extends Scheduled s where
  unfinished : s.finished = none
  state : ∃ mt, s.mt = some mt

/-- The live thread that is directed to run: the one bound to the directed tid, which
is the leader while nothing is bound; it is followed. -/
def Target (s : ReplaySession) (p : Pid) : Prop :=
  ∃ mt tid, s.mt = some mt ∧ directed s.records s.cursor = some tid ∧
    (mt.tidmap.liveOf tid = some p ∨ mt.tidmap.isEmpty = true ∧ p = mt.leader) ∧ mt.Follows p

/-- The driver has found the live thread of the record at the cursor, coming from `s₀`. -/
structure AtLive (s₀ : ReplaySession) (record : Record) (tid : UInt32) (live : Pid)
    (s : ReplaySession) : Prop where
  here : s₀.records[s₀.cursor]? = some record
  directs : directed s₀.records s₀.cursor = some tid
  target : Target s₀ live
  records : s.records = s₀.records
  cursor : s.cursor = s₀.cursor
  noSnapshots : s.checkpoints = []
  unfinished : s.finished = none
  state : ∃ mt, s.mt = some mt
  expected : ∀ mt, s.mt = some mt → mt.expectedTid = some tid
  bound : ∀ mt, s.mt = some mt → mt.tidmap.liveOf tid = some live
  followed : ∀ mt, s.mt = some mt → BoundThreads false mt

/-- The threads are as they were in `s₀`. -/
def SameThreads (s₀ s : ReplaySession) : Prop := s.mt.map MtState.threads = s₀.mt.map MtState.threads

namespace AtLive

variable {s₀ s s' : ReplaySession} {record : Record} {tid : UInt32} {live : Pid}

theorem congr (h : AtLive s₀ record tid live s) (hrecords : s'.records = s.records)
    (hcursor : s'.cursor = s.cursor) (hcheckpoints : s'.checkpoints = s.checkpoints)
    (hfinished : s'.finished = s.finished) (hmt : s'.mt = s.mt) :
    AtLive s₀ record tid live s' where
  here := h.here
  directs := h.directs
  target := h.target
  records := hrecords.trans h.records
  cursor := hcursor.trans h.cursor
  noSnapshots := hcheckpoints.trans h.noSnapshots
  unfinished := hfinished.trans h.unfinished
  state := by rw [hmt]; exact h.state
  expected := by rw [hmt]; exact h.expected
  bound := by rw [hmt]; exact h.bound
  followed := by rw [hmt]; exact h.followed

/-- Replacing the thread state. -/
theorem withState (h : AtLive s₀ record tid live s) {mt : MtState}
    (hexpected : mt.expectedTid = some tid) (hbound : mt.tidmap.liveOf tid = some live)
    (hfollowed : BoundThreads false mt) : AtLive s₀ record tid live { s with mt := some mt } where
  here := h.here
  directs := h.directs
  target := h.target
  records := h.records
  cursor := h.cursor
  noSnapshots := h.noSnapshots
  unfinished := h.unfinished
  state := ⟨mt, rfl⟩
  expected _ hmt' := Option.some.inj hmt' ▸ hexpected
  bound _ hmt' := Option.some.inj hmt' ▸ hbound
  followed _ hmt' := Option.some.inj hmt' ▸ hfollowed

theorem modifyThread (h : AtLive s₀ record tid live s) {mt : MtState} (hmt : s.mt = some mt)
    (f : ThreadRt → ThreadRt) :
    AtLive s₀ record tid live { s with mt := some (Mt.MtState.modifyThread mt live f) } := by
  refine h.withState ?_ ?_ ((h.followed mt hmt).modifyThread live f)
  · rw [expectedTid_modifyThread]
    exact h.expected mt hmt
  · rw [tidmap_modifyThread]
    exact h.bound mt hmt

/-- Nothing is consumed yet. -/
theorem driven (h : AtLive s₀ record tid live s) : Driven s where
  noSnapshots := h.noSnapshots
  entry hnone := by
    obtain ⟨mt, hmt⟩ := h.state
    rw [hmt] at hnone
    cases hnone
  expects mt hmt := by
    rw [h.expected mt hmt, h.records, h.cursor]
    exact h.directs
  followed mt hmt := by
    rw [h.unfinished]
    exact h.followed mt hmt
  unfinished := h.unfinished
  state := h.state

/-- Past a concrete record the directed thread is the same. -/
theorem expects_succ (h : AtLive s₀ record tid live s) (hconcrete : isConcrete record = true) :
    Expects s.records (s.cursor + 1) (some tid) := by
  have hswitch : switchedTo record = none := by
    unfold switchedTo
    split
    · rename_i hkind
      simp [isConcrete, hkind] at hconcrete
    · rfl
  show directed s.records (s.cursor + 1) = some tid
  rw [h.records, h.cursor, directed_succ h.here, hswitch, Option.none_or, h.directs]

/-- The record is consumed. -/
theorem consume (h : AtLive s₀ record tid live s) (hconcrete : isConcrete record = true)
    (seq : UInt64) : Driven (s.consume seq) where
  noSnapshots := h.noSnapshots
  entry hnone := by
    obtain ⟨mt, hmt⟩ := h.state
    rw [show s.mt = none from hnone] at hmt
    cases hmt
  expects mt hmt := by
    rw [h.expected mt hmt]
    exact h.expects_succ hconcrete
  followed mt hmt := by
    rw [show (s.consume seq).finished = none from h.unfinished]
    exact h.followed mt hmt
  unfinished := h.unfinished
  state := h.state

end AtLive

/-- The thread of the record is gone, and without it the replay may be over. -/
structure Gone (s₀ : ReplaySession) (record : Record) (tid : UInt32) (live : Pid) (ended : Bool)
    (s : ReplaySession) : Prop where
  here : s₀.records[s₀.cursor]? = some record
  target : Target s₀ live
  cursor : s.cursor = s₀.cursor
  noSnapshots : s.checkpoints = []
  unfinished : s.finished = none
  state : ∃ mt, s.mt = some mt
  expects : ∀ mt, s.mt = some mt → Expects s.records (s.cursor + 1) mt.expectedTid
  followed : ∀ mt, s.mt = some mt → BoundThreads ended mt

theorem AtLive.gone {s₀ s : ReplaySession} {record : Record} {tid : UInt32} {live : Pid}
    {ended : Bool} {mt : MtState} (h : AtLive s₀ record tid live s)
    (hconcrete : isConcrete record = true) (hexpected : mt.expectedTid = some tid)
    (hfollowed : BoundThreads ended mt) :
    Gone s₀ record tid live ended { s with mt := some mt } where
  here := h.here
  target := h.target
  cursor := h.cursor
  noSnapshots := h.noSnapshots
  unfinished := h.unfinished
  state := ⟨mt, rfl⟩
  expects mt' hmt' := by
    rcases Option.some.inj hmt' with rfl
    rw [hexpected]
    exact h.expects_succ hconcrete
  followed _ hmt' := Option.some.inj hmt' ▸ hfollowed

/-- The exit is consumed, and ends the replay if it is the leader's. -/
theorem Gone.consume {s₀ s : ReplaySession} {record : Record} {tid : UInt32} {live : Pid}
    {ended : Bool} (h : Gone s₀ record tid live ended s) (seq : UInt64)
    {finished : Option ExitOutcome} (hended : finished.isSome = ended) :
    Scheduled { s.consume seq with finished } where
  noSnapshots := h.noSnapshots
  entry hnone := by
    obtain ⟨mt, hmt⟩ := h.state
    rw [show s.mt = none from hnone] at hmt
    cases hmt
  expects mt hmt := h.expects mt hmt
  followed mt hmt := by
    rw [show ({ s.consume seq with finished } : ReplaySession).finished.isSome = ended from hended]
    exact h.followed mt hmt

/-- A watchpoint hit changes nothing the driver finds its thread by. -/
theorem AtLive.ignoresHits (s₀ : ReplaySession) (record : Record) (tid : UInt32) (live : Pid) :
    IgnoresHits (AtLive s₀ record tid live) where
  unwinder _ _ h := h.congr rfl rfl rfl rfl rfl
  hits _ _ _ h := h.congr rfl rfl rfl rfl rfl

theorem AtLive.sameIgnoresHits (s₀ : ReplaySession) (record : Record) (tid : UInt32) (live : Pid) :
    IgnoresHits fun s => AtLive s₀ record tid live s ∧ SameThreads s₀ s where
  unwinder _ _ h := ⟨h.1.congr rfl rfl rfl rfl rfl, h.2⟩
  hits _ _ _ h := ⟨h.1.congr rfl rfl rfl rfl rfl, h.2⟩

/-! ## Finding the thread -/

/-- The record at the cursor names the directed tid, which is now the expected one. -/
structure Found (s₀ : ReplaySession) (record : Record) (tid : UInt32) (s : ReplaySession) :
    Prop where
  driven : Driven s₀
  here : s₀.records[s₀.cursor]? = some record
  directs : directed s₀.records s₀.cursor = some tid
  state : ∃ mt₀, s₀.mt = some mt₀ ∧ s = { s₀ with mt := some { mt₀ with expectedTid := some tid } }

/-- The session is as it was, but for what the driver knows of the record's thread. -/
structure Waiting (s₀ s : ReplaySession) : Prop extends Driven s where
  cursor : s.cursor = s₀.cursor

theorem BoundThreads.withExpected {ended : Bool} {mt : MtState} (h : BoundThreads ended mt)
    (expectedTid : Option UInt32) : BoundThreads ended { mt with expectedTid } where
  exact := h.exact
  fresh := h.fresh
  leader := h.leader

theorem AtLive.waiting {s₀ s : ReplaySession} {record : Record} {tid : UInt32} {live : Pid}
    (h : AtLive s₀ record tid live s) : Waiting s₀ s where
  toDriven := h.driven
  cursor := h.cursor

theorem Found.waiting {s₀ s : ReplaySession} {record : Record} {tid : UInt32}
    (h : Found s₀ record tid s) : Waiting s₀ s := by
  obtain ⟨mt₀, hmt₀, rfl⟩ := h.state
  refine { noSnapshots := h.driven.noSnapshots, entry := fun hnone => (by cases hnone),
           expects := ?_, followed := ?_, unfinished := h.driven.unfinished, state := ⟨_, rfl⟩,
           cursor := rfl }
  · intro mt hmt
    rcases Option.some.inj hmt with rfl
    exact h.directs
  · intro mt hmt
    rcases Option.some.inj hmt with rfl
    exact (h.driven.followed mt₀ hmt₀).withExpected (some tid)

section Finding

variable {ω : Type} {s₀ : ReplaySession} {record : Record} {tid : UInt32}

/-- The record's tid is checked against the directed one. -/
theorem enforceTid_finds (hdriven : Driven s₀) (here : s₀.records[s₀.cursor]? = some record)
    (hconcrete : isConcrete record = true) :
    Spec (On fun s => s = s₀) (Mt.enforceTid record : Method ω UInt32)
      (fun tid => On (Found s₀ record tid)) (fun _ => On (Waiting s₀)) := by
  have hwaiting (w : World ω) (hw : w.session = s₀) : Waiting s₀ w.session :=
    { toDriven := hw ▸ hdriven, cursor := congrArg _ hw }
  unfold Mt.enforceTid
  split
  · exact Spec.fail fun w hw => hwaiting w hw
  rename_i tid htid
  refine Spec.bind state_spec fun mt => ?_
  split
  · rename_i hexpected
    refine Spec.bind (Q := fun _ => On (Found s₀ record tid)) ?_ fun _ => Spec.pure fun _ h => h
    refine modifyState_spec (P := fun s => s = s₀ ∧ s.mt = some mt) ?_
    rintro s mt' ⟨rfl, hmt⟩ hmt'
    -- nothing ran yet, so this record is the first concrete one
    have hunstarted : Unstarted s.records s.cursor := by
      have hexpects := hdriven.expects mt hmt
      rwa [hexpected] at hexpects
    rw [hmt] at hmt'
    rcases Option.some.inj hmt' with rfl
    exact { driven := hdriven, here, directs := (hunstarted.directed here hconcrete).trans htid,
            state := ⟨mt, hmt, rfl⟩ }
  · rename_i expected hexpected
    split
    · rename_i heq
      refine Spec.pure ?_
      rintro w ⟨hw, hmt⟩
      rw [heq] at hexpected
      rw [show w.session = s₀ from hw] at hmt
      have hexpects := hdriven.expects mt hmt
      rw [hexpected] at hexpects
      refine { driven := hdriven, here, directs := hexpects, state := ⟨mt, hmt, ?_⟩ }
      -- the state already is as adopting the tid would leave it
      rw [← hexpected, show ({ mt with } : MtState) = mt from rfl, ← hmt]
      exact hw
    · exact Spec.fail fun w hw => hwaiting w hw.1

/-- With its live thread known, the record is at that thread. -/
theorem Found.atLive {s₀ s : ReplaySession} {mt₀ mt : MtState} {live : Pid}
    (h : Found s₀ record tid s) (hmt₀ : s₀.mt = some mt₀)
    (htarget : (mt₀.tidmap.liveOf tid = some live ∨ mt₀.tidmap.isEmpty = true ∧ live = mt₀.leader) ∧
      mt₀.Follows live)
    (hexpected : mt.expectedTid = some tid) (hbound : mt.tidmap.liveOf tid = some live)
    (hfollowed : BoundThreads false mt) :
    AtLive s₀ record tid live { s with mt := some mt } := by
  obtain ⟨mt', -, rfl⟩ := h.state
  exact
    { here := h.here, directs := h.directs, target := ⟨mt₀, tid, hmt₀, h.directs, htarget⟩,
      records := rfl, cursor := rfl, noSnapshots := h.driven.noSnapshots,
      unfinished := h.driven.unfinished, state := ⟨mt, rfl⟩,
      expected := fun _ hmt => Option.some.inj hmt ▸ hexpected,
      bound := fun _ hmt => Option.some.inj hmt ▸ hbound,
      followed := fun _ hmt => Option.some.inj hmt ▸ hfollowed }

/-- The live thread is the one bound to the directed tid; on an empty table that is the
leader. -/
theorem liveFor_finds (seq : UInt64) :
    Spec (On (Found s₀ record tid)) (Mt.liveFor tid seq : Method ω Pid)
      (fun live => On fun s => AtLive s₀ record tid live s ∧ SameThreads s₀ s)
      (fun _ => On (Waiting s₀)) := by
  refine Spec.bind state_spec fun mt => ?_
  split
  · -- The tid is bound: its live thread is followed, as every bound one is.
    rename_i live hlive
    refine Spec.pure ?_
    rintro w ⟨hfound, hmt⟩
    obtain ⟨mt₀, hmt₀, hs⟩ := hfound.state
    rcases Option.some.inj (hmt.symm.trans (congrArg ReplaySession.mt hs)) with rfl
    have hfollowed : BoundThreads false mt₀ := by
      have hfollowed := hfound.driven.followed mt₀ hmt₀
      rwa [hfound.driven.unfinished] at hfollowed
    have hbinds : mt₀.tidmap.Binds live := ⟨tid, hlive⟩
    have hfollows := (hfollowed.exact (.inl hbinds.notEmpty) live).mpr hbinds
    have hat := hfound.atLive hmt₀ ⟨.inl hlive, hfollows⟩ rfl hlive
      (hfollowed.withExpected (some tid))
    refine ⟨?_, by rw [SameThreads, hmt, hmt₀]; rfl⟩
    rw [← hmt] at hat
    exact hat
  · split
    · -- Nothing is bound yet, so the tid is the leader's, which alone is followed.
      rename_i hempty
      refine Spec.bind (orFail_spec fun _ w hw => hw.1.waiting) fun tidmap => ?_
      refine Spec.bind (Q := fun _ => On fun s =>
        AtLive s₀ record tid mt.leader s ∧ SameThreads s₀ s) ?_ fun _ => Spec.pure fun _ h => h
      refine (modifyState_spec (P := fun s => mt.tidmap.bind tid mt.leader = .ok tidmap ∧
        Found s₀ record tid s ∧ s.mt = some mt) ?_).mono (fun w hw => hw) (fun _ _ h => h)
          (fun _ _ h => h)
      rintro s mt' ⟨hbind, hfound, hmt⟩ hmt'
      rcases Option.some.inj (hmt.symm.trans hmt') with rfl
      obtain ⟨mt₀, hmt₀, hs⟩ := hfound.state
      rcases Option.some.inj (hmt.symm.trans (congrArg ReplaySession.mt hs)) with rfl
      have hfollowed : BoundThreads false mt₀ := by
        have hfollowed := hfound.driven.followed mt₀ hmt₀
        rwa [hfound.driven.unfinished] at hfollowed
      have hfollows := (hfollowed.fresh hempty rfl mt₀.leader).mpr rfl
      refine ⟨hfound.atLive hmt₀ ⟨.inr ⟨hempty, rfl⟩, hfollows⟩ rfl ?_ ?_, ?_⟩
      · rw [(TidMap.bind_ok hbind).2, if_pos rfl]
      · exact (hfollowed.withExpected (some tid)).bindLeader hempty hbind
      · rw [SameThreads, hmt₀]
        rfl
    · exact Spec.fail fun w hw => hw.1.waiting

end Finding

/-! ## What a round of the driver does -/

/-- The syscall in flight on a thread. -/
def ReplaySession.pendingOf (s : ReplaySession) (p : Pid) : Option PendingSys :=
  s.mt.bind fun mt => (mt.threads[p]?).bind ThreadRt.pending

/-- The stop of a thread that a record stands for; `after` is what the driver did at that
stop, and `pending` the syscall in flight on the thread before it ran. -/
def Reports (record : Record) (p : Pid) (pending : Option PendingSys) (after : List Entry)
    (status : WaitStatus) : Prop :=
  match record.event.kind, status with
  | .syscallEnter, .ptraceSyscall _ =>
    ∃ enter regs, SyscallEnter.decode record.event.payload = .ok enter ∧
      .registers p regs ∈ after ∧ enter.nr = regs.nr
  | .syscallExit, .ptraceSyscall _ => pending.isSome = true
  | .threadSpawn, .ptraceEvent _ _ event => isSpawnEvent event = true
  | .threadExit, .exited _ _ => True
  | .threadExit, .signaled _ _ _ => True
  | .signal, .stopped _ sig =>
    ∃ recorded, SignalDelivery.decode record.event.payload = .ok recorded ∧
      recorded.signum = sig.num
  | _, _ => False

theorem Reports.mono {record : Record} {p : Pid} {pending : Option PendingSys}
    {seen after : List Entry} {status : WaitStatus} (h : Reports record p pending seen status)
    (hsub : ∀ e ∈ seen, e ∈ after) : Reports record p pending after status := by
  unfold Reports at h ⊢
  split at h
  · obtain ⟨enter, regs, hdecode, hmem, hnr⟩ := h
    exact ⟨enter, regs, hdecode, hsub _ hmem, hnr⟩
  · exact h
  · exact h
  · trivial
  · trivial
  · exact h
  · exact h.elim

section Rounds

variable {ω : Type}

/-- From `v` to `w` only directed threads were resumed. -/
def Resumes (v w : World (Journal ω)) : Prop :=
  ∃ new, w.os.entries = v.os.entries ++ new ∧ ∀ q, .resumed q ∈ new → Target v.session q

/-- From `v` to `w` the record at the cursor was consumed; a concrete one at the stop of
the directed thread that it stands for, after which no thread was resumed. -/
structure Consumes (v w : World (Journal ω)) (record : Record) : Prop where
  here : v.session.records[v.session.cursor]? = some record
  cursor : w.session.cursor = v.session.cursor + 1
  stop : isConcrete record = true → ∃ p before status after, Target v.session p ∧
    w.os.entries = v.os.entries ++ before ++ .waited p status :: after ∧
    (∀ e ∈ after, e.Rests) ∧ Reports record p (v.session.pendingOf p) after status

/-- The round failed: it resumed directed threads only, and consumed nothing. -/
structure Unconsumed (v w : World (Journal ω)) : Prop where
  waiting : Waiting v.session w.session
  resumes : Resumes v w

/-- The round consumed its record. -/
structure Done (v : World (Journal ω)) (record : Record) (w : World (Journal ω)) : Prop where
  driven : Driven w.session
  resumes : Resumes v w
  consumes : Consumes v w record

/-- The round consumed the exit of the leader. -/
structure Over (v : World (Journal ω)) (record : Record) (w : World (Journal ω)) : Prop where
  scheduled : Scheduled w.session
  resumes : Resumes v w
  consumes : Consumes v w record

/-- What a round may do: resume directed threads, and consume the record at the cursor. -/
def Obeys (v w : World (Journal ω)) : Prop :=
  Resumes v w ∧ (w.session.cursor = v.session.cursor ∨ ∃ record, Consumes v w record)

/-- Thread `p` was stepped to a stop since `es`, and not resumed after it. -/
def Reported (p : Pid) (es : List Entry) (status : WaitStatus) (seen : List Entry)
    (w : World (Journal ω)) : Prop :=
  ∃ new, Extended Entry.Rests (es ++ new ++ .waited p status :: seen) w ∧ ∀ e ∈ new, e.Of p

theorem Extended.resumes {v w : World (Journal ω)} {p : Pid}
    (h : Extended (Entry.Of p) v.os.entries w) (htarget : Target v.session p) : Resumes v w := by
  obtain ⟨new, hentries, hall⟩ := h
  refine ⟨new, hentries, ?_⟩
  intro q hq
  rcases hall _ hq with rfl
  exact htarget

theorem Reported.resumes {v w : World (Journal ω)} {p : Pid} {status : WaitStatus}
    {seen : List Entry} (h : Reported p v.os.entries status seen w)
    (hseen : ∀ e ∈ seen, e.Rests) (htarget : Target v.session p) : Resumes v w := by
  obtain ⟨new, ⟨rest, hentries, hrest⟩, hall⟩ := h
  refine ⟨new ++ .waited p status :: (seen ++ rest), by simp [hentries], ?_⟩
  intro q hq
  simp only [List.mem_append, List.mem_cons] at hq
  rcases hq with hq | hq | hq | hq
  · rcases hall _ hq with rfl
    exact htarget
  · cases hq
  · exact (hseen _ hq q rfl).elim
  · exact (hrest _ hq q rfl).elim

theorem Stopped.reported {p : Pid} {es : List Entry} {status : WaitStatus} {w : World (Journal ω)}
    (h : Stopped p es status w) : Reported p es status [] w := by
  obtain ⟨new, hentries, hall⟩ := h
  exact ⟨new, ⟨[], by simp [hentries], by simp⟩, hall⟩

/-- What does not resume a thread leaves the stop as the last one. -/
theorem Writes.reported {α : Type} {m : Method (Journal ω) α} (h : Writes Entry.Rests m) (p : Pid)
    (es : List Entry) (status : WaitStatus) (seen : List Entry) :
    Keeps (Reported p es status seen) m := by
  intro w hw r w' hexec
  obtain ⟨new, hextended, hall⟩ := hw
  have hpost := h _ w hextended r w' hexec
  cases r with
  | ok a => exact ⟨new, hpost, hall⟩
  | error e => exact ⟨new, hpost, hall⟩

/-! ## The steps of a handler -/

variable {v : World (Journal ω)} {record : Record} {tid : UInt32} {live : Pid}
  {P : ReplaySession → Prop} {status : WaitStatus} {seen : List Entry} {α : Type}

/-- The thread of the record is found and may have been stepped already. -/
def Stepping (P : ReplaySession → Prop) (live : Pid) (v w : World (Journal ω)) : Prop :=
  P w.session ∧ Extended (Entry.Of live) v.os.entries w

/-- The thread of the record has stopped. -/
def After (P : ReplaySession → Prop) (live : Pid) (status : WaitStatus) (seen : List Entry)
    (v w : World (Journal ω)) : Prop :=
  P w.session ∧ Reported live v.os.entries status seen w

theorem Stepping.held {w : World (Journal ω)} (h : Stepping P live v w)
    (hP : ∀ s, P s → AtLive v.session record tid live s) : Unconsumed v w where
  waiting := (hP _ h.1).waiting
  resumes := h.2.resumes (hP _ h.1).target

theorem After.held {w : World (Journal ω)} (h : After P live status seen v w)
    (hseen : ∀ e ∈ seen, e.Rests) (hP : ∀ s, P s → AtLive v.session record tid live s) :
    Unconsumed v w where
  waiting := (hP _ h.1).waiting
  resumes := h.2.resumes hseen (hP _ h.1).target

/-- A part of a handler before the stop. -/
theorem before_spec {m : Method (Journal ω) α}
    (hP : ∀ s, P s → AtLive v.session record tid live s) (hsession : KeepsSession P m)
    (hwrites : Writes (Entry.Of live) m) :
    Spec (Stepping P live v) m (fun _ => Stepping P live v) (fun _ => Unconsumed v) :=
  (hsession.and (hwrites v.os.entries)).mono (fun _ h => h) (fun _ _ h => h) fun _ _ h =>
    Stepping.held h hP

/-- A part of a handler after the stop. -/
theorem after_spec {m : Method (Journal ω) α}
    (hP : ∀ s, P s → AtLive v.session record tid live s) (hseen : ∀ e ∈ seen, e.Rests)
    (hsession : KeepsSession P m) (hwrites : Writes Entry.Rests m) :
    Spec (After P live status seen v) m (fun _ => After P live status seen v)
      (fun _ => Unconsumed v) :=
  (hsession.and (hwrites.reported live v.os.entries status seen)).mono (fun _ h => h)
    (fun _ _ h => h) fun _ _ h => After.held h hseen hP

theorem state_reads {R : World (Journal ω) → Prop} {E : ReplayError → World (Journal ω) → Prop} :
    Spec R (Mt.state : Method (Journal ω) MtState) (fun mt w => R w ∧ w.session.mt = some mt) E := by
  refine Spec.bind (Q := fun s w => R w ∧ w.session = s) ?_ fun s => ?_
  · intro w hw r w' hexec
    rcases Prod.mk.inj (Option.some.inj hexec) with ⟨rfl, rfl⟩
    exact ⟨hw, rfl⟩
  split
  · rename_i mt hmt
    refine Spec.pure ?_
    rintro w ⟨hw, rfl⟩
    exact ⟨hw, hmt⟩
  · exact Spec.never

theorem modifyState_updates {R R' : World (Journal ω) → Prop}
    {E : ReplayError → World (Journal ω) → Prop} {f : MtState → MtState}
    (h : ∀ w mt, R w → w.session.mt = some mt →
      R' { w with session := { w.session with mt := some (f mt) } }) :
    Spec R (Mt.modifyState f : Method (Journal ω) Unit) (fun _ => R') E := by
  refine Spec.bind state_reads fun mt => ?_
  exact Spec.update fun w hw => h w mt hw.1 hw.2

theorem modifyThread_atLive {s₀ : ReplaySession} (f : ThreadRt → ThreadRt) :
    KeepsSession (AtLive s₀ record tid live)
      (Mt.modifyState fun mt => Mt.MtState.modifyThread mt live f : Method (Journal ω) Unit) :=
  modifyState_spec fun _ _ hs hmt => hs.modifyThread hmt f

/-- Changing the bookkeeping of the thread, with what it was as the answer. -/
theorem takeThread_atLive {s₀ : ReplaySession} (f : ThreadRt → ThreadRt) (get : MtState → α) :
    KeepsSession (AtLive s₀ record tid live) (do
      let mt ← Mt.state
      Mt.modifyState fun mt => Mt.MtState.modifyThread mt live f
      pure (get mt) : Method (Journal ω) α) := by
  refine Keeps.bind state_keeps fun mt => ?_
  exact Keeps.bind (modifyThread_atLive f) fun _ => Keeps.pure

theorem takeThread_writes {J : Entry → Prop} (f : ThreadRt → ThreadRt) (get : MtState → α) :
    Writes J (do
      let mt ← Mt.state
      Mt.modifyState fun mt => Mt.MtState.modifyThread mt live f
      pure (get mt) : Method (Journal ω) α) :=
  Writes.bind state_writes fun _ => Writes.bind modifyState_writes fun _ => Writes.pure

/-- Taking the syscall in flight, while the threads are as they were. -/
theorem takePending_inFlight {s₀ : ReplaySession} {E : ReplayError → World (Journal ω) → Prop} :
    Spec (On fun s => AtLive s₀ record tid live s ∧ SameThreads s₀ s)
      (Mt.takePending live : Method (Journal ω) (Option PendingSys))
      (fun pending w => pending = s₀.pendingOf live ∧ AtLive s₀ record tid live w.session) E := by
  refine Spec.bind state_spec fun mt => ?_
  refine Spec.bind (Q := fun _ => On fun s =>
    (mt.threads[live]?).bind ThreadRt.pending = s₀.pendingOf live ∧ AtLive s₀ record tid live s)
    ?_ fun _ => Spec.pure fun _ h => h
  refine modifyState_spec
    (P := fun s => (AtLive s₀ record tid live s ∧ SameThreads s₀ s) ∧ s.mt = some mt) ?_
  rintro s mt' ⟨⟨hat, hsame⟩, hmt⟩ hmt'
  refine ⟨?_, hat.modifyThread hmt' _⟩
  rw [SameThreads, hmt] at hsame
  obtain ⟨mt₀, hmt₀, hthreads⟩ := Option.map_eq_some_iff.mp hsame.symm
  rw [ReplaySession.pendingOf, hmt₀, ← hthreads]
  rfl

/-- The record at the stop of its thread is consumed. -/
theorem Reported.consumes {w w' : World (Journal ω)}
    (h : Reported live v.os.entries status seen w)
    (here : v.session.records[v.session.cursor]? = some record) (htarget : Target v.session live)
    (hcursor : w'.session.cursor = v.session.cursor + 1) (hseen : ∀ e ∈ seen, e.Rests)
    (hreports : Reports record live (v.session.pendingOf live) seen status)
    (hentries' : w'.os.entries = w.os.entries) : Consumes v w' record := by
  obtain ⟨new, ⟨rest, hentries, hrest⟩, -⟩ := h
  refine { here, cursor := hcursor, stop := ?_ }
  intro _
  refine ⟨live, new, status, seen ++ rest, htarget, by simp [hentries', hentries], ?_, ?_⟩
  · intro e he
    rcases List.mem_append.mp he with he | he
    · exact hseen e he
    · exact hrest e he
  · exact hreports.mono fun e he => List.mem_append_left rest he

/-- Consuming a concrete record at the stop of its thread. -/
theorem advance_consumes_at (hconcrete : isConcrete record = true) (hseen : ∀ e ∈ seen, e.Rests)
    (hreports : Reports record live (v.session.pendingOf live) seen status) :
    Spec (After (AtLive v.session record tid live) live status seen v)
      (Mt.advance record.seq : Method (Journal ω) Unit)
      (fun _ => Done v record) (fun _ => Unconsumed v) := by
  refine Spec.update ?_
  rintro w ⟨hat, hreported⟩
  refine { driven := hat.consume hconcrete record.seq,
           resumes := hreported.resumes hseen hat.target, consumes := ?_ }
  exact hreported.consumes hat.here hat.target (congrArg (· + 1) hat.cursor) hseen hreports rfl

/-- Every handler of a thread's record starts by finding the thread. -/
theorem finds_thread {seq : UInt64} {f : UInt32 → Pid → Method (Journal ω) α}
    {Q : α → World (Journal ω) → Prop} (hdriven : Driven v.session)
    (here : v.session.records[v.session.cursor]? = some record)
    (hconcrete : isConcrete record = true)
    (h : ∀ tid live, Spec
      (Stepping (fun s => AtLive v.session record tid live s ∧ SameThreads v.session s) live v)
      (f tid live) Q (fun _ => Unconsumed v)) :
    Spec (fun w => w = v) (do
      let tid ← Mt.enforceTid record
      let live ← Mt.liveFor tid seq
      f tid live) Q (fun _ => Unconsumed v) := by
  -- Up to here the journal has not grown, whatever goes wrong.
  have hheld {w : World (Journal ω)} (hwaiting : Waiting v.session w.session)
      (hsilent : Extended (fun _ => False) v.os.entries w) : Unconsumed v w := by
    obtain ⟨new, hentries, hnone⟩ := hsilent
    exact { waiting := hwaiting, resumes := ⟨new, hentries, fun q hq => (hnone _ hq).elim⟩ }
  refine Spec.bind (Q := fun tid w => Found v.session record tid w.session ∧
    Extended (fun _ => False) v.os.entries w) ?_ fun tid => ?_
  · refine ((enforceTid_finds hdriven here hconcrete).and
      (enforceTid_writes record v.os.entries)).mono ?_ (fun _ _ h => h) fun _ w h => hheld h.1 h.2
    rintro w rfl
    exact ⟨rfl, extended_self _ w⟩
  refine Spec.bind (Q := fun live => Stepping (fun s => AtLive v.session record tid live s ∧
    SameThreads v.session s) live v) ?_ fun live => h tid live
  refine ((liveFor_finds seq).and (liveFor_writes tid seq v.os.entries)).mono (fun _ h => h) ?_
    fun _ w h => hheld h.1 h.2
  rintro live w ⟨hat, new, hentries, hnone⟩
  exact ⟨hat, new, hentries, fun e he => (hnone e he).elim⟩

/-- Following a child leaves the binding of its parent alone. -/
theorem bindChild_atLive {s₀ : ReplaySession} (seq : UInt64) (childTid : UInt32)
    (child parent : Pid) (vforked : Bool) :
    KeepsSession (AtLive s₀ record tid live)
      (Mt.bindChild seq childTid child parent vforked : Method (Journal ω) Unit) := by
  refine Spec.bind state_spec fun mt => ?_
  refine orFail_bind (fun _ w h => h.1) fun tidmap hbind => ?_
  refine modifyState_spec (P := fun s => AtLive s₀ record tid live s ∧ s.mt = some mt) ?_
  rintro s mt' ⟨hat, hmt⟩ hmt'
  rcases Option.some.inj (hmt.symm.trans hmt') with rfl
  have hbound := hat.bound mt hmt
  have hfollowed := hat.followed mt hmt
  refine hat.withState (hat.expected mt hmt) ?_
    (hfollowed.bindChild (TidMap.Binds.notEmpty ⟨tid, hbound⟩) hbind _)
  show tidmap.liveOf tid = some live
  obtain ⟨hfree, hliveOf⟩ := TidMap.bind_ok hbind
  rw [hliveOf]
  split
  · rename_i htid
    subst htid
    -- the child carries the parent's tid, so it is the parent's pid
    rcases (TidMap.conflict_eq_none.mp hfree).1 with hnone | hsome
    · rw [TidMap.liveOf, hnone] at hbound
      cases hbound
    · rw [← hsome]
      exact hbound
  · exact hbound

/-- Taking the queued signal of the thread. -/
theorem takeResumeSignal_before :
    Spec (Stepping (fun s => AtLive v.session record tid live s ∧ SameThreads v.session s) live v)
      (Mt.takeResumeSignal live : Method (Journal ω) (Option Signal))
      (fun _ => Stepping (AtLive v.session record tid live) live v) (fun _ => Unconsumed v) := by
  refine (before_spec (fun s h => h) (takeThread_atLive _ _) (takeThread_writes _ _)).mono ?_
    (fun _ _ h => h) (fun _ _ h => h)
  exact fun w h => ⟨h.1.1, h.2⟩

variable (arch : Arch) [Ptrace arch ω] [Unwind ω]

/-- Stepping the thread of the record. -/
theorem stepThread_stops (hP : ∀ s, P s → AtLive v.session record tid live s)
    (hits : IgnoresHits P) (sig : Option Signal) :
    Spec (Stepping P live v) (Mt.stepThread arch live sig : Method (Journal ω) WaitStatus)
      (fun status w => P w.session ∧ Stopped live v.os.entries status w) (fun _ => Unconsumed v) :=
  ((stepThread_keeps arch hits live sig).and (stepThread_writes live sig v.os.entries)).mono
    (fun _ h => h) (fun _ _ h => h) fun _ _ h => Stepping.held h hP

omit [Unwind ω] in
/-- Reading the registers at the stop. -/
theorem read_reports (hP : ∀ s, P s → AtLive v.session record tid live s) :
    Spec (fun w => P w.session ∧ Stopped live v.os.entries status w)
      (Regs.read arch live : Method (Journal ω) Registers)
      (fun regs => After P live status [.registers live regs] v) (fun _ => Unconsumed v) := by
  refine Spec.bind (Q := fun regs => After P live status [.registers live (normalize arch regs)] v)
    ?_ fun regs => Spec.pure fun _ h => h
  intro w hw r w' hexec
  obtain ⟨hs, new, hentries, hall⟩ := hw
  rcases exec_osOr_inv hexec with ⟨regs, os', hcall, rfl, rfl⟩ | ⟨e, os', hcall, rfl, rfl⟩
  · refine ⟨hs, new, ⟨[], ?_, by simp⟩, hall⟩
    have hread := Journal.noting_inv hcall
    simp [hread, hentries]
  · have hread := Journal.noting_inv hcall
    have hreported : Reported live v.os.entries status [] ⟨w.session, os'⟩ := by
      refine ⟨new, ⟨[], ?_, by simp⟩, hall⟩
      simp [hread, hentries]
    exact After.held ⟨hs, hreported⟩ (by simp) hP

/-! ## The handlers -/

variable (hdriven : Driven v.session) (here : v.session.records[v.session.cursor]? = some record)

include hdriven here

/-- At the directed thread's entry into the recorded call. -/
theorem onSyscallEnter_done (hkind : record.event.kind = .syscallEnter) :
    Spec (fun w => w = v) (Mt.onSyscallEnter arch record : Method (Journal ω) Unit)
      (fun _ => Done v record) (fun _ => Unconsumed v) := by
  have hconcrete : isConcrete record = true := by simp [isConcrete, hkind]
  refine finds_thread hdriven here hconcrete fun tid live => ?_
  have hlive (s : ReplaySession) (h : AtLive v.session record tid live s) :
      AtLive v.session record tid live s := h
  refine Spec.bind takeResumeSignal_before fun sig => ?_
  refine Spec.bind (stepThread_stops arch hlive (AtLive.ignoresHits ..) sig) fun status => ?_
  split
  · rename_i pid
    refine Spec.bind (read_reports arch hlive) fun regs => ?_
    -- Of the stop nothing is in the journal but the registers that were read.
    have hseen : ∀ e ∈ [Entry.registers live regs], e.Rests := by
      intro e he q hq
      rw [List.mem_singleton.mp he] at hq
      cases hq
    refine Spec.bind (after_spec hlive hseen
      (modifySelf_keeps fun s hs => hs.congr rfl rfl rfl rfl rfl) Writes.modifySelf) fun _ => ?_
    refine orFail_bind (fun _ w h => After.held h hseen hlive) fun enter hdecode => ?_
    split
    · exact Spec.fail fun w h => After.held h hseen hlive
    rename_i hnr
    -- The number that was read is the recorded one: this is what the stop has to report.
    have hreports : Reports record live (v.session.pendingOf live) [.registers live regs]
        (.ptraceSyscall pid) := by
      simp only [Reports, hkind]
      exact ⟨enter, regs, hdecode, List.mem_singleton.mpr rfl, not_not.mp hnr⟩
    refine Spec.bind (after_spec hlive hseen (Keeps.when (suppressSyscall_keeps arch live))
      (Writes.when (suppressSyscall_writes fun _ _ h => by cases h))) fun _ => ?_
    refine Spec.bind (after_spec hlive hseen (modifyThread_atLive _) modifyState_writes)
      fun _ => ?_
    exact advance_consumes_at hconcrete hseen hreports
  · exact Spec.fail fun w h => After.held ⟨h.1, h.2.reported⟩ (by simp) hlive

theorem onSyscallExit_done (hkind : record.event.kind = .syscallExit) :
    Spec (fun w => w = v) (Mt.onSyscallExit arch record : Method (Journal ω) Unit)
      (fun _ => Done v record) (fun _ => Unconsumed v) := by
  have hconcrete : isConcrete record = true := by simp [isConcrete, hkind]
  refine finds_thread hdriven here hconcrete fun tid live => ?_
  have hlive (s : ReplaySession)
      (h : AtLive v.session record tid live s ∧ SameThreads v.session s) :
      AtLive v.session record tid live s := h.1
  refine Spec.bind (stepThread_stops arch hlive (AtLive.sameIgnoresHits ..) none) fun status => ?_
  split
  · rename_i pid
    have hnil : ∀ e ∈ ([] : List Entry), e.Rests := by simp
    refine Spec.bind ((after_spec hlive hnil (read_keeps arch live)
      (read_writes fun _ _ h => by cases h)).mono (fun w h => ⟨h.1, h.2.reported⟩)
        (fun _ _ h => h) (fun _ _ h => h)) fun regs => ?_
    refine Spec.bind (after_spec hlive hnil
      (modifySelf_keeps fun s hs => ⟨hs.1.congr rfl rfl rfl rfl rfl, hs.2⟩) Writes.modifySelf)
      fun _ => ?_
    refine orFail_bind (fun _ w h => After.held h hnil hlive) fun exit _ => ?_
    -- the answer is what was in flight when the round began
    refine Spec.bind (Q := fun pending w => pending = v.session.pendingOf live ∧
      After (AtLive v.session record tid live) live (.ptraceSyscall pid) [] v w) ?_
      fun pending => ?_
    · refine ((takePending_inFlight (E := fun _ _ => False)).and ((takeThread_writes _ _).reported
        live v.os.entries (.ptraceSyscall pid) [])).mono (fun _ h => h) ?_ fun _ _ h => h.1.elim
      exact fun pending w h => ⟨h.1.1, h.1.2, h.2⟩
    split
    · exact Spec.fail fun w h => After.held h.2 hnil fun s hs => hs
    rename_i inFlight
    refine Spec.assume fun hpending => ?_
    have hreports : Reports record live (v.session.pendingOf live) [] (.ptraceSyscall pid) := by
      simp only [Reports, hkind]
      rw [← hpending]
      rfl
    have hat (s : ReplaySession) (h : AtLive v.session record tid live s) :
        AtLive v.session record tid live s := h
    refine Spec.bind (after_spec hat hnil (injectResult_keeps arch live _ _)
      (injectResult_writes (fun _ _ h => by cases h) _ _)) fun _ => ?_
    exact advance_consumes_at hconcrete hnil hreports
  · exact Spec.fail fun w h => After.held ⟨h.1, h.2.reported⟩ (by simp) hlive

/-- At the directed thread's stop with the recorded signal. -/
theorem onSignal_done (hkind : record.event.kind = .signal) :
    Spec (fun w => w = v) (Mt.onSignal arch record : Method (Journal ω) Unit)
      (fun _ => Done v record) (fun _ => Unconsumed v) := by
  have hconcrete : isConcrete record = true := by simp [isConcrete, hkind]
  refine finds_thread hdriven here hconcrete fun tid live => ?_
  have hlive (s : ReplaySession) (h : AtLive v.session record tid live s) :
      AtLive v.session record tid live s := h
  refine Spec.bind (takeResumeSignal_before) fun sig => ?_
  refine Spec.bind (stepThread_stops arch hlive (AtLive.ignoresHits ..) sig) fun status => ?_
  have hnil : ∀ e ∈ ([] : List Entry), e.Rests := by simp
  split
  · rename_i pid delivered
    refine orFail_bind (fun _ w h => After.held ⟨h.1, h.2.reported⟩ hnil hlive)
      fun recorded hdecode => ?_
    split
    · exact Spec.fail fun w h => After.held ⟨h.1, h.2.reported⟩ hnil hlive
    rename_i hsignum
    -- The stop reports the recorded signal.
    have hreports : Reports record live (v.session.pendingOf live) [] (.stopped pid delivered) := by
      simp only [Reports, hkind]
      exact ⟨recorded, hdecode, not_not.mp hsignum⟩
    refine Spec.bind ((after_spec hlive hnil (modifyThread_atLive _) modifyState_writes).mono
      (fun w h => ⟨h.1, h.2.reported⟩) (fun _ _ h => h) (fun _ _ h => h)) fun _ => ?_
    exact advance_consumes_at hconcrete hnil hreports
  · exact Spec.fail fun w h => After.held ⟨h.1, h.2.reported⟩ hnil hlive

/-- At the directed thread's spawn. -/
theorem onThreadSpawn_done (hkind : record.event.kind = .threadSpawn) :
    Spec (fun w => w = v) (Mt.onThreadSpawn arch record : Method (Journal ω) Unit)
      (fun _ => Done v record) (fun _ => Unconsumed v) := by
  have hconcrete : isConcrete record = true := by simp [isConcrete, hkind]
  refine finds_thread hdriven here hconcrete fun tid parent => ?_
  have hlive (s : ReplaySession) (h : AtLive v.session record tid parent s) :
      AtLive v.session record tid parent s := h
  have hnil : ∀ e ∈ ([] : List Entry), e.Rests := by simp
  refine orFail_bind (fun _ w h => Stepping.held h fun s hs => hs.1) fun spawn _ => ?_
  refine Spec.bind takeResumeSignal_before fun sig => ?_
  refine Spec.bind (stepThread_stops arch hlive (AtLive.ignoresHits ..) sig) fun status => ?_
  split
  · rename_i pid signal event
    split
    · rename_i hspawn
      -- The stop is the event of a spawn; the child is waited for without a resumption.
      have hreports : Reports record parent (v.session.pendingOf parent) []
          (.ptraceEvent pid signal event) := by
        simp only [Reports, hkind]
        exact hspawn
      refine Spec.bind ((after_spec hlive hnil os_keeps Writes.silent).mono
        (fun w h => ⟨h.1, h.2.reported⟩) (fun _ _ h => h) (fun _ _ h => h)) fun child => ?_
      refine Spec.bind (after_spec hlive hnil (registerChild_keeps arch child record.seq)
        (registerChild_writes (fun _ _ h => by cases h) record.seq)) fun _ => ?_
      refine Spec.bind (after_spec hlive hnil (bindChild_atLive _ _ _ _ _)
        (bindChild_writes _ _ _ _ _))
        fun _ => ?_
      refine Spec.bind (after_spec hlive hnil (armChild_keeps arch child) (armChild_writes child))
        fun _ => ?_
      exact advance_consumes_at hconcrete hnil hreports
    · exact Spec.fail fun w h => After.held ⟨h.1, h.2.reported⟩ hnil hlive
  · exact Spec.fail fun w h => After.held ⟨h.1, h.2.reported⟩ hnil hlive

/-- The exit of the leader ends the replay; any other exit is consumed like a record. -/
theorem onThreadExit_done (hkind : record.event.kind = .threadExit) :
    Spec (fun w => w = v) (Mt.onThreadExit arch record : Method (Journal ω) (Option ExitOutcome))
      (Round (Done v record) fun _ => Over v record) (fun _ => Unconsumed v) := by
  have hconcrete : isConcrete record = true := by simp [isConcrete, hkind]
  refine finds_thread hdriven here hconcrete fun tid live => ?_
  have hlive (s : ReplaySession) (h : AtLive v.session record tid live s) :
      AtLive v.session record tid live s := h
  have hnil : ∀ e ∈ ([] : List Entry), e.Rests := by simp
  refine Spec.bind takeResumeSignal_before fun sig => ?_
  refine Spec.bind (stepThread_stops arch hlive (AtLive.ignoresHits ..) sig) fun status => ?_
  split
  · exact Spec.fail fun w h => After.held ⟨h.1, h.2.reported⟩ hnil hlive
  rename_i outcome houtcome
  -- Any end of the thread is the one that was recorded.
  have hreports : Reports record live (v.session.pendingOf live) [] status := by
    cases status with
    | exited pid code => simp [Reports, hkind]
    | signaled pid signal core => simp [Reports, hkind]
    | _ => cases houtcome
  refine Spec.bind state_reads fun mt => ?_
  refine Spec.bind (Q := fun _ w =>
    Gone v.session record tid live (live = mt.leader) w.session ∧
      Reported live v.os.entries status [] w) ?_ fun _ => ?_
  · refine modifyState_updates ?_
    rintro w mt' ⟨⟨hat, hstopped⟩, hmt⟩ hmt'
    rcases Option.some.inj (hmt.symm.trans hmt') with rfl
    refine ⟨hat.gone hconcrete (hat.expected mt hmt) ?_, hstopped.reported⟩
    exact (hat.followed mt hmt).removeThread (hat.bound mt hmt) _
  refine Spec.bind (Q := fun _ w => ∃ s, w.session = s.consume record.seq ∧
    Gone v.session record tid live (live = mt.leader) s ∧ Resumes v w ∧ Consumes v w record) ?_
    fun _ => ?_
  · refine Spec.update ?_
    rintro w ⟨hgone, hreported⟩
    exact ⟨w.session, rfl, hgone, hreported.resumes hnil hgone.target,
      hreported.consumes hgone.here hgone.target (congrArg (· + 1) hgone.cursor) hnil hreports rfl⟩
  split
  · -- The leader: the session is over, and the schedule with it.
    rename_i hleader
    refine Spec.bind (Q := fun _ => Over v record) ?_ fun _ => Spec.pure fun _ h => h
    refine Spec.update ?_
    rintro w ⟨s, hs, hgone, hresumes, hconsumes⟩
    rw [decide_eq_true hleader] at hgone
    refine { scheduled := ?_, resumes := hresumes, consumes := ?_ }
    · show Scheduled { w.session with finished := some outcome }
      rw [hs]
      exact hgone.consume record.seq rfl
    · exact { here := hconsumes.here, cursor := hconsumes.cursor, stop := hconsumes.stop }
  · rename_i hleader
    refine Spec.pure ?_
    rintro w ⟨s, hs, hgone, hresumes, hconsumes⟩
    rw [decide_eq_false hleader] at hgone
    refine { driven := ?_, resumes := hresumes, consumes := hconsumes }
    rw [hs]
    exact { toScheduled := hgone.consume record.seq (congrArg _ hgone.unfinished),
            unfinished := hgone.unfinished, state := hgone.state }

omit [Ptrace arch ω] [Unwind ω] in
/-- A switch resumes nobody; from it on another thread is directed. -/
theorem onSchedSwitch_done (hkind : record.event.kind = .schedSwitch) :
    Spec (fun w => w = v) (Mt.onSchedSwitch record : Method (Journal ω) Unit)
      (fun _ => Done v record) (fun _ => Unconsumed v) := by
  have hheld (w : World (Journal ω)) (hw : w = v) : Unconsumed v w := by
    subst hw
    exact { waiting := { toDriven := hdriven, cursor := rfl },
            resumes := ⟨[], (List.append_nil _).symm, by simp⟩ }
  refine orFail_bind (fun _ w hw => hheld w hw) fun switch hdecode => ?_
  have hswitch : switchedTo record = some switch.tid := by
    simp [switchedTo, hkind, hdecode]
  refine Spec.bind (Q := fun _ w => ∃ mt, v.session.mt = some mt ∧
    w = { v with session := { v.session with
      mt := some { mt with expectedTid := some switch.tid } } }) ?_ fun _ => ?_
  · refine modifyState_updates ?_
    rintro w mt rfl hmt
    exact ⟨mt, hmt, rfl⟩
  refine Spec.update ?_
  rintro w ⟨mt, hmt, rfl⟩
  -- Only the expected thread changes, and it is the one directed from here on.
  have hfollowed := (hdriven.followed mt hmt).withExpected (some switch.tid)
  refine { driven := ?_, resumes := ⟨[], (List.append_nil _).symm, by simp⟩, consumes := ?_ }
  · refine { noSnapshots := hdriven.noSnapshots, entry := fun hnone => (by cases hnone),
             expects := ?_, followed := ?_, unfinished := hdriven.unfinished, state := ⟨_, rfl⟩ }
    · intro mt' hmt'
      rcases Option.some.inj hmt' with rfl
      show directed v.session.records (v.session.cursor + 1) = some switch.tid
      rw [directed_succ here, hswitch]
      rfl
    · intro mt' hmt'
      rcases Option.some.inj hmt' with rfl
      exact hfollowed
  · refine { here, cursor := rfl, stop := ?_ }
    intro hconcrete
    simp [isConcrete, hkind] at hconcrete

omit [Unwind ω] [Ptrace arch ω] in
/-- Passing a checkpoint record. -/
theorem passCheckpoint_done (hkind : record.event.kind = .checkpoint) :
    Done v record { v with session := { v.session with cursor := v.session.cursor + 1 } } := by
  have hconcrete : isConcrete record = false := by simp [isConcrete, hkind]
  have hswitch : switchedTo record = none := by simp [switchedTo, hkind]
  refine { driven := ?_, resumes := ⟨[], (List.append_nil _).symm, by simp⟩, consumes := ?_ }
  · refine { noSnapshots := hdriven.noSnapshots, entry := ?_, expects := ?_,
             followed := hdriven.followed, unfinished := hdriven.unfinished,
             state := hdriven.state }
    · intro hnone
      obtain ⟨mt, hmt⟩ := hdriven.state
      rw [show v.session.mt = none from hnone] at hmt
      cases hmt
    · intro mt hmt
      have hexpects := hdriven.expects mt hmt
      -- The record directs nobody, so whoever was expected still is.
      cases hexpected : mt.expectedTid with
      | none =>
        rw [hexpected] at hexpects
        exact Unstarted.succ hexpects here hconcrete hswitch
      | some tid =>
        rw [hexpected] at hexpects
        show directed v.session.records (v.session.cursor + 1) = some tid
        rw [directed_succ here, hswitch]
        exact hexpects
  · refine { here, cursor := rfl, stop := ?_ }
    intro h
    rw [hconcrete] at h
    cases h

omit [Ptrace arch ω] [Unwind ω] hdriven here in
theorem andNone_done {m : Method (Journal ω) Unit}
    (h : Spec (fun w => w = v) m (fun _ => Done v record) (fun _ => Unconsumed v)) :
    Spec (fun w => w = v) (do m; pure (none : Option ExitOutcome))
      (Round (Done v record) fun _ => Over v record) (fun _ => Unconsumed v) :=
  Spec.bind h fun _ => Spec.pure fun _ hs => hs

/-- Every record is consumed, or its round fails where it stands. -/
theorem onRecord_done :
    Spec (fun w => w = v) (Mt.onRecord arch record : Method (Journal ω) (Option ExitOutcome))
      (Round (Done v record) fun _ => Over v record) (fun _ => Unconsumed v) := by
  -- One handler for each kind; the kinds of one process end the drive.
  unfold Mt.onRecord
  split
  · rename_i hkind
    refine Spec.bind (Q := fun _ => Done v record) ?_ fun _ => Spec.pure fun _ hs => hs
    refine Spec.update ?_
    rintro w rfl
    exact passCheckpoint_done hdriven here hkind
  · rename_i hkind
    exact andNone_done (onSchedSwitch_done hdriven here hkind)
  · rename_i hkind
    exact andNone_done (onSyscallEnter_done arch hdriven here hkind)
  · rename_i hkind
    exact andNone_done (onSyscallExit_done arch hdriven here hkind)
  · rename_i hkind
    exact andNone_done (onThreadSpawn_done arch hdriven here hkind)
  · rename_i hkind
    exact onThreadExit_done arch hdriven here hkind
  · rename_i hkind
    exact andNone_done (onSignal_done arch hdriven here hkind)
  · refine Spec.fail ?_
    rintro w rfl
    exact { waiting := { toDriven := hdriven, cursor := rfl },
            resumes := ⟨[], (List.append_nil _).symm, by simp⟩ }

omit here in
/-- One round of the driver. -/
theorem driveRound_obeys (stopAt : Option UInt64) :
    Spec (fun w => w = v) (Mt.driveRound arch stopAt : Method (Journal ω) (Option ExitOutcome))
      (Round (fun w => Driven w.session ∧ Obeys v w) fun _ w => Scheduled w.session ∧ Obeys v w)
      (fun _ w => Driven w.session ∧ Obeys v w) := by
  -- A round that consumes nothing obeys by doing nothing.
  have hstays : Obeys v v := ⟨⟨[], (List.append_nil _).symm, by simp⟩, .inl rfl⟩
  refine Spec.bind (Q := fun s w => w = v ∧ s = v.session) ?_ fun s => ?_
  · intro w hw r w' hexec
    rcases Prod.mk.inj (Option.some.inj hexec) with ⟨rfl, rfl⟩
    exact ⟨hw, congrArg _ hw⟩
  split
  · refine Spec.pure ?_
    rintro w ⟨rfl, -⟩
    exact ⟨hdriven.toScheduled, hstays⟩
  split
  · refine Spec.fail ?_
    rintro w ⟨rfl, -⟩
    exact ⟨hdriven, hstays⟩
  rename_i record here
  rintro w ⟨rfl, rfl⟩
  refine (onRecord_done arch hdriven here).mono (fun _ h => h) ?_ ?_ w rfl
  · intro outcome w' hw'
    cases outcome with
    | none => exact ⟨hw'.driven, hw'.resumes, .inr ⟨record, hw'.consumes⟩⟩
    | some outcome => exact ⟨hw'.scheduled, hw'.resumes, .inr ⟨record, hw'.consumes⟩⟩
  · intro e w' hw'
    exact ⟨hw'.waiting.toDriven, hw'.resumes, .inl hw'.waiting.cursor⟩

end Rounds

/-! ## Whole sessions -/

section Sessions

variable {ω : Type} (arch : Arch) [Ptrace arch ω] [Unwind ω]

omit [Unwind ω] in
/-- The first entry seats the leader alone, and resumes no thread. -/
theorem ensureState_driven :
    Spec (On fun s => Scheduled s ∧ s.finished = none)
      (Mt.ensureState arch : Method (Journal ω) Unit) (fun _ => On Driven)
      (fun _ => On Scheduled) := by
  refine Spec.bind self_spec fun s => ?_
  split
  · rename_i mt hmt
    refine Spec.pure ?_
    rintro w ⟨⟨hs, hfinished⟩, rfl⟩
    exact { toScheduled := hs, unfinished := hfinished, state := ⟨mt, hmt⟩ }
  · rename_i hmt
    refine Spec.bind (Q := fun _ => On fun s => (Scheduled s ∧ s.finished = none) ∧ s.mt = none)
      ?_ fun _ => ?_
    · refine os_keeps.mono ?_ (fun _ _ h => h) (fun _ _ h => h.1.1)
      rintro w ⟨hs, rfl⟩
      exact ⟨hs, hmt⟩
    refine modifySelf_spec ?_
    rintro s ⟨⟨hs, hfinished⟩, hnone⟩
    refine { noSnapshots := hs.noSnapshots, entry := fun h => (by cases h), expects := ?_,
             followed := ?_, unfinished := hfinished, state := ⟨_, rfl⟩ }
    · intro mt hmt
      rcases Option.some.inj hmt with rfl
      -- at process entry no record was passed
      show Unstarted s.records s.cursor
      rw [hs.entry hnone]
      intro r hr
      simp at hr
    · intro mt hmt
      rcases Option.some.inj hmt with rfl
      rw [show s.finished = none from hfinished]
      refine { exact := ?_, fresh := ?_, leader := ?_ }
      · rintro (h | h)
        · cases TidMap.isEmpty_new.symm.trans h
        · cases h
      · intro _ _ p
        refine (follows_insert (MtState.new s.pid) s.pid p {}).trans ?_
        simp [MtState.Follows, MtState.new]
      · intro h
        simp [MtState.new] at h

theorem mtDrive_scheduled (stopAt : Option UInt64) :
    Spec (On fun s => Scheduled s ∧ s.finished = none)
      (Mt.drive arch stopAt : Method (Journal ω) ExitOutcome) (fun _ => On Scheduled)
      (fun _ => On Scheduled) := by
  refine Spec.bind (ensureState_driven arch) fun _ => ?_
  refine Spec.loop (Spec.intro fun v hv => ?_)
  refine (driveRound_obeys arch hv stopAt).mono (fun _ h => h) ?_ fun _ w h => h.1.toScheduled
  intro outcome w hw
  cases outcome with
  | none => exact hw.1
  | some outcome => exact hw.1

/-- A scheduled session on a multi-threaded trace. -/
def MtScheduled (s : ReplaySession) : Prop := s.multithreaded = true ∧ Scheduled s

theorem Scheduled.congr {s s' : ReplaySession} (h : Scheduled s)
    (hcheckpoints : s'.checkpoints = s.checkpoints) (hrecords : s'.records = s.records)
    (hcursor : s'.cursor = s.cursor) (hfinished : s'.finished = s.finished) (hmt : s'.mt = s.mt) :
    Scheduled s' where
  noSnapshots := hcheckpoints.trans h.noSnapshots
  entry := by rw [hmt, hcursor]; exact h.entry
  expects := by rw [hmt, hrecords, hcursor]; exact h.expects
  followed := by rw [hmt, hfinished]; exact h.followed

theorem MtScheduled.entryLaws : EntryLaws MtScheduled where
  unwinder _ _ h := ⟨h.1, h.2.congr rfl rfl rfl rfl rfl⟩
  hits _ _ _ h := ⟨h.1, h.2.congr rfl rfl rfl rfl rfl⟩
  watchpoint _ _ h := ⟨h.1, h.2.congr rfl rfl rfl rfl rfl⟩
  interval _ _ h := ⟨h.1, h.2.congr rfl rfl rfl rfl rfl⟩
  noSnapshots _ h := h.2.noSnapshots
  entry _ _ h := by
    refine ⟨h.1, { noSnapshots := h.2.noSnapshots, entry := fun _ => rfl, expects := ?_,
                   followed := ?_ }⟩
    · intro mt hmt
      cases hmt
    · intro mt hmt
      cases hmt

theorem drive_scheduled (stopAt : Option UInt64) :
    KeepsSession MtScheduled (drive arch stopAt : Method (Journal ω) ExitOutcome) := by
  have hfixed : Fixed fun s => s.multithreaded = true := fun _ _ _ _ h hs => h.trans hs
  refine Spec.bind self_spec fun s => ?_
  split
  · refine Spec.pure ?_
    rintro w ⟨hs, rfl⟩
    exact hs
  rename_i hfinished
  split
  · refine ((hfixed.mtDrive arch stopAt).and (mtDrive_scheduled arch stopAt)).mono ?_
      (fun _ _ h => h) (fun _ _ h => h)
    rintro w ⟨⟨hmulti, hs⟩, rfl⟩
    exact ⟨hmulti, hs, hfinished⟩
  · rename_i hsingle
    rintro w ⟨⟨hmulti, -⟩, rfl⟩
    exact absurd hmulti hsingle

/-- In every state of a session on a multi-threaded trace, it is scheduled. -/
theorem Reachable.scheduled {w : World (Journal ω)} (h : Reachable arch w)
    (hmulti : w.session.multithreaded = true) : Scheduled w.session := by
  induction h with
  | @launch cmdline records os w hlaunch =>
    obtain ⟨pid, hs⟩ := launch_session arch hlaunch
    rw [hs]
    exact { noSnapshots := rfl, entry := fun _ => rfl, expects := fun mt hmt => (by cases hmt),
            followed := fun mt hmt => (by cases hmt) }
  | @call w w' r hw c hcall ih =>
    rw [(perform_fixed arch hcall).2.2] at hmulti
    have hkeep : KeepsSession MtScheduled (perform arch c : Method (Journal ω) _) :=
      perform_keeps arch MtScheduled.entryLaws.toIgnoresWatch
        (fun s seq => restart_spec arch MtScheduled.entryLaws seq s)
        (fun stopAt => drive_scheduled arch stopAt) c
    have hpost := hkeep w ⟨hmulti, ih hmulti⟩ r w' hcall
    cases r with
    | ok a => exact hpost.2
    | error e => exact hpost.2

variable {arch}

omit [Unwind ω] in
theorem ensureState_entries {w w' : World (Journal ω)} {r : Except ReplayError Unit}
    (h : exec (Mt.ensureState arch) w = some (r, w')) : w'.os.entries = w.os.entries := by
  have hwrites : Silent (Mt.ensureState arch : Method (Journal ω) Unit) := by
    refine Writes.bind Writes.self fun s => ?_
    split
    · exact Writes.pure
    · exact Writes.bind Writes.silent fun _ => Writes.modifySelf
  exact hwrites.entries h

/-- In every round of every drive of a multi-threaded session, whatever the waits answer:
only the directed thread is resumed, a record is consumed only at its stop, and before and
after the round the threads followed are exactly those bound. -/
theorem drive_directed {w w₁ v v' : World (Journal ω)} {stopAt : Option UInt64} {n : Nat}
    {r : Except ReplayError (Option ExitOutcome)} (hw : Reachable arch w)
    (hmulti : w.session.multithreaded = true) (hrunning : w.session.finished = none)
    (hseat : exec (Mt.ensureState arch) w = some (.ok (), w₁))
    (hrounds : Rounds (Mt.driveRound arch stopAt) n w₁ v)
    (hround : exec (Mt.driveRound arch stopAt) v = some (r, v')) :
    w₁.os.entries = w.os.entries ∧ Obeys v v' ∧ ExactlyFollowed v.session ∧
      ExactlyFollowed v'.session := by
  have hseated : Driven w₁.session :=
    (ensureState_driven arch).ok ⟨hw.scheduled arch hmulti, hrunning⟩ hseat
  have hdriven : Driven v.session := by
    refine hrounds.invariant (fun u => Driven u.session) ?_ hseated
    intro u u' hu hexec
    exact ((driveRound_obeys arch hu stopAt).ok rfl hexec).1
  have hpost := driveRound_obeys arch hdriven stopAt v rfl r v' hround
  refine ⟨ensureState_entries hseat, ?_⟩
  cases r with
  | error e => exact ⟨hpost.2, hdriven.toScheduled.exactlyFollowed, hpost.1.exactlyFollowed⟩
  | ok outcome =>
    cases outcome with
    | none => exact ⟨hpost.2, hdriven.toScheduled.exactlyFollowed, hpost.1.exactlyFollowed⟩
    | some outcome =>
      exact ⟨hpost.2, hdriven.toScheduled.exactlyFollowed, hpost.1.exactlyFollowed⟩

end Sessions

/-- A trace that switches to thread 7, which enters a syscall and exits. -/
def switchFirst : List Record :=
  [⟨0, .newWithTid .schedSwitch 0 7 [7, 0, 0, 0]⟩,
   ⟨1, .newWithTid .syscallEnter 0 7 (SyscallEnter.encode ⟨231, Vector.replicate 6 0⟩)⟩,
   ⟨2, .newWithTid .threadExit 0 7 []⟩]

/-- On this trace the live thread 1 is resumed for thread 7, and the entry is consumed at
its stop. -/
theorem drive_directed_switchFirst :
    ∃ w w₁ v v' : World (Journal (Script .x86_64)),
      Reachable .x86_64 w ∧ w.session.records = switchFirst ∧
      exec (Mt.ensureState .x86_64) w = some (.ok (), w₁) ∧
      Rounds (Mt.driveRound .x86_64 none) 1 w₁ v ∧
      exec (Mt.driveRound .x86_64 none) v = some (.ok none, v') ∧
      v'.os.entries = v.os.entries ++ [.resumed 1, .waited 1 (.ptraceSyscall 1),
        .registers 1 (normalize .x86_64 (regsWithNr .x86_64 231))] ∧
      Target v.session 1 ∧ Obeys v v' := by
  let script : Script .x86_64 :=
    ⟨[.stopped 1 .trap, .ptraceSyscall 1, .exited 1 0], regsWithNr .x86_64 231⟩
  obtain ⟨w, w₁, v, v', hlaunch, hseat, hfirst, hround, hentries, hrecords, hmulti, hrunning⟩ :
      ∃ w w₁ v v' : World (Journal (Script .x86_64)),
        exec (launch .x86_64) ⟨ReplaySession.ofTrace ⟨"true", []⟩ switchFirst, ⟨script, []⟩⟩ =
          some (.ok (), w) ∧
        exec (Mt.ensureState .x86_64) w = some (.ok (), w₁) ∧
        exec (Mt.driveRound .x86_64 none) w₁ = some (.ok none, v) ∧
        exec (Mt.driveRound .x86_64 none) v = some (.ok none, v') ∧
        v'.os.entries = v.os.entries ++ [.resumed 1, .waited 1 (.ptraceSyscall 1),
          .registers 1 (normalize .x86_64 (regsWithNr .x86_64 231))] ∧
        w.session.records = switchFirst ∧ w.session.multithreaded = true ∧
        w.session.finished = none :=
    ⟨_, _, _, _, rfl, rfl, rfl, rfl, rfl, rfl, rfl, rfl⟩
  have hreachable : Reachable .x86_64 w := .launch hlaunch
  have hrounds : Rounds (Mt.driveRound .x86_64 none) 1 w₁ v := .succ hfirst (.zero v)
  have hobeys : Obeys v v' :=
    (drive_directed hreachable hmulti hrunning hseat hrounds hround).2.1
  refine ⟨w, w₁, v, v', hreachable, hrecords, hseat, hrounds, hround, hentries, ?_, hobeys⟩
  -- thread 1 was resumed, so it was the directed one
  obtain ⟨new, hnew, htargets⟩ := hobeys.1
  refine htargets 1 ?_
  rw [List.append_cancel_left (hnew.symm.trans hentries)]
  exact List.mem_cons_self

end Mirrorscope.Replay
