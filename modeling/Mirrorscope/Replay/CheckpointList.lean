import Mirrorscope.Replay.Rewind

/-! # The checkpoint list

What a session on one tracee knows of its snapshots, in every state it passes
through: they ascend by at least the interval in force, each was taken between
syscalls right after the record it is named by, and the start point for a target
is the last of them that is not after it.

A session on one tracee is followed step by step:
* `Step`, `Steps`: a round of the driver, a restart, or a new interval. `perform_steps`: every
  call that travels is a run of these.
* `Took`: a round took a checkpoint; `round_cases`: it takes one or none.
* `Listed`: the invariant on the list, and `Listed.step` the step it survives.
* `checkpoints_listed`: it holds in every state of a session on a recorded trace.
-/

namespace Mirrorscope.Replay

open ByteIO (ByteVec Write)
open Capture Linux Run
open Trace (Cmdline Record TraceWriter)

variable {ω : Type} {arch : Arch} [Ptrace arch ω] [Unwind ω]

/-! ## Steps of a session -/

variable (arch) in
/-- A session goes on by setting the interval, by a restart for a target, or by one round of
the driver; the last two may fail. -/
inductive Step : World ω → World ω → Prop where
  | interval (w : World ω) (n : UInt64) :
      Step w { w with session := { w.session with checkpointInterval := n } }
  | restart {w w' : World ω} {r : Except ReplayError Unit} (target : UInt64)
      (h : exec (restart arch (planStart w.session target)) w = some (r, w')) : Step w w'
  | round {w w' : World ω} {r : Except ReplayError (Option ExitOutcome)} (stopAt : Option UInt64)
      (h : exec (driveRound arch stopAt) w = some (r, w')) : Step w w'

variable (arch) in
/-- Any number of steps. -/
abbrev Steps : World ω → World ω → Prop :=
  Relation.ReflTransGen (Step arch)

/-- The calls that move a session along its trace. -/
def SessionCall.travels : SessionCall → Bool
  | runTo _ | stepTo _ | runToEnd | restoreTo _ | checkpointInterval _ => true
  | _ => false

theorem rounds_steps {stopAt : Option UInt64} {n : Nat} {w w' : World ω}
    (h : Rounds (driveRound arch stopAt) n w w') : Steps arch w w' := by
  induction h with
  | zero w => exact .refl
  | succ first _ ih => exact .head (.round stopAt first) ih

/-- A drive on one tracee is a sequence of rounds. -/
theorem drive_steps {stopAt : Option UInt64} {w w' : World ω} {r : Except ReplayError ExitOutcome}
    (hsingle : w.session.multithreaded = false)
    (h : exec (drive arch stopAt) w = some (r, w')) : Steps arch w w' := by
  unfold drive at h
  rw [bind_ok (exec_self w)] at h
  split at h
  · rcases Prod.mk.inj (Option.some.inj h) with ⟨-, rfl⟩
    exact .refl
  · rw [hsingle] at h
    rcases loop_inv h with ⟨n, u, hrounds, ⟨a, ha, -⟩ | ⟨e, he, -⟩⟩
    · exact (rounds_steps hrounds).tail (.round stopAt ha)
    · exact (rounds_steps hrounds).tail (.round stopAt he)

omit [Unwind ω] in
/-- A method that is followed by an answer only. -/
theorem answer_inv {α β : Type} {m : Method ω α} {f : α → β} {w w' : World ω}
    {r : Except ReplayError β} (h : exec (do let a ← m; pure (f a)) w = some (r, w')) :
    ∃ r', exec m w = some (r', w') := by
  rcases bind_inv h with ⟨e, he, -⟩ | ⟨a, u, ha, hrest⟩
  · exact ⟨_, he⟩
  · rcases Prod.mk.inj (Option.some.inj hrest) with ⟨-, rfl⟩
    exact ⟨_, ha⟩

omit [Unwind ω] in
/-- A restart does not change which driver is used. -/
theorem restart_fixed {start : StartPoint} {w w' : World ω} {r : Except ReplayError Unit}
    (h : exec (restart arch start) w = some (r, w')) :
    w'.session.multithreaded = w.session.multithreaded := by
  have hfixed : Fixed fun s => s.multithreaded = w.session.multithreaded :=
    fun _ _ _ _ hm hs => hm.trans hs
  have hpost := hfixed.restart arch start w rfl r w' h
  cases r with
  | ok a => exact hpost
  | error e => exact hpost

/-- A call on one tracee is a sequence of steps. -/
theorem perform_steps {c : SessionCall} {w w' : World ω}
    {r : Except ReplayError (Option ExitOutcome)} (hsingle : w.session.multithreaded = false)
    (hc : c.travels = true) (h : exec (perform arch c) w = some (r, w')) : Steps arch w w' := by
  cases c with
  | runTo seq =>
    rcases answer_inv h with ⟨r', hrun⟩
    unfold runTo at hrun
    rw [bind_ok (exec_self w)] at hrun
    -- The call may start by a restart, and then drives.
    cases hrestart : shouldRestart w.session.currentSeq (planStart w.session seq).seq seq with
    | false =>
      simp only [hrestart, when_false] at hrun
      exact drive_steps hsingle hrun
    | true =>
      simp only [hrestart, when_true] at hrun
      rcases bind_inv hrun with ⟨e, he, -⟩ | ⟨_, u, hu, hdrive⟩
      · exact .single (.restart seq he)
      · exact .head (.restart seq hu) (drive_steps ((restart_fixed hu).trans hsingle) hdrive)
  | stepTo seq =>
    rcases answer_inv h with ⟨r', hrun⟩
    exact drive_steps hsingle hrun
  | runToEnd =>
    rcases answer_inv h with ⟨r', hrun⟩
    exact drive_steps hsingle hrun
  | restoreTo seq =>
    rcases answer_inv h with ⟨r', hrun⟩
    unfold restoreTo at hrun
    rw [bind_ok (exec_self w)] at hrun
    exact .single (.restart seq hrun)
  | checkpointInterval n =>
    rcases answer_inv h with ⟨r', hrun⟩
    rcases Prod.mk.inj (Option.some.inj hrun) with ⟨-, rfl⟩
    exact .single (.interval w n)
  | watch addr len kind => cases hc
  | clearWatch => cases hc
  | takeWatchHits => cases hc

/-! ## What a step does to the list -/

/-- A session whose last checkpoint was just taken. -/
structure JustTaken (cs : List CheckpointInfo) (c : CheckpointInfo) (s : ReplaySession) : Prop where
  checkpoints : s.checkpoints = cs ++ [c]
  idle : s.pending = none
  seq : s.currentSeq = some c.seq
  currentSeq : c.currentSeq = some c.seq
  cursor : c.cursor = s.cursor
  due : isCheckpointDue (cs.getLast?.map (·.seq)) c.seq s.checkpointInterval = true

/-- The list as it was, or with one more checkpoint. -/
def AtMostOne (cs : List CheckpointInfo) (s : ReplaySession) : Prop :=
  s.checkpoints = cs ∨ ∃ c, JustTaken cs c s

variable (cs : List CheckpointInfo)

omit [Unwind ω] in
/-- A snapshot appends to the list, if it is taken. -/
theorem maybeCheckpoint_list :
    Spec (On fun s => s.checkpoints = cs) (maybeCheckpoint arch : Method ω Unit)
      (fun _ => On (AtMostOne cs)) (fun _ => On fun s => s.checkpoints = cs) := by
  have hskip {s : ReplaySession} : Spec (fun w : World ω => s.checkpoints = cs ∧ w.session = s)
      (pure () : Method ω Unit) (fun _ => On (AtMostOne cs))
      (fun _ => On fun s => s.checkpoints = cs) := by
    apply Spec.pure
    rintro w ⟨hs, rfl⟩
    exact .inl hs
  apply Spec.bind self_spec
  intro s
  split
  · exact hskip
  split
  · exact hskip
  rename_i hpending
  have hidle : s.pending = none := by simpa using hpending
  split
  · exact hskip
  rename_i seq hseq
  split
  · exact hskip
  rename_i hdue
  rintro w ⟨hs, rfl⟩
  -- the session does not change while the snapshot is made
  refine Spec.bind (P := On fun s => s = w.session) (Q := fun _ => On fun s => s = w.session)
    ?_ ?_ w rfl
  · exact (forkSnapshot_keeps arch w.session.pid).mono (fun _ h => h) (fun _ _ h => h)
      fun _ _ h => (congrArg ReplaySession.checkpoints h).trans hs
  · intro snapshot
    apply modifySelf_spec
    rintro _ rfl
    exact .inr ⟨_, congrArg (· ++ _) hs, hidle, hseq, hseq, rfl, by simpa [hs] using hdue⟩

/-- In a round at most one is taken. -/
theorem driveRound_list :
    Spec (On fun s => s.checkpoints = cs) (driveRound arch none : Method ω (Option ExitOutcome))
      (Round (On (AtMostOne cs)) fun _ => On fun s => s.checkpoints = cs)
      (fun _ => On fun s => s.checkpoints = cs) := by
  have hignores : IgnoresDriver fun s => s.checkpoints = cs :=
    ⟨⟨fun _ _ h => h, fun _ _ _ h => h⟩, fun _ _ _ _ _ _ h => h⟩
  have hfinish (outcome : ExitOutcome) :
      Spec (On fun s => s.checkpoints = cs) (finish outcome : Method ω (Option ExitOutcome))
        (Round (On (AtMostOne cs)) fun _ => On fun s => s.checkpoints = cs)
        (fun _ => On fun s => s.checkpoints = cs) :=
    Spec.bind (modifySelf_keeps fun _ h => h) fun _ => Spec.pure fun _ h => h
  refine Spec.bind self_keeps fun s => ?_
  simp only [reached, Bool.false_eq_true, if_false]
  refine Spec.bind (modifySelf_keeps fun _ h => h) fun _ => ?_
  refine Spec.bind os_keeps fun _ => ?_
  refine Spec.bind os_keeps fun status => ?_
  unfold onStatus
  split
  · refine Spec.bind (hignores.onSyscallStop arch) fun _ => ?_
    exact Spec.bind (maybeCheckpoint_list cs) fun _ => Spec.pure fun _ h => h
  · exact Spec.bind (hignores.ignoresRecords.onStopped arch s.pid _) fun _ => Spec.pure fun _ h => .inl h
  · exact hfinish _
  · exact hfinish _
  · exact Spec.pure fun _ h => .inl h

omit [Unwind ω] in
/-- A restart keeps the list. -/
theorem restart_list {start : StartPoint} {w w' : World ω} {r : Except ReplayError Unit}
    (h : exec (restart arch start) w = some (r, w')) :
    w'.session.checkpoints = w.session.checkpoints := by
  have hkeeps : KeepsSession (fun s => s.checkpoints = w.session.checkpoints)
      (restart arch start : Method ω Unit) := by
    unfold restart
    split
    · refine Keeps.bind self_keeps fun s => ?_
      split
      · exact Keeps.never
      · refine Keeps.bind (forkSnapshot_keeps arch _) fun fresh => ?_
        refine Keeps.bind (killActive_keeps arch) fun _ => ?_
        refine Keeps.bind (modifySelf_keeps fun _ h => h) fun _ => ?_
        exact rearmWatchpoint_keeps arch fun _ _ h => h
    · refine Keeps.bind (killActive_keeps arch) fun _ => ?_
      refine Keeps.bind self_keeps fun s => ?_
      refine Keeps.bind (spawnStopped_keeps arch s.cmdline) fun pid => ?_
      refine Keeps.bind (modifySelf_keeps fun _ h => h) fun _ => ?_
      exact rearmWatchpoint_keeps arch fun _ _ h => h
  have hpost := hkeeps w rfl r w' h
  cases r with
  | ok a => exact hpost
  | error e => exact hpost

variable {w w' f : World ω}

/-- The step took the checkpoint, right after it consumed the record it is named by. -/
structure Took (c : CheckpointInfo) (w w' : World ω) : Prop where
  taken : JustTaken w.session.checkpoints c w'.session
  consumed : ConsumedNext w.session.records w.session.cursor w'.session

theorem round_cases {stopAt : Option UInt64} {r : Except ReplayError (Option ExitOutcome)}
    (h : exec (driveRound arch stopAt) w = some (r, w')) :
    w'.session.checkpoints = w.session.checkpoints ∨ ∃ c, Took c w w' := by
  rw [driveRound_upTo] at h
  cases hstop : atTarget stopAt w with
  | true =>
    rw [exec_upTo_stop hstop] at h
    rcases Prod.mk.inj (Option.some.inj h) with ⟨-, rfl⟩
    exact .inl rfl
  | false =>
    rw [exec_upTo_go hstop] at h
    have hlist := driveRound_list w.session.checkpoints w rfl r w' h
    cases r with
    | error e => exact .inl hlist
    | ok answer =>
      cases answer with
      | some outcome => exact .inl hlist
      | none =>
        rcases hlist with hsame | ⟨c, htaken⟩
        · exact .inl hsame
        · -- A snapshot stands after a consumed record, so the round has consumed one.
          have hround := (driveRound_progress w.session.checkpoints).ok
            ⟨atPos_self w.session, rfl⟩ h
          rcases hround.2 with hsame | hconsumed
          · have hcs := htaken.checkpoints
            rw [hsame] at hcs
            simp at hcs
          · exact .inr ⟨c, htaken, hconsumed.1⟩

/-- Every step keeps what is set at launch. -/
theorem step_fixed {P : ReplaySession → Prop} (hfixed : Fixed P) (h : Step arch w w')
    (hw : P w.session) : P w'.session := by
  cases h with
  | interval n => exact hfixed w.session _ rfl rfl rfl hw
  | @restart _ r target h =>
    have hpost := hfixed.restart arch _ w hw r w' h
    cases r with
    | ok a => exact hpost
    | error e => exact hpost
  | @round _ r stopAt h =>
    have hpost := hfixed.driveRound arch stopAt w hw r w' h
    cases r with
    | ok a => exact hpost
    | error e => exact hpost

/-- Every step adds one checkpoint at most. -/
theorem step_cases (h : Step arch w w') :
    w'.session.checkpoints = w.session.checkpoints ∨ ∃ c, Took c w w' := by
  cases h with
  | interval n => exact .inl rfl
  | restart target h => exact .inl (restart_list h)
  | round stopAt h => exact round_cases h

theorem steps_fixed {P : ReplaySession → Prop} (hfixed : Fixed P) (h : Steps arch f w)
    (hf : P f.session) : P w.session := by
  induction h with
  | refl => exact hf
  | tail _ hstep ih => exact step_fixed hfixed hstep ih

/-! ## The list of a session -/

/-- Where and when a checkpoint was taken: in a step of the session that ended with no syscall
pending, `k` checkpoints being there before, the last of them at least an interval away. -/
structure TakenAt (arch : Arch) [Ptrace arch ω] [Unwind ω] (f w : World ω) (k : Nat)
    (c : CheckpointInfo) (v v' : World ω) : Prop where
  before : Steps arch f v
  step : Step arch v v'
  after : Steps arch v' w
  earlier : v.session.checkpoints = w.session.checkpoints.take k
  took : v'.session.checkpoints = w.session.checkpoints.take k ++ [c]
  idle : v'.session.pending = none
  apart : ∀ last, (w.session.checkpoints.take k).getLast? = some last →
    last.seq.toNat + v'.session.checkpointInterval.toNat ≤ c.seq.toNat

/-- What the checkpoint list of a session launched as `f` is in state `w`. -/
structure Listed (arch : Arch) [Ptrace arch ω] [Unwind ω] (f w : World ω) : Prop where
  ascending : (w.session.checkpoints.map (·.seq)).Pairwise (· < ·)
  taken : ∀ (k : Nat) (c : CheckpointInfo), w.session.checkpoints[k]? = some c →
    ∃ v v', TakenAt arch f w k c v v'
  stored : ∀ c ∈ w.session.checkpoints, c.currentSeq = some c.seq ∧
    ∃ m r, w.session.records[m]? = some r ∧ r.seq = c.seq ∧ c.cursor = m + 1
  planned : ∀ (t : UInt64) (k : Nat), (planStart w.session t).index = some k →
    ∃ c, w.session.checkpoints[k]? = some c ∧ c.seq ≤ t ∧
      ∀ c' ∈ w.session.checkpoints, c'.seq ≤ t → c'.seq ≤ c.seq
  entry : ∀ t : UInt64, (planStart w.session t).index = none ↔
    ∀ c ∈ w.session.checkpoints, t < c.seq

/-- The largest sequence number is not in use. -/
def SeqsBounded (records : List Record) : Prop :=
  ∀ r ∈ records, r.seq.toNat + 1 < 2 ^ 64

/-- A checkpoint is due at an interval from the last one, unless the sum saturates. -/
theorem due_apart {last c interval : UInt64} (h : isCheckpointDue (some last) c interval = true)
    (hc : c.toNat + 1 < 2 ^ 64) :
    0 < interval.toNat ∧ last.toNat + interval.toNat ≤ c.toNat := by
  unfold isCheckpointDue at h
  split at h
  · cases h
  rename_i hzero
  have hle : saturatingAdd last interval ≤ c := by simpa using h
  have hpos : 0 < interval.toNat := by
    rcases Nat.eq_zero_or_pos interval.toNat with heq | hpos
    · exact absurd (UInt64.toNat_inj.mp heq) hzero
    · exact hpos
  refine ⟨hpos, ?_⟩
  rw [UInt64.le_iff_toNat_le] at hle
  unfold saturatingAdd at hle
  split at hle
  · rename_i hlt
    rw [UInt64.toNat_add, Nat.mod_eq_of_lt hlt] at hle
    exact hle
  · have hmax : (0xFFFFFFFFFFFFFFFF : UInt64).toNat = 2 ^ 64 - 1 := rfl
    omega

omit [Unwind ω] in
/-- The step names the checkpoint by the record it consumed. -/
theorem Took.record {c : CheckpointInfo} (h : Took c w w') :
    ∃ m r, w.session.records[m]? = some r ∧ r.seq = c.seq ∧ c.cursor = m + 1 := by
  rcases h.consumed with ⟨-, m, r, hnext, hcursor, hcurrent⟩
  refine ⟨m, r, hnext.here, ?_, h.taken.cursor.trans hcursor⟩
  rw [h.taken.seq] at hcurrent
  exact (Option.some.inj hcurrent).symm

omit [Unwind ω] in
/-- The interval in force lies between a checkpoint and the one before it. -/
theorem Took.apart {c last : CheckpointInfo} (h : Took c w w')
    (hbounded : SeqsBounded w.session.records)
    (hlast : w.session.checkpoints.getLast? = some last) :
    0 < w'.session.checkpointInterval.toNat ∧
      last.seq.toNat + w'.session.checkpointInterval.toNat ≤ c.seq.toNat := by
  rcases h.record with ⟨m, r, hr, hseq, -⟩
  have hc := hbounded r (List.mem_of_getElem? hr)
  rw [hseq] at hc
  have hdue := h.taken.due
  rw [hlast] at hdue
  exact due_apart hdue hc

/-- In ascending checkpoints, the start point is the last one that is not after the target. -/
theorem planStart_last {s : ReplaySession}
    (hascending : (s.checkpoints.map (·.seq)).Pairwise (· < ·)) {t : UInt64} {k : Nat}
    (h : (planStart s t).index = some k) :
    ∃ c, s.checkpoints[k]? = some c ∧ c.seq ≤ t ∧
      ∀ c' ∈ s.checkpoints, c'.seq ≤ t → c'.seq ≤ c.seq := by
  unfold planStart at h
  split at h
  · rename_i index hindex
    rcases Option.some.inj h with rfl
    rcases nearestAtOrBefore_some hindex with ⟨seq, hseq, hle⟩
    rw [List.getElem?_map] at hseq
    rcases Option.map_eq_some_iff.mp hseq with ⟨c, hc, rfl⟩
    refine ⟨c, hc, hle, ?_⟩
    intro c' hc' hle'
    rcases List.mem_iff_getElem?.mp hc' with ⟨j, hj⟩
    -- An earlier one is smaller, and the search went past every later one.
    rcases Nat.lt_trichotomy j index with hlt | rfl | hgt
    · rcases List.getElem?_eq_some_iff.mp hj with ⟨hjlt, rfl⟩
      rcases List.getElem?_eq_some_iff.mp hc with ⟨hklt, rfl⟩
      have hpair := List.pairwise_iff_getElem.mp hascending j index (by simpa using hjlt)
        (by simpa using hklt) hlt
      exact UInt64.le_of_lt (by simpa using hpair)
    · rw [hc] at hj
      rcases Option.some.inj hj with rfl
      exact UInt64.le_refl _
    · have hseq' : (s.checkpoints.map (·.seq))[j]? = some c'.seq := by
        rw [List.getElem?_map, hj]
        rfl
      exact absurd hle' (UInt64.not_le.mpr (nearestAtOrBefore_after hindex hgt hseq'))
  · cases h

/-- The process entry is the start if no checkpoint is early enough. -/
theorem planStart_entry (s : ReplaySession) (t : UInt64) :
    (planStart s t).index = none ↔ ∀ c ∈ s.checkpoints, t < c.seq := by
  have hnone := nearestAtOrBefore_none (s.checkpoints.map (·.seq)) t
  rw [List.forall_mem_map] at hnone
  rw [← hnone]
  unfold planStart
  cases nearestAtOrBefore (s.checkpoints.map (·.seq)) t with
  | none =>
    constructor
    · exact fun _ => rfl
    · exact fun _ => rfl
  | some index =>
    constructor
    · intro h
      cases h
    · intro h
      cases h

/-- At the start there is no checkpoint. -/
theorem Listed.start (hnone : f.session.checkpoints = []) : Listed arch f f where
  ascending := by
    rw [hnone]
    exact List.Pairwise.nil
  taken k c hc := by
    rw [hnone] at hc
    cases hc
  stored c hc := by
    rw [hnone] at hc
    cases hc
  planned t k h := by
    refine planStart_last ?_ h
    rw [hnone]
    exact List.Pairwise.nil
  entry t := planStart_entry f.session t

/-- A later checkpoint is after all earlier ones. -/
theorem ascending_snoc {cs : List CheckpointInfo} {c : CheckpointInfo}
    (h : (cs.map (·.seq)).Pairwise (· < ·))
    (hlast : ∀ last, cs.getLast? = some last → last.seq < c.seq) :
    ((cs ++ [c]).map (·.seq)).Pairwise (· < ·) := by
  rw [List.map_append, List.pairwise_append]
  refine ⟨h, List.pairwise_singleton _ _, ?_⟩
  intro a ha b hb
  rcases List.mem_singleton.mp hb with rfl
  rcases List.mem_map.mp ha with ⟨x, hx, rfl⟩
  have hne : cs ≠ [] := List.ne_nil_of_mem hx
  rcases List.getLast?_eq_some_iff.mp (List.getLast?_eq_some_getLast hne) with ⟨ys, hys⟩
  have hlt := hlast _ (List.getLast?_eq_some_getLast hne)
  rw [hys] at hx h
  rcases List.mem_append.mp hx with hmem | hmem
  · rw [List.map_append, List.pairwise_append] at h
    exact UInt64.lt_trans (h.2.2 x.seq (List.mem_map_of_mem hmem) _ (by simp)) hlt
  · rcases List.mem_singleton.mp hmem with rfl
    exact hlt

/-- Of the steps only a round adds a checkpoint, and only a restart moves the session elsewhere.
-/
theorem Listed.step (h : Listed arch f w) (hsteps : Steps arch f w) (hstep : Step arch w w')
    (hbounded : SeqsBounded f.session.records) : Listed arch f w' := by
  have hrecords : w'.session.records = w.session.records :=
    step_fixed (fun _ _ _ hr _ hs => hr.trans hs) hstep rfl
  -- A step leaves the checkpoints as they are, or takes one more after the last.
  rcases step_cases hstep with hsame | ⟨c, htook⟩
  · refine ⟨?_, ?_, ?_, ?_, planStart_entry w'.session⟩
    · rw [hsame]
      exact h.ascending
    · intro k c hc
      rw [hsame] at hc
      rcases h.taken k c hc with ⟨v, v', hv⟩
      exact ⟨v, v',
        { hv with
          after := hv.after.tail hstep
          earlier := hv.earlier.trans (by rw [hsame])
          took := hv.took.trans (by rw [hsame])
          apart := by
            rw [hsame]
            exact hv.apart }⟩
    · rw [hsame, hrecords]
      exact h.stored
    · intro t k hk
      refine planStart_last ?_ hk
      rw [hsame]
      exact h.ascending
  · have hwrecords : w.session.records = f.session.records :=
      steps_fixed (fun _ _ _ hr _ hs => hr.trans hs) hsteps rfl
    have hcs := htook.taken.checkpoints
    have hapart : ∀ last, w.session.checkpoints.getLast? = some last →
        0 < w'.session.checkpointInterval.toNat ∧
          last.seq.toNat + w'.session.checkpointInterval.toNat ≤ c.seq.toNat := by
      intro last hlast
      exact htook.apart (hwrecords.symm ▸ hbounded) hlast
    have hascending : (w'.session.checkpoints.map (·.seq)).Pairwise (· < ·) := by
      rw [hcs]
      refine ascending_snoc h.ascending ?_
      intro last hlast
      have hlt := hapart last hlast
      rw [UInt64.lt_iff_toNat_lt]
      omega
    refine ⟨hascending, ?_, ?_, fun t k => planStart_last hascending, planStart_entry w'.session⟩
    · intro k c' hc'
      by_cases hk : k < w.session.checkpoints.length
      · -- an earlier one
        have htake : w'.session.checkpoints.take k = w.session.checkpoints.take k := by
          rw [hcs, List.take_append_of_le_length (Nat.le_of_lt hk)]
        rw [hcs, List.getElem?_append_left hk] at hc'
        rcases h.taken k c' hc' with ⟨v, v', hv⟩
        exact ⟨v, v',
          { hv with
            after := hv.after.tail hstep
            earlier := hv.earlier.trans htake.symm
            took := hv.took.trans (by rw [htake])
            apart := by
              rw [htake]
              exact hv.apart }⟩
      · have hlt := (List.getElem?_eq_some_iff.mp hc').1
        rw [hcs, List.length_append, List.length_singleton] at hlt
        have heq : k = w.session.checkpoints.length := by omega
        subst heq
        have hnew : c' = c := by
          rw [hcs, List.getElem?_concat_length] at hc'
          exact (Option.some.inj hc').symm
        subst hnew
        have htake : w'.session.checkpoints.take w.session.checkpoints.length =
            w.session.checkpoints := by
          rw [hcs, List.take_left']
          rfl
        exact ⟨w, w',
          { before := hsteps
            step := hstep
            after := .refl
            earlier := htake.symm
            took := by rw [htake, hcs]
            idle := htook.taken.idle
            apart := by
              rw [htake]
              exact fun last hlast => (hapart last hlast).2 }⟩
    · intro c' hc'
      rw [hcs] at hc'
      rw [hrecords]
      rcases List.mem_append.mp hc' with hmem | hmem
      · exact h.stored c' hmem
      · rcases List.mem_singleton.mp hmem with rfl
        exact ⟨htook.taken.currentSeq, htook.record⟩

theorem steps_listed (hnone : f.session.checkpoints = [])
    (hbounded : SeqsBounded f.session.records) (h : Steps arch f w) : Listed arch f w := by
  induction h with
  | refl => exact .start hnone
  | tail hsteps hstep ih => exact ih.step hsteps hstep hbounded

/-! ## Traces of the writer -/

section Written

variable {W : Type} [Write W] {crc32 : Bytes → UInt32} {sink : W} {cmdline : Cmdline}
  {records : List Record} {events : List Trace.Event} {t t' : TraceWriter W}

/-- The records of a written trace are numbered from zero. -/
theorem opened_written (hsink : Write.written sink = [])
    (hstart : TraceWriter.start sink (some cmdline) = .ok t)
    (happend : TraceWriter.appendAll crc32 t events = .ok t')
    (hheader : Trace.baseHeaderLen + (Trace.cmdlineBytes (some cmdline)).length < 65536)
    (hlen : ∀ event ∈ events, event.payload.length ≤ Trace.maxBodyLen - Trace.bodyPrefixLenV3)
    (hopen : Opened crc32 (Write.written t'.inner) cmdline records) :
    records = Trace.storedRecords 0 events := by
  have hcount := Trace.events_count_lt hsink hstart happend
  rw [Trace.written_trace hsink hstart happend] at hopen
  exact hopen.unique (opened_stored hheader hlen (Nat.le_of_lt hcount))

/-- The seqs of a written trace are counted up from zero. -/
theorem storedRecords_bounded (hcount : events.length < 2 ^ 64) :
    SeqsBounded (Trace.storedRecords 0 events) := by
  intro r hr
  rcases List.mem_map.mp hr with ⟨⟨event, n⟩, hmem, rfl⟩
  have hn : n < events.length := by
    have hlt := List.snd_lt_of_mem_zipIdx hmem
    omega
  show (UInt64.ofNat n).toNat + 1 < 2 ^ 64
  rw [UInt64.toNat_ofNat_of_lt' (by
    show n < 2 ^ 64
    omega)]
  omega

/-- In every state a session on a written single-threaded trace goes through, its checkpoint
list is as it should be; and its calls only go through such states. -/
theorem checkpoints_listed (hsink : Write.written sink = [])
    (hstart : TraceWriter.start sink (some cmdline) = .ok t)
    (happend : TraceWriter.appendAll crc32 t events = .ok t')
    (hheader : Trace.baseHeaderLen + (Trace.cmdlineBytes (some cmdline)).length < 65536)
    (hlen : ∀ event ∈ events, event.payload.length ≤ Trace.maxBodyLen - Trace.bodyPrefixLenV3)
    (hopen : Opened crc32 (Write.written t'.inner) cmdline records)
    (hsingle : traceIsMultithreaded records = false) {os : ω}
    (hlaunch : exec (launch arch) ⟨ReplaySession.ofTrace cmdline records, os⟩ = some (.ok (), f)) :
    (∀ w, Steps arch f w → Listed arch f w) ∧
      ∀ w c r w', Steps arch f w → c.travels = true →
        exec (perform arch c) w = some (r, w') → Steps arch w w' := by
  rcases launch_session arch hlaunch with ⟨pid, hsession⟩
  -- The records are those that were written, so their seqs are small and ascend.
  have hrecords : f.session.records = records := by rw [hsession]; rfl
  have hbounded : SeqsBounded f.session.records := by
    rw [hrecords, opened_written hsink hstart happend hheader hlen hopen]
    exact storedRecords_bounded (Trace.events_count_lt hsink hstart happend)
  constructor
  · intro w hsteps
    refine steps_listed ?_ hbounded hsteps
    rw [hsession]
    rfl
  · intro w c r w' hsteps hc hexec
    refine perform_steps ?_ hc hexec
    have hmt : f.session.multithreaded = false := by
      rw [hsession]
      exact hsingle
    exact steps_fixed (fun _ _ _ _ hm hs => hm.trans hs) hsteps hmt

end Written

/-- One checkpoint on the trace of one call, taken at its exit. -/
theorem checkpoints_listed_oneCall :
    ∃ f w : World (Os oneCall), Steps .x86_64 f w ∧
      w.session.checkpoints.map (·.seq) = [1] ∧ Listed .x86_64 f w := by
  rcases Trace.start_vec (some ⟨"true", []⟩) (by decide) with ⟨t, ht⟩
  rcases Trace.start_written ht with ⟨hwritten, hseq⟩
  have hbytes : t.inner.bytes = _ := hwritten
  rcases Trace.appendAll_vec Crc32.hash t oneCallEvents (by
    rw [hbytes, hseq]
    simp only [oneCallEvents, Trace.frames, Trace.frame, List.length_append, List.flatten_cons,
      List.flatten_nil, LittleEndian.length_encode, Trace.length_encodeBody]
    decide) with ⟨t', ht'⟩
  have hlen : ∀ event ∈ oneCallEvents,
      event.payload.length ≤ Trace.maxBodyLen - Trace.bodyPrefixLenV3 := by decide
  have hopen : Opened Crc32.hash (Write.written t'.inner) ⟨"true", []⟩
      (Trace.storedRecords 0 oneCallEvents) := by
    rw [Trace.written_trace rfl ht ht']
    exact opened_stored (by decide) hlen (by decide)
  have hrun : ∃ f w₁ w : World (Os oneCall),
      exec (launch .x86_64)
        ⟨ReplaySession.ofTrace ⟨"true", []⟩ (Trace.storedRecords 0 oneCallEvents),
          emptyOs oneCall⟩ = some (.ok (), f) ∧
      exec (driveRound .x86_64 none) { f with session := { f.session with checkpointInterval := 1 } } =
        some (.ok none, w₁) ∧
      exec (driveRound .x86_64 none) w₁ = some (.ok none, w) ∧
      w.session.checkpoints.map (·.seq) = [1] := ⟨_, _, _, rfl, rfl, rfl, rfl⟩
  rcases hrun with ⟨f, w₁, w, hlaunch, hfirst, hsecond, hseqs⟩
  have hsteps : Steps .x86_64 f w :=
    ((Relation.ReflTransGen.single (.interval f 1)).tail (.round none hfirst)).tail
      (.round none hsecond)
  exact ⟨f, w, hsteps, hseqs,
    (checkpoints_listed rfl ht ht' (by decide) hlen hopen rfl hlaunch).1 w hsteps⟩

end Mirrorscope.Replay
