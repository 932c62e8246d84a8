import Mathlib.Data.Fintype.EquivFin
import Mirrorscope.Replay.Divergence

/-! # When a divergence is final

A session that reported a divergence may be driven on. Its later calls can answer
again unless the trace is multi-threaded and its first record is one that no stop
of a tracee satisfies: then no call ever gets past the start. In every other case
some behaviour of the tracees lets a later call answer with the mismatch behind it.

Both directions are about runs:
* `Blocked`: the sessions that no later call gets past the start of the trace.
  `perform_keeps_blocked` shows that they stay so.
* `Answers`: a system that gives one answer to each question, chosen so that it satisfies a
  given record. The `_returns` lemmas run the handlers on it.
* `divergence_sticky_iff`: a divergence is final exactly on the blocked sessions.
-/

namespace Mirrorscope.Replay

open Capture Linux Run
open Trace (EventKind Record)

/-- Whether some stop satisfies a record, if it is the first one of a multi-threaded
trace. A syscall's exit has no entry before it. -/
def Acceptable (record : Record) : Bool :=
  match record.event.kind with
  | .schedSwitch => (SchedSwitch.decode record.event.payload).isOk
  | .syscallEnter => record.event.tid.isSome && (SyscallEnter.decode record.event.payload).isOk
  | .threadSpawn => record.event.tid.isSome && (ThreadSpawn.decode record.event.payload).isOk
  | .threadExit => record.event.tid.isSome
  | .signal =>
    record.event.tid.isSome &&
      match SignalDelivery.decode record.event.payload with
      | .ok recorded => (Signal.ofNum recorded.signum).isSome
      | .error _ => false
  | _ => false

section Blocked

variable {ω α β : Type} {P : World ω → Prop} {record : Record} {tid : UInt32}

/-- `m` never answers from a state with `P`. -/
def NoAnswer (P : World ω → Prop) (m : Method ω α) : Prop :=
  Spec P m (fun _ _ => False) (fun _ _ => True)

theorem NoAnswer.bindLeft {m : Method ω α} {f : α → Method ω β} (h : NoAnswer P m) :
    NoAnswer P (m >>= f) := by
  apply Spec.bind h
  intro a s hs
  exact hs.elim

theorem NoAnswer.bindRight {m : Method ω α} {f : α → Method ω β}
    (h : ∀ a, NoAnswer (fun _ => True) (f a)) : NoAnswer P (m >>= f) :=
  Spec.bind (Spec.top m) h

theorem NoAnswer.fail {e : ReplayError} : NoAnswer P (fail e : Method ω α) :=
  Spec.fail fun _ _ => trivial

theorem NoAnswer.orFail {ε : Type} {err : ε → ReplayError} {x : Except ε α} (h : x.isOk = false) :
    NoAnswer P (orFail err x : Method ω α) := by
  cases x with
  | ok a => cases h
  | error e => exact NoAnswer.fail

/-- A record without a tid never gets past its first check. -/
theorem enforceTid_noAnswer (h : record.event.tid = none) :
    NoAnswer P (Mt.enforceTid record : Method ω UInt32) := by
  rw [Mt.enforceTid, h]
  exact NoAnswer.fail

variable (arch : Arch) [Ptrace arch ω] [Unwind ω]

/-- An entry without a tid, or whose payload cannot be decoded, is never matched. -/
theorem onSyscallEnter_noAnswer (h : record.event.tid = none ∨
    (SyscallEnter.decode record.event.payload).isOk = false) :
    NoAnswer P (Mt.onSyscallEnter arch record : Method ω Unit) := by
  rcases h with htid | hdecode
  · exact NoAnswer.bindLeft (enforceTid_noAnswer htid)
  · refine NoAnswer.bindRight fun tid => NoAnswer.bindRight fun live =>
      NoAnswer.bindRight fun sig => NoAnswer.bindRight fun status => ?_
    split
    · refine NoAnswer.bindRight fun regs => NoAnswer.bindRight fun _ => ?_
      exact NoAnswer.bindLeft (NoAnswer.orFail hdecode)
    · exact NoAnswer.fail

/-- Nor is such a spawn. -/
theorem onThreadSpawn_noAnswer (h : record.event.tid = none ∨
    (ThreadSpawn.decode record.event.payload).isOk = false) :
    NoAnswer P (Mt.onThreadSpawn arch record : Method ω Unit) := by
  rcases h with htid | hdecode
  · exact NoAnswer.bindLeft (enforceTid_noAnswer htid)
  · refine NoAnswer.bindRight fun tid => NoAnswer.bindRight fun live => ?_
    exact NoAnswer.bindLeft (NoAnswer.orFail hdecode)

/-- No stop delivers a signal whose number is not one. -/
theorem onSignal_noAnswer (h : record.event.tid = none ∨
    ∀ recorded, SignalDelivery.decode record.event.payload = .ok recorded →
      Signal.ofNum recorded.signum = none) :
    NoAnswer P (Mt.onSignal arch record : Method ω Unit) := by
  rcases h with htid | hsignum
  · exact NoAnswer.bindLeft (enforceTid_noAnswer htid)
  · refine NoAnswer.bindRight fun tid => NoAnswer.bindRight fun live =>
      NoAnswer.bindRight fun sig => NoAnswer.bindRight fun status => ?_
    split
    · rename_i delivered
      apply Spec.bind (orFail_spec fun _ _ _ => trivial)
      intro recorded
      split
      · exact NoAnswer.fail
      · rename_i heq
        rintro w ⟨hdecode, -⟩
        have hnone := hsignum recorded hdecode
        rw [not_not.mp heq, Signal.ofNum_num] at hnone
        cases hnone
    · exact NoAnswer.fail

omit [Ptrace arch ω] [Unwind ω] in
/-- Before the first record is consumed no thread has a syscall in flight. -/
theorem takePending_none (live : Pid) :
    Spec (On (AtThread none record tid)) (Mt.takePending live : Method ω (Option PendingSys))
      (fun pending _ => pending = none) (fun _ _ => True) := by
  apply Spec.bind state_spec
  intro mt
  by_cases hidle : mt.threads[live]?.bind ThreadRt.pending = none
  · exact Spec.bind (Spec.top _) fun _ => Spec.pure fun _ _ => hidle
  · rintro w ⟨hs, hmt⟩
    have hfresh := hs.freshState hmt hs.current
    cases hthread : mt.threads[live]? with
    | none => simp [hthread] at hidle
    | some thread => simp [hthread, hfresh.idle live thread hthread] at hidle

/-- At the start no thread has a call to leave. -/
theorem onSyscallExit_noAnswer :
    NoAnswer (On (AtRecord none record)) (Mt.onSyscallExit arch record : Method ω Unit) := by
  apply Spec.bind enforceTid_spec.answers
  intro tid
  apply Spec.bind (liveFor_spec record.seq).answers
  intro live
  have hhits := AtThread.ignoresHits none record tid
  apply Spec.bind (stepThread_keeps arch hhits live none).answers
  intro status
  split
  · apply Spec.bind (read_keeps arch live).answers
    intro regs
    refine Spec.bind (modifySelf_spec fun s hs => hs.withRegs (some regs)) fun _ => ?_
    apply Spec.bind orFail_keeps.answers
    intro exit
    apply Spec.bind (takePending_none live)
    intro pending
    split
    · exact NoAnswer.fail
    · exact fun w hw => nomatch hw
  · exact NoAnswer.fail

/-- The record at the start of the trace that no stop satisfies never lets the driver by. -/
theorem onRecord_noAnswer (hkind : record.event.kind ≠ .checkpoint)
    (h : Acceptable record = false) :
    NoAnswer (On (AtRecord none record))
      (Mt.onRecord arch record : Method ω (Option ExitOutcome)) := by
  unfold Acceptable at h
  -- One case for each handler: what the record lacks is what the handler asks for.
  unfold Mt.onRecord
  split
  · rename_i hcheckpoint
    exact absurd hcheckpoint hkind
  · rename_i hk
    simp only [hk] at h
    exact NoAnswer.bindLeft (NoAnswer.bindLeft (NoAnswer.orFail h))
  · rename_i hk
    simp only [hk, Bool.and_eq_false_iff, Option.isSome_eq_false_iff, Option.isNone_iff_eq_none]
      at h
    exact NoAnswer.bindLeft (onSyscallEnter_noAnswer arch h)
  · exact NoAnswer.bindLeft (onSyscallExit_noAnswer arch)
  · rename_i hk
    simp only [hk, Bool.and_eq_false_iff, Option.isSome_eq_false_iff, Option.isNone_iff_eq_none]
      at h
    exact NoAnswer.bindLeft (onThreadSpawn_noAnswer arch h)
  · rename_i hk
    simp only [hk, Option.isSome_eq_false_iff, Option.isNone_iff_eq_none] at h
    exact NoAnswer.bindLeft (enforceTid_noAnswer h)
  · rename_i hk
    simp only [hk, Bool.and_eq_false_iff, Option.isSome_eq_false_iff, Option.isNone_iff_eq_none]
      at h
    refine NoAnswer.bindLeft (onSignal_noAnswer arch (h.imp_right fun hsignum recorded hd => ?_))
    simpa [hd] using hsignum
  · exact NoAnswer.fail

/-- A multi-threaded session that no call gets past the start of its trace. -/
structure Blocked (s : ReplaySession) : Prop where
  settled : MtSettled s
  start : s.currentSeq = none
  unfinished : s.finished = none
  first : ∃ record, firstRecord s.records = some record ∧ Acceptable record = false

/-- Spawning the program again leaves a blocked session blocked. -/
theorem Blocked.entryLaws : EntryLaws Blocked where
  unwinder s u h := ⟨MtSettled.entryLaws.unwinder s u h.settled, h.start, h.unfinished, h.first⟩
  hits s v hs h := ⟨MtSettled.entryLaws.hits s v hs h.settled, h.start, h.unfinished, h.first⟩
  watchpoint s wp h :=
    ⟨MtSettled.entryLaws.watchpoint s wp h.settled, h.start, h.unfinished, h.first⟩
  interval s n h := ⟨MtSettled.entryLaws.interval s n h.settled, h.start, h.unfinished, h.first⟩
  noSnapshots _ h := h.settled.2.noSnapshots
  entry s pid h := ⟨MtSettled.entryLaws.entry s pid h.settled, rfl, rfl, h.first⟩

/-- The driver of such a session. -/
structure Stalled (s : ReplaySession) : Prop extends Driving s where
  start : s.currentSeq = none
  first : ∃ record, firstRecord s.records = some record ∧ Acceptable record = false

theorem Stalled.blocked {s : ReplaySession} (h : Stalled s) : Blocked s where
  settled := ⟨h.multithreaded, h.toSettled⟩
  start := h.start
  unfinished := h.unfinished
  first := h.first

/-- One round passes a checkpoint record or fails. -/
theorem driveRound_stalled (stopAt : Option UInt64) :
    Spec (On Stalled) (Mt.driveRound arch stopAt : Method ω (Option ExitOutcome))
      (Round (On Stalled) fun _ _ => False) (fun _ => On Blocked) := by
  apply Spec.bind self_spec
  intro s
  split
  · rename_i hreached
    rintro w ⟨hs, rfl⟩
    rw [hs.start] at hreached
    cases stopAt <;> cases hreached
  split
  · apply Spec.fail
    rintro w ⟨hs, rfl⟩
    exact hs.blocked
  · rename_i record here
    -- Checkpoint records are passed; the first other record blocks the session.
    by_cases hkind : record.event.kind = .checkpoint
    · simp only [Mt.onRecord, hkind]
      refine Spec.bind (Q := fun _ => On Stalled) ?_ fun _ => Spec.pure fun _ hs => hs
      apply Spec.update
      rintro w ⟨hs, rfl⟩
      exact { toDriving := passCheckpoint hs.toDriving here hkind, start := hs.start,
              first := hs.first }
    · by_cases hacc : Acceptable record = false
      · refine ((onRecord_noAnswer arch hkind hacc).and
          (onRecord_spec arch none hkind)).mono ?_ ?_ ?_
        · rintro w ⟨hs, rfl⟩
          have hat : AtRecord none record w.session :=
            { toDriving := hs.toDriving, current := hs.start, here := here, kind := hkind }
          exact ⟨hat, hat⟩
        · exact fun _ _ h => h.1.elim
        · rintro e w ⟨-, hat⟩
          have hstalled : Stalled w.session :=
            { toDriving := hat.toDriving, start := hat.current,
              first := ⟨record, hat.first hat.current, hacc⟩ }
          exact hstalled.blocked
      · -- the record at the cursor is the first one, which is not acceptable
        rintro w ⟨hs, rfl⟩
        have hat : AtRecord none record w.session :=
          { toDriving := hs.toDriving, current := hs.start, here := here, kind := hkind }
        rcases hs.first with ⟨first, hfirst, hnot⟩
        rw [hat.first hat.current] at hfirst
        rcases Option.some.inj hfirst with rfl
        exact absurd hnot hacc

/-- A blocked session stays blocked, and no drive answers. -/
theorem drive_blocked (stopAt : Option UInt64) :
    Spec (On Blocked) (drive arch stopAt : Method ω ExitOutcome) (fun _ _ => False)
      (fun _ => On Blocked) := by
  -- seating the leader consumes nothing and changes no record
  have hensure : Spec (On Blocked) (Mt.ensureState arch : Method ω Unit) (fun _ => On Stalled)
      (fun _ => On Blocked) := by
    intro w hw r w' hexec
    have hspec := ensureState_spec arch w ⟨hw.settled.2, hw.settled.1, hw.unfinished⟩ r w' hexec
    have hkeep : KeepsSession (fun s => s.currentSeq = none ∧ s.multithreaded = true ∧
        s.finished = none ∧ s.records = w.session.records)
        (Mt.ensureState arch : Method ω Unit) := by
      apply Keeps.bind self_keeps
      intro s
      split
      · exact Keeps.pure
      · exact Keeps.bind os_keeps fun _ => modifySelf_keeps fun _ hs => hs
    have hpost := hkeep w ⟨hw.start, hw.settled.1, hw.unfinished, rfl⟩ r w' hexec
    cases r with
    | ok a =>
      have hfirst := hw.first
      rw [← hpost.2.2.2] at hfirst
      exact { toDriving := hspec, start := hpost.1, first := hfirst }
    | error e =>
      have hfirst := hw.first
      rw [← hpost.2.2.2] at hfirst
      exact { settled := ⟨hpost.2.1, hspec.1⟩, start := hpost.1, unfinished := hpost.2.2.1,
              first := hfirst }
  apply Spec.bind self_spec
  intro s
  split
  · rename_i hfinished
    rintro w ⟨hs, rfl⟩
    rw [hs.unfinished] at hfinished
    cases hfinished
  split
  · apply Spec.bind (Q := fun _ => On Stalled)
    · apply hensure.mono _ (fun _ _ h => h) (fun _ _ h => h)
      rintro w ⟨hs, rfl⟩
      exact hs
    · intro _
      exact Spec.loop (driveRound_stalled arch stopAt)
  · rename_i hsingle
    rintro w ⟨hs, rfl⟩
    exact absurd hs.settled.1 hsingle

/-- No call of the interface unblocks a session. -/
theorem perform_keeps_blocked (c : SessionCall) :
    KeepsSession Blocked (perform arch c : Method ω (Option ExitOutcome)) :=
  perform_keeps arch Blocked.entryLaws.toIgnoresWatch
    (fun s seq => restart_spec arch Blocked.entryLaws seq s)
    (fun stopAt => (drive_blocked arch stopAt).mono (fun _ h => h) (fun _ _ h => h.elim)
      (fun _ _ h => h)) c

/-- No driving call on a blocked session answers. -/
theorem perform_blocked {w w' : World ω} (hw : Blocked w.session) (c : SessionCall)
    (outcome : ExitOutcome) : exec (perform arch c) w ≠ some (.ok (some outcome), w') := by
  intro h
  have hdrives (stopAt : Option UInt64) {u v : World ω} (hu : Blocked u.session) (o : ExitOutcome)
      (hexec : exec (drive arch stopAt) u = some (.ok o, v)) : False :=
    (drive_blocked arch stopAt).ok hu hexec
  -- the calls that do not drive answer with nothing
  have hnone {α : Type} {m : Method ω α}
      (h : exec (do let _ ← m; pure (none : Option ExitOutcome)) w =
        some (.ok (some outcome), w')) : False := by
    rcases bind_ok_inv h with ⟨_, _, -, hpure⟩
    cases hpure
  cases c with
  | runTo seq =>
    rcases bind_ok_inv h with ⟨o, u, hrun, -⟩
    rcases bind_ok_inv hrun with ⟨s, v, hself, hrest⟩
    rcases Prod.mk.inj (Option.some.inj hself) with ⟨hs, rfl⟩
    rcases bind_ok_inv hrest with ⟨_, u', hwhen, hdrive⟩
    have hs' : w.session = s := Except.ok.inj hs
    have hu' : Blocked u'.session := by
      have hspec : Spec (fun v : World ω => Blocked s ∧ v.session = s)
          (Run.when (shouldRestart s.currentSeq (planStart s seq).seq seq)
            (restart arch (planStart s seq))) (fun _ => On Blocked) (fun _ => On Blocked) := by
        apply Spec.when
        · exact fun _ => restart_spec arch Blocked.entryLaws seq s
        · rintro _ v ⟨hv, rfl⟩
          exact hv
      exact hspec.ok ⟨hs' ▸ hw, hs'⟩ hwhen
    exact hdrives _ hu' _ hdrive
  | stepTo seq =>
    rcases bind_ok_inv h with ⟨o, u, hdrive, -⟩
    exact hdrives _ hw _ hdrive
  | runToEnd =>
    rcases bind_ok_inv h with ⟨o, u, hdrive, -⟩
    exact hdrives _ hw _ hdrive
  | restoreTo seq => exact hnone h
  | checkpointInterval interval => exact hnone h
  | watch addr len kind => exact hnone h
  | clearWatch => exact hnone h
  | takeWatchHits => exact hnone h

end Blocked

/-! ## Tracees that go along

The other direction needs tracees that present what the record asks for. A system
of constant answers is enough: every wait reports the same stop, and every other
call succeeds.
-/

/-- A system in which every stop is `status`, every register file is `regs`, and
every new child is `child`. -/
structure Answers (arch : Arch) where
  status : WaitStatus
  regs : FullRegs arch
  child : Pid

instance (arch : Arch) : Ptrace arch (Answers arch) where
  spawnTraced _ a := (.ok a.child, a)
  syscall _ _ a := (.ok (), a)
  step _ a := (.ok (), a)
  kill _ a := (.ok (), a)
  waitpid _ _ a := (.ok a.status, a)
  setoptions _ _ a := (.ok (), a)
  getevent _ a := (.ok a.child, a)
  getregs _ a := (.ok a.regs, a)
  setregs _ _ a := (.ok (), a)
  setSyscallNr _ _ a := (.ok (), a)
  processVmReadv _ _ _ a := (.ok [], a)
  processVmWritev _ _ data a := (.ok data.length, a)
  pokeUser _ _ _ a := (.ok (), a)
  setHwWatch _ _ _ a := (.ok (), a)
  getsiginfo _ a := (.ok 0, a)

instance (arch : Arch) : Unwind (Answers arch) where
  forPid _ a := (.ok (), a)
  registers _ a := (.ok 0, a)
  backtrace _ _ a := (.ok [], a)

/-- A register file at the entry of syscall `nr`. -/
def regsWithNr : (arch : Arch) → UInt64 → FullRegs arch
  | .x86_64, nr =>
    ({ rax := 0, origRax := nr, rdi := 0, rsi := 0, rdx := 0, r10 := 0, r8 := 0, r9 := 0, rip := 0,
       others := [] } : X86Regs)
  | .aarch64, nr =>
    ({ regs := Vector.replicate 31 nr, sp := 0, pc := 0, pstate := 0 } : Aarch64Regs)

theorem normalize_regsWithNr (arch : Arch) (nr : UInt64) :
    (normalize arch (regsWithNr arch nr)).nr = nr := by
  cases arch with
  | x86_64 => rfl
  | aarch64 => simp [Linux.normalize, regsWithNr]

section Answers

variable {arch : Arch} {a : Answers arch} {record : Record} {tid : UInt32} {leader : Pid}
  {L : UInt32 → Option Pid} {α ε : Type}

/-- The driver at the first record, under constant answers: no watchpoint is armed,
and `L` is what the table binds. -/
structure Poised (a : Answers arch) (record : Record) (leader : Pid) (L : UInt32 → Option Pid)
    (w : World (Answers arch)) : Prop where
  here : AtRecord none record w.session
  unwatched : w.session.watchpoint = none
  answers : w.os = a
  bindings : ∀ mt, w.session.mt = some mt → mt.leader = leader ∧ mt.tidmap.liveOf = L

/-- The same once the record's thread is found. -/
structure AtStop (a : Answers arch) (record : Record) (tid : UInt32) (L : UInt32 → Option Pid)
    (w : World (Answers arch)) : Prop where
  here : AtThread none record tid w.session
  unwatched : w.session.watchpoint = none
  answers : w.os = a
  bindings : ∀ mt, w.session.mt = some mt → mt.tidmap.liveOf = L

/-- A call with a constant answer changes nothing. -/
theorem osOr_returns {P : World (Answers arch) → Prop} {err : ε → ReplayError}
    {call : Call (Answers arch) ε α} {b : α} (h : call a = (.ok b, a))
    (hP : ∀ w, P w → w.os = a) : Returns P (osOr err call) (fun b' w => b' = b ∧ P w) := by
  intro w hw
  have hcall : call w.os = (.ok b, w.os) := by rw [hP w hw, h]
  exact ⟨b, w, exec_osOr_ok hcall, rfl, hw⟩

theorem os_returns {P : World (Answers arch) → Prop} {call : Call (Answers arch) Errno α} {b : α}
    (h : call a = (.ok b, a)) (hP : ∀ w, P w → w.os = a) :
    Returns P (os call) (fun b' w => b' = b ∧ P w) := osOr_returns h hP

theorem orFail_returns {P : World (Answers arch) → Prop} {err : ε → ReplayError} {x : Except ε α}
    {b : α} (h : x = .ok b) :
    Returns P (orFail err x : Method (Answers arch) α) (fun b' w => b' = b ∧ P w) := by
  rw [h]
  exact Returns.pure fun w hw => ⟨rfl, hw⟩

/-- The thread table is there. -/
theorem state_returns {ω : Type} {P : World ω → Prop}
    (h : ∀ w, P w → ∃ mt, w.session.mt = some mt) :
    Returns P (Mt.state : Method ω MtState)
      (fun mt w => w.session.mt = some mt ∧ P w) := by
  intro w hw
  rcases h w hw with ⟨mt, hmt⟩
  refine ⟨mt, w, ?_, hmt, hw⟩
  rw [Mt.state, bind_ok (exec_self w), hmt, exec_pure]

/-- Where the thread table is there, it can be written. -/
theorem modifyState_returns {ω : Type} {P : World ω → Prop} {Q : Unit → World ω → Prop}
    {f : MtState → MtState}
    (h : ∀ w, P w → ∃ mt, w.session.mt = some mt)
    (hQ : ∀ w mt, P w → w.session.mt = some mt →
      Q () { w with session := { w.session with mt := some (f mt) } }) :
    Returns P (Mt.modifyState f : Method ω Unit) Q := by
  apply Returns.bind (state_returns h)
  intro mt
  apply Returns.update
  rintro w ⟨hmt, hw⟩
  exact hQ w mt hw hmt

/-- The record's tid is the one the schedule expects, if it expects one. -/
theorem enforceTid_returns (htid : record.event.tid = some tid) :
    Returns (Poised a record leader L) (Mt.enforceTid record : Method (Answers arch) UInt32)
      (fun t w => t = tid ∧ Poised a record leader L w) := by
  unfold Mt.enforceTid
  simp only [htid]
  apply Returns.bind (state_returns fun w hw => hw.here.state)
  intro mt
  split
  · rename_i hexpected
    refine Returns.bind (Q := fun _ => Poised a record leader L) ?_ fun _ =>
      Returns.pure fun w hw => ⟨rfl, hw⟩
    apply modifyState_returns fun w hw => hw.2.here.state
    rintro w mt' ⟨-, hw⟩ hmt'
    refine { here := hw.here.withState ?_, unwatched := hw.unwatched, answers := hw.answers,
             bindings := ?_ }
    · intro hnone
      have hf := hw.here.freshState hmt' hnone
      refine { expected := ?_, leader := hf.leader, idle := hf.idle }
      intro t ht
      rcases Option.some.inj ht with rfl
      exact htid
    · intro mt'' hmt''
      rcases Option.some.inj hmt'' with rfl
      exact hw.bindings mt' hmt'
  · rename_i expected hexpected
    split
    · exact Returns.pure fun w hw => ⟨rfl, hw.2⟩
    · rename_i hne
      rintro w ⟨hmt, hw⟩
      have hf := hw.here.freshState hmt hw.here.current
      have heq := hf.expected expected hexpected
      rw [htid] at heq
      exact absurd (Option.some.inj heq).symm hne

/-- What the table binds once the record's thread is found: an unbound tid is the leader's. -/
def withLeader (L : UInt32 → Option Pid) (tid : UInt32) (leader : Pid) : UInt32 → Option Pid :=
  fun r => if tid = r then some ((L tid).getD leader) else L r

/-- The tid of the record names a thread, or it is the first and names the leader. -/
theorem liveFor_returns (htid : record.event.tid = some tid) (seq : UInt64) :
    Returns (Poised a record leader L) (Mt.liveFor tid seq : Method (Answers arch) Pid)
      (fun _ => AtStop a record tid (withLeader L tid leader)) := by
  apply Returns.bind (state_returns fun w hw => hw.here.state)
  intro mt
  split
  · rename_i live hlive
    apply Returns.pure
    rintro w ⟨hmt, hw⟩
    have hL : mt.tidmap.liveOf = L := (hw.bindings mt hmt).2
    refine { here := { toAtRecord := hw.here, tagged := htid, bound := ?_ },
             unwatched := hw.unwatched, answers := hw.answers, bindings := ?_ }
    · intro mt' hmt'
      rw [hmt] at hmt'
      rcases Option.some.inj hmt' with rfl
      rw [hlive]
      rfl
    · intro mt' hmt'
      rw [hmt] at hmt'
      rcases Option.some.inj hmt' with rfl
      funext r
      rw [withLeader, ← hL, hlive]
      split
      · rename_i heq
        rw [← heq, hlive]
        rfl
      · rfl
  · rename_i hunbound
    split
    · rename_i hempty
      -- Nothing is bound, so the leader can take the tid.
      have hconflict : mt.tidmap.conflict tid mt.leader = none := by
        rw [TidMap.conflict_eq_none]
        refine ⟨.inl hunbound, .inl ?_⟩
        cases hback : mt.tidmap.toRecorded[mt.leader]? with
        | none => rfl
        | some r =>
          have hforth := (mt.tidmap.inverse r mt.leader).mpr hback
          have hnone := (TidMap.isEmpty_iff mt.tidmap).mp hempty r
          rw [TidMap.liveOf, hforth] at hnone
          cases hnone
      rcases TidMap.bind_of_conflict_eq_none hconflict with ⟨tidmap, hbind⟩
      rw [hbind]
      refine Returns.bind (Q := fun t w => t = tidmap ∧ w.session.mt = some mt ∧
        Poised a record leader L w) (Returns.pure fun w hw => ⟨rfl, hw⟩) ?_
      intro t
      refine Returns.bind (Q := fun _ => AtStop a record tid (withLeader L tid leader)) ?_ fun _ =>
        Returns.pure fun w hw => hw
      apply modifyState_returns fun w hw => hw.2.2.here.state
      rintro w mt' ⟨rfl, hmt, hw⟩ hmt'
      rw [hmt] at hmt'
      rcases Option.some.inj hmt' with rfl
      have hbound : (t.liveOf tid).isSome := by
        rw [(TidMap.bind_ok hbind).2, if_pos rfl]
        rfl
      refine { here := { toAtRecord := hw.here.withState ?_, tagged := htid, bound := ?_ },
               unwatched := hw.unwatched, answers := hw.answers, bindings := ?_ }
      · intro hnone
        have hf := hw.here.freshState hmt hnone
        exact { expected := hf.expected, leader := .inr ⟨tid, htid, hbound⟩, idle := hf.idle }
      · intro mt'' hmt''
        rcases Option.some.inj hmt'' with rfl
        exact hbound
      · intro mt'' hmt''
        rcases Option.some.inj hmt'' with rfl
        funext r
        rcases hw.bindings mt hmt with ⟨hleader, hL⟩
        rw [(TidMap.bind_ok hbind).2, withLeader, ← hL, hunbound, hleader]
        rfl
    · rename_i hnotempty
      rintro w ⟨hmt, hw⟩
      have hf := hw.here.freshState hmt hw.here.current
      rcases hf.leader with hempty | ⟨t, ht, hbound⟩
      · exact absurd hempty hnotempty
      · rw [htid] at ht
        rcases Option.some.inj ht with rfl
        rw [hunbound] at hbound
        cases hbound

/-- A thread that is stepped presents the constant stop, unless that is an exec. -/
theorem stepThread_returns (hexec : ∀ pid sig, a.status ≠ .ptraceEvent pid sig EventCode.exec)
    (live : Pid) (sig : Option Signal) :
    Returns (AtStop a record tid L) (Mt.stepThread arch live sig : Method (Answers arch) WaitStatus)
      (fun status w => status = a.status ∧ AtStop a record tid L w) := by
  -- No watchpoint is armed, and the answer is no exec: one round is enough.
  have hround : Returns (AtStop a record tid L)
      (Mt.stepRound arch live sig : Method (Answers arch) (Option WaitStatus))
      (fun status w => status = some a.status ∧ AtStop a record tid L w) := by
    refine Returns.bind (os_returns rfl fun w hw => hw.answers) fun _ => Returns.assume fun _ => ?_
    refine Returns.bind (os_returns rfl fun w hw => hw.answers) fun status =>
      Returns.assume fun hstatus => ?_
    split
    · rename_i pid sig event
      split
      · rename_i hevent
        exact absurd (hevent ▸ hstatus).symm (hexec pid sig)
      · exact Returns.pure fun w hw => ⟨congrArg some hstatus, hw⟩
    · refine Returns.bind (Q := fun hit w => hit = false ∧ AtStop a record tid L w) ?_ fun hit =>
        Returns.assume fun hhit => ?_
      · intro w hw
        refine ⟨false, w, ?_, rfl, hw⟩
        rw [isWatchHit, bind_ok (exec_self w), hw.unwatched, exec_pure]
      · rw [hhit]
        exact Returns.pure fun w hw => ⟨congrArg some hstatus, hw⟩
    · exact Returns.pure fun w hw => ⟨congrArg some hstatus, hw⟩
  apply Returns.bind hround
  intro status
  split
  · apply Returns.pure
    rintro w ⟨hstatus, hw⟩
    exact ⟨Option.some.inj hstatus, hw⟩
  · rintro w ⟨hstatus, -⟩
    cases hstatus

/-- Updating one thread leaves the table as it is. -/
theorem modifyThread_returns (live : Pid) {f : ThreadRt → ThreadRt}
    (hf : ∀ t, t.pending = none → (f t).pending = none) :
    Returns (AtStop a record tid L)
      (Mt.modifyState fun mt => Mt.MtState.modifyThread mt live f : Method (Answers arch) Unit)
      (fun _ => AtStop a record tid L) := by
  apply modifyState_returns fun w hw => hw.here.state
  intro w mt hw hmt
  refine { here := ?_, unwatched := hw.unwatched, answers := hw.answers, bindings := ?_ }
  · refine { toAtRecord := hw.here.withState ?_, tagged := hw.here.tagged, bound := ?_ }
    · exact fun hnone => (hw.here.freshState hmt hnone).modifyThread live hf
    · intro mt' hmt'
      rcases Option.some.inj hmt' with rfl
      rw [tidmap_modifyThread]
      exact hw.here.bound mt hmt
  · intro mt' hmt'
    rcases Option.some.inj hmt' with rfl
    rw [tidmap_modifyThread]
    exact hw.bindings mt hmt

/-- A queued signal is dropped from the table, and nothing else changes. -/
theorem takeResumeSignal_returns (live : Pid) :
    Returns (AtStop a record tid L)
      (Mt.takeResumeSignal live : Method (Answers arch) (Option Signal))
      (fun _ => AtStop a record tid L) := by
  apply Returns.bind (state_returns fun w hw => hw.here.state)
  intro mt
  have hclear : Returns (AtStop a record tid L)
      (Mt.modifyState fun mt => Mt.MtState.modifyThread mt live fun t =>
        { t with resumeSignal := none } : Method (Answers arch) Unit)
      (fun _ => AtStop a record tid L) := modifyThread_returns live fun t ht => ht
  exact Returns.bind (hclear.mono (fun _ h => h.2) fun _ _ h => h) fun _ =>
    Returns.pure fun _ hw => hw

/-- The record is consumed. -/
def Consumed (record : Record) (w : World (Answers arch)) : Prop :=
  w.session.currentSeq = some record.seq

theorem advance_returns {P : World (Answers arch) → Prop} :
    Returns P (Mt.advance record.seq : Method (Answers arch) Unit) (fun _ => Consumed record) :=
  Returns.update fun _ _ => rfl

/-- Setting one thread's bookkeeping and consuming the record. -/
theorem modifyThread_advance_returns (live : Pid) (f : ThreadRt → ThreadRt) :
    Returns (AtStop a record tid L)
      (do
        Mt.modifyState fun mt => Mt.MtState.modifyThread mt live f
        Mt.advance record.seq : Method (Answers arch) Unit)
      (fun _ => Consumed record) := by
  refine Returns.bind (Q := fun _ _ => True) ?_ fun _ => advance_returns
  exact modifyState_returns (fun w hw => hw.here.state) fun _ _ _ _ => trivial

/-- The first steps of every handler of a thread's record. -/
theorem atThread_returns (htid : record.event.tid = some tid)
    {f : UInt32 → Pid → Method (Answers arch) α} {Q : α → World (Answers arch) → Prop}
    (h : ∀ live, Returns (AtStop a record tid (withLeader L tid leader)) (f tid live) Q) :
    Returns (Poised a record leader L)
      (do
        let tid ← Mt.enforceTid record
        let live ← Mt.liveFor tid record.seq
        f tid live) Q := by
  apply Returns.bind (enforceTid_returns htid)
  intro t w hw
  rcases hw with ⟨rfl, hw⟩
  exact Returns.bind (liveFor_returns htid record.seq) h w hw

/-- The tracee stops at the entry of the recorded call. -/
theorem onSyscallEnter_returns {enter : SyscallEnter} (htid : record.event.tid = some tid)
    (hdecode : SyscallEnter.decode record.event.payload = .ok enter)
    (hstatus : a.status = .ptraceSyscall 0) (hregs : a.regs = regsWithNr arch enter.nr) :
    Returns (Poised a record leader L) (Mt.onSyscallEnter arch record : Method (Answers arch) Unit)
      (fun _ => Consumed record) := by
  apply atThread_returns htid
  intro live
  apply Returns.bind (takeResumeSignal_returns live)
  intro sig
  apply Returns.bind (stepThread_returns (fun _ _ => by simp [hstatus]) live sig)
  refine fun status => Returns.assume fun heq => ?_
  rw [heq, hstatus]
  have hread : Returns (AtStop a record tid (withLeader L tid leader))
      (Regs.read arch live : Method (Answers arch) Registers)
      (fun regs w => regs.nr = enter.nr ∧ AtStop a record tid (withLeader L tid leader) w) := by
    refine Returns.bind (os_returns rfl fun w hw => hw.answers) fun regs =>
      Returns.assume fun hr => Returns.pure fun w hw => ⟨?_, hw⟩
    rw [hr, hregs, normalize_regsWithNr]
  refine Returns.bind hread fun regs => Returns.assume fun hnr => ?_
  refine Returns.bind (Q := fun _ => AtStop a record tid (withLeader L tid leader)) ?_ fun _ => ?_
  · apply Returns.update
    intro w hw
    exact { here := hw.here.withRegs (some regs), unwatched := hw.unwatched,
            answers := hw.answers, bindings := hw.bindings }
  refine Returns.bind (orFail_returns hdecode) fun decoded => Returns.assume fun hdecoded => ?_
  rw [hdecoded, if_neg (not_not.mpr hnr.symm)]
  refine Returns.bind (Returns.when ?_ fun w hw => hw) fun _ =>
    modifyThread_advance_returns live _
  -- both ways to cancel a syscall succeed
  unfold Regs.suppressSyscall
  split
  · refine Returns.bind (os_returns rfl fun w hw => hw.answers) fun regs =>
      Returns.assume fun _ => ?_
    exact (os_returns rfl fun w hw => hw.answers).mono (fun _ h => h) fun _ _ h => h.2
  · exact (os_returns rfl fun w hw => hw.answers).mono (fun _ h => h) fun _ _ h => h.2

/-- The tracee stops with the recorded signal. -/
theorem onSignal_returns {recorded : SignalDelivery} {sig : Signal}
    (htid : record.event.tid = some tid)
    (hdecode : SignalDelivery.decode record.event.payload = .ok recorded)
    (hsig : Signal.ofNum recorded.signum = some sig) (hstatus : a.status = .stopped 0 sig) :
    Returns (Poised a record leader L) (Mt.onSignal arch record : Method (Answers arch) Unit)
      (fun _ => Consumed record) := by
  apply atThread_returns htid
  intro live
  apply Returns.bind (takeResumeSignal_returns live)
  intro queued
  apply Returns.bind (stepThread_returns (fun _ _ => by simp [hstatus]) live queued)
  refine fun status => Returns.assume fun heq => ?_
  rw [heq, hstatus]
  refine Returns.bind (orFail_returns hdecode) fun decoded => Returns.assume fun hdecoded => ?_
  rw [hdecoded, if_neg (not_not.mpr (Signal.num_of_ofNum hsig).symm)]
  exact modifyThread_advance_returns live _

/-- The tracee exits. -/
theorem onThreadExit_returns (htid : record.event.tid = some tid)
    (hstatus : a.status = .exited 0 0) :
    Returns (Poised a record leader L)
      (Mt.onThreadExit arch record : Method (Answers arch) (Option ExitOutcome))
      (fun r w => r = none → Consumed record w) := by
  apply atThread_returns htid
  intro live
  apply Returns.bind (takeResumeSignal_returns live)
  intro queued
  apply Returns.bind (stepThread_returns (fun _ _ => by simp [hstatus]) live queued)
  refine fun status => Returns.assume fun heq => ?_
  rw [heq, hstatus]
  refine Returns.bind (state_returns fun w hw => hw.here.state) fun mt => ?_
  refine Returns.bind (Q := fun _ _ => True)
    (modifyState_returns (fun w hw => hw.2.here.state) fun _ _ _ _ => trivial) fun _ => ?_
  refine Returns.bind advance_returns fun _ => ?_
  split
  · refine Returns.bind (Q := fun _ _ => True) (Returns.update fun _ _ => trivial) fun _ => ?_
    exact Returns.pure fun _ _ h => nomatch h
  · exact Returns.pure fun _ hw _ => hw

/-- The new child can be bound: its tid is free or already its own. -/
theorem bind_of_bindings {m : TidMap} {childTid : UInt32} {child : Pid} (hL : m.liveOf = L)
    (hfree : L childTid = some child ∨ L childTid = none ∧ ∀ r, L r ≠ some child) :
    ∃ m', m.bind childTid child = .ok m' := by
  apply TidMap.bind_of_conflict_eq_none
  rw [TidMap.conflict_eq_none]
  have hforth : m.toLive[childTid]? = L childTid := by rw [← hL]; rfl
  rcases hfree with hsome | ⟨hnone, hfresh⟩
  · have hlive : m.toLive[childTid]? = some child := by rw [hforth, hsome]
    exact ⟨.inr hlive, .inr ((m.inverse childTid child).mp hlive)⟩
  · refine ⟨.inl (by rw [hforth, hnone]), .inl ?_⟩
    cases hback : m.toRecorded[child]? with
    | none => rfl
    | some r =>
      have hlive : m.liveOf r = some child := (m.inverse r child).mpr hback
      rw [hL] at hlive
      exact absurd hlive (hfresh r)

/-- The tracee reports a child whose tid is free or its own already. -/
theorem onThreadSpawn_returns {spawn : ThreadSpawn} (htid : record.event.tid = some tid)
    (hdecode : ThreadSpawn.decode record.event.payload = .ok spawn)
    (hstatus : a.status = .ptraceEvent 0 .trap EventCode.clone)
    (hfree : withLeader L tid leader spawn.childTid = some a.child ∨
      withLeader L tid leader spawn.childTid = none ∧
        ∀ r, withLeader L tid leader r ≠ some a.child) :
    Returns (Poised a record leader L) (Mt.onThreadSpawn arch record : Method (Answers arch) Unit)
      (fun _ => Consumed record) := by
  apply atThread_returns htid
  intro parent
  refine Returns.bind (orFail_returns hdecode) fun decoded => Returns.assume fun hdecoded => ?_
  refine Returns.bind (takeResumeSignal_returns parent) fun queued => ?_
  have hnotExec (pid : Pid) (sig : Signal) : a.status ≠ .ptraceEvent pid sig EventCode.exec := by
    rw [hstatus]
    intro h
    cases h
  refine Returns.bind (stepThread_returns hnotExec parent queued) fun status =>
    Returns.assume fun heq => ?_
  rw [heq, hstatus]
  simp only [show isSpawnEvent EventCode.clone = true from rfl, if_true]
  refine Returns.bind (os_returns rfl fun w hw => hw.answers) fun child =>
    Returns.assume fun hchild => ?_
  have hregister : Returns (AtStop a record tid (withLeader L tid leader))
      (Mt.registerChild arch child record.seq : Method (Answers arch) Unit)
      (fun _ => AtStop a record tid (withLeader L tid leader)) := by
    refine Returns.bind (os_returns rfl fun w hw => hw.answers) fun status =>
      Returns.assume fun heq => ?_
    rw [heq, hstatus]
    exact (os_returns rfl fun w hw => hw.answers).mono (fun _ h => h) fun _ _ h => h.2
  refine Returns.bind hregister fun _ => ?_
  -- binding the child is the one step that depends on the table
  have hbind : Returns (AtStop a record tid (withLeader L tid leader))
      (Mt.bindChild record.seq decoded.childTid child parent (EventCode.clone == EventCode.vfork)
        : Method (Answers arch) Unit)
      (fun _ w => w.session.watchpoint = none) := by
    intro w hw
    rcases hw.here.state with ⟨mt, hmt⟩
    rcases bind_of_bindings (hw.bindings mt hmt) hfree with ⟨tidmap, htidmap⟩
    have hstate : exec (Mt.state : Method (Answers arch) MtState) w = some (.ok mt, w) := by
      rw [Mt.state, bind_ok (exec_self w), hmt, exec_pure]
    rw [Mt.bindChild, bind_ok hstate, hdecoded, hchild, htidmap, bind_ok (exec_orFail_ok _ _ _)]
    rw [Mt.modifyState, bind_ok hstate]
    exact ⟨(), _, rfl, hw.unwatched⟩
  refine Returns.bind hbind fun _ => ?_
  refine Returns.bind (Q := fun _ _ => True) ?_ fun _ => advance_returns
  intro w hw
  refine ⟨(), w, ?_, trivial⟩
  rw [Mt.armChild, bind_ok (exec_self w), hw, exec_pure]

/-- A switch asks nothing of the tracee. -/
theorem onSchedSwitch_returns {switch : SchedSwitch}
    (hdecode : SchedSwitch.decode record.event.payload = .ok switch) :
    Returns (Poised a record leader L) (Mt.onSchedSwitch record : Method (Answers arch) Unit)
      (fun _ => Consumed record) := by
  refine Returns.bind (orFail_returns hdecode) fun decoded => Returns.assume fun _ => ?_
  refine Returns.bind (Q := fun _ _ => True) ?_ fun _ => advance_returns
  exact modifyState_returns (fun w hw => hw.here.state) fun _ _ _ _ => trivial

/-- There are more pids than tids. -/
theorem exists_unbound (L : UInt32 → Option Pid) : ∃ child : Pid, ∀ r, L r ≠ some child := by
  rcases Infinite.exists_notMem_finset
    (Finset.univ.image fun i : Fin (2 ^ 32) => (L (UInt32.ofFin i)).getD 0) with ⟨child, hchild⟩
  refine ⟨child, fun r hr => hchild ?_⟩
  rw [Finset.mem_image]
  refine ⟨r.toFin, Finset.mem_univ _, ?_⟩
  rw [UInt32.ofFin_toFin, hr]
  rfl

/-- Some tracees satisfy an acceptable first record. -/
theorem exists_answers (hkind : record.event.kind ≠ .checkpoint) (hacc : Acceptable record = true)
    (leader : Pid) (L : UInt32 → Option Pid) :
    ∃ a : Answers arch, Returns (Poised a record leader L)
      (Mt.onRecord arch record : Method (Answers arch) (Option ExitOutcome))
      (fun r w => r = none → Consumed record w) := by
  -- Answers are chosen by the kind of the record, so that its handler matches them.
  have hnone {a : Answers arch} {m : Method (Answers arch) Unit}
      (h : Returns (Poised a record leader L) m (fun _ => Consumed record)) :
      Returns (Poised a record leader L) (do m; pure (none : Option ExitOutcome))
        (fun r w => r = none → Consumed record w) :=
    Returns.bind h fun _ => Returns.pure fun _ hw _ => hw
  unfold Acceptable at hacc
  unfold Mt.onRecord
  split
  · rename_i hcheckpoint
    exact absurd hcheckpoint hkind
  · rename_i hk
    simp only [hk] at hacc
    rcases hdecode : SchedSwitch.decode record.event.payload with e | switch
    · simp [hdecode, Except.isOk, Except.toBool] at hacc
    · exact ⟨⟨.stillAlive, regsWithNr arch 0, 0⟩, hnone (onSchedSwitch_returns hdecode)⟩
  · rename_i hk
    simp only [hk, Bool.and_eq_true, Option.isSome_iff_exists] at hacc
    rcases hacc with ⟨⟨tid, htid⟩, hok⟩
    rcases hdecode : SyscallEnter.decode record.event.payload with e | enter
    · simp [hdecode, Except.isOk, Except.toBool] at hok
    · exact ⟨⟨.ptraceSyscall 0, regsWithNr arch enter.nr, 0⟩,
        hnone (onSyscallEnter_returns htid hdecode rfl rfl)⟩
  · rename_i hk
    simp [hk] at hacc
  · rename_i hk
    simp only [hk, Bool.and_eq_true, Option.isSome_iff_exists] at hacc
    rcases hacc with ⟨⟨tid, htid⟩, hok⟩
    rcases hdecode : ThreadSpawn.decode record.event.payload with e | spawn
    · simp [hdecode, Except.isOk, Except.toBool] at hok
    · cases hL : withLeader L tid leader spawn.childTid with
      | some child =>
        exact ⟨⟨.ptraceEvent 0 .trap EventCode.clone, regsWithNr arch 0, child⟩,
          hnone (onThreadSpawn_returns htid hdecode rfl (.inl hL))⟩
      | none =>
        rcases exists_unbound (withLeader L tid leader) with ⟨child, hchild⟩
        exact ⟨⟨.ptraceEvent 0 .trap EventCode.clone, regsWithNr arch 0, child⟩,
          hnone (onThreadSpawn_returns htid hdecode rfl (.inr ⟨hL, hchild⟩))⟩
  · rename_i hk
    simp only [hk, Option.isSome_iff_exists] at hacc
    rcases hacc with ⟨tid, htid⟩
    exact ⟨⟨.exited 0 0, regsWithNr arch 0, 0⟩, onThreadExit_returns htid rfl⟩
  · rename_i hk
    simp only [hk, Bool.and_eq_true, Option.isSome_iff_exists] at hacc
    rcases hacc with ⟨⟨tid, htid⟩, hok⟩
    rcases hdecode : SignalDelivery.decode record.event.payload with e | recorded
    · simp [hdecode] at hok
    · simp only [hdecode, Option.isSome_iff_exists] at hok
      rcases hok with ⟨sig, hsig⟩
      exact ⟨⟨.stopped 0 sig, regsWithNr arch 0, 0⟩,
        hnone (onSignal_returns htid hdecode hsig rfl)⟩
  · rename_i hsyscallEnter _ _ _ _ _
    split at hacc <;> simp_all

/-! ### Driving on -/

/-- Forgetting the watchpoint always succeeds here. -/
theorem clearWatch_returns {s : ReplaySession} :
    exec (perform arch .clearWatch) ⟨s, a⟩ =
      some (.ok none, ⟨{ s with watchpoint := none, lastValue := none }, a⟩) := by
  -- Every call of this system succeeds, so the threads are disarmed one by one.
  have hdisarm (live : Pid) (w : World (Answers arch)) :
      exec (WatchHw.disarm arch live) w = some (.ok (), w) := by
    cases arch with
    | x86_64 => rfl
    | aarch64 => rfl
  have hall (lives : List Pid) (w : World (Answers arch)) :
      exec (forEach (WatchHw.disarm arch) lives) w = some (.ok (), w) := by
    induction lives with
    | nil => rfl
    | cons live lives ih => rw [forEach, bind_ok (hdisarm live w), ih]
  have hwhen (c : Bool) (lives : List Pid) (w : World (Answers arch)) :
      exec (Run.when c (forEach (WatchHw.disarm arch) lives)) w = some (.ok (), w) := by
    cases c with
    | false => rfl
    | true => exact hall lives w
  have hclear : exec (clearWatch arch) ⟨s, a⟩ =
      some (.ok (), ⟨{ s with watchpoint := none, lastValue := none }, a⟩) := by
    rw [clearWatch, bind_ok (exec_self _), bind_ok (exec_modifySelf _ _), bind_ok (hwhen _ _ _)]
    rfl
  rw [perform, bind_ok hclear]
  rfl

/-- A drive to a seq that is already reached answers at once. -/
theorem stepTo_current {w : World (Answers arch)} {seq : UInt64}
    (h : w.session.currentSeq = some seq) :
    ∃ outcome w', exec (perform arch (.stepTo seq)) w = some (.ok (some outcome), w') := by
  have hreached : reached (some seq) (some seq) = true := by simp [reached]
  have hdrive : ∃ outcome w', exec (drive arch (some seq)) w = some (.ok outcome, w') := by
    rw [drive, bind_ok (exec_self w)]
    cases hfinished : w.session.finished with
    | some outcome => exact ⟨outcome, w, rfl⟩
    | none =>
      -- Either driver looks at the place before it looks at the tracee.
      by_cases hmulti : w.session.multithreaded = true
      · simp only [hmulti, if_true]
        have hensure : ∃ w', exec (Mt.ensureState arch) w = some (.ok (), w') ∧
            w'.session.currentSeq = some seq := by
          rw [Mt.ensureState, bind_ok (exec_self w)]
          cases w.session.mt with
          | some mt => exact ⟨w, rfl, h⟩
          | none => exact ⟨_, rfl, h⟩
        rcases hensure with ⟨w', hexec, hseq⟩
        refine ⟨.running, w', ?_⟩
        rw [Mt.drive, bind_ok hexec]
        apply loop_of_leaves
        refine .inl ⟨.running, ?_, rfl⟩
        rw [Mt.driveRound, bind_ok (exec_self w'), hseq, if_pos hreached]
        rfl
      · simp only [hmulti]
        refine ⟨.running, w, loop_of_leaves (.inl ⟨.running, ?_, rfl⟩)⟩
        rw [driveRound, bind_ok (exec_self w), h, if_pos hreached]
        rfl
  rcases hdrive with ⟨outcome, w', hexec⟩
  exact ⟨outcome, w', by rw [perform, stepTo, bind_ok hexec]; rfl⟩

/-- The single-tracee driver takes an exit at any point of the trace for the end. -/
theorem runToEnd_single {w : World (Answers arch)} (hsingle : w.session.multithreaded = false)
    (hstatus : w.os.status = .exited 0 0) :
    ∃ outcome w', exec (perform arch .runToEnd) w = some (.ok (some outcome), w') := by
  have hdrive : ∃ outcome w', exec (drive arch none) w = some (.ok outcome, w') := by
    rw [drive, bind_ok (exec_self w)]
    cases hfinished : w.session.finished with
    | some outcome => exact ⟨outcome, w, rfl⟩
    | none =>
      simp only [hsingle]
      have hround : ∃ w', exec (driveRound arch none) w = some (.ok (some (.exited 0)), w') := by
        have hsyscall (pid : Pid) (sig : Option Signal) (v : World (Answers arch)) :
            exec (os (Ptrace.syscall arch pid sig)) v = some (.ok (), v) := rfl
        have hwait (pid : Pid) (flags : WaitFlags) (v : World (Answers arch)) :
            exec (os (Ptrace.waitpid arch pid flags)) v = some (.ok v.os.status, v) := rfl
        rw [driveRound, bind_ok (exec_self w), if_neg (by simp [reached]),
          bind_ok (exec_modifySelf _ _), bind_ok (hsyscall _ _ _), bind_ok (hwait _ _ _), hstatus]
        exact ⟨_, rfl⟩
      rcases hround with ⟨w', hexec⟩
      exact ⟨.exited 0, w', loop_of_leaves (.inl ⟨_, hexec, rfl⟩)⟩
  rcases hdrive with ⟨outcome, w', hexec⟩
  exact ⟨outcome, w', by rw [perform, runToEnd, bind_ok hexec]; rfl⟩

/-- Tracees that satisfy the first record let a drive to it answer. -/
theorem stepTo_first {w : World (Answers arch)} (hw : Poised a record leader L w)
    (hreturns : Returns (Poised a record leader L)
      (Mt.onRecord arch record : Method (Answers arch) (Option ExitOutcome))
      (fun r w => r = none → Consumed record w)) :
    ∃ outcome w', exec (perform arch (.stepTo record.seq)) w = some (.ok (some outcome), w') := by
  have hreached : reached (some record.seq) (some record.seq) = true := by simp [reached]
  rcases hw.here.state with ⟨mt, hmt⟩
  have hensure : exec (Mt.ensureState arch) w = some (.ok (), w) := by
    rw [Mt.ensureState, bind_ok (exec_self w), hmt]
    rfl
  rcases hreturns w hw with ⟨r, w', hexec, hconsumed⟩
  have hround : exec (Mt.driveRound arch (some record.seq)) w = some (.ok r, w') := by
    rw [Mt.driveRound, bind_ok (exec_self w), if_neg (by simp [hw.here.current, reached]),
      hw.here.here, hexec]
  have hloop : ∃ outcome, exec (Run.loop (Mt.driveRound arch (some record.seq))) w =
      some (.ok outcome, w') := by
    cases r with
    | some outcome => exact ⟨outcome, loop_of_leaves (.inl ⟨outcome, hround, rfl⟩)⟩
    | none =>
      -- the record is consumed, so the next round stops
      refine ⟨.running, ?_⟩
      rw [loop_again hround]
      apply loop_of_leaves
      refine .inl ⟨.running, ?_, rfl⟩
      rw [Mt.driveRound, bind_ok (exec_self w'), hconsumed rfl, if_pos hreached]
      rfl
  rcases hloop with ⟨outcome, hloop⟩
  refine ⟨outcome, w', ?_⟩
  have hdrive : exec (drive arch (some record.seq)) w = some (.ok outcome, w') := by
    rw [drive, bind_ok (exec_self w), hw.here.unfinished]
    simp only [hw.here.multithreaded, if_true]
    rw [Mt.drive, bind_ok hensure, hloop]
  rw [perform, stepTo, bind_ok hdrive]
  rfl

end Answers

/-! ## The exact condition -/

section

variable (arch : Arch)

/-- Later states of a session that has not gone back to a checkpoint or to process
entry since: a call that would go back has failed and left the session as it was. -/
inductive Continues {ω : Type} [Ptrace arch ω] [Unwind ω] (w : World ω) : World ω → Prop where
  | refl : Continues w w
  | call {u v : World ω} {r : Except ReplayError (Option ExitOutcome)} (hu : Continues w u)
      (c : SessionCall) (hexec : exec (perform arch c) u = some (r, v))
      (hstays : c.restarts u.session = false ∨ v.session = u.session) : Continues w v

/-- Whatever the tracees do from here on, no driving call answers before the session
goes back to a checkpoint or to process entry. -/
def Sticky (s : ReplaySession) : Prop :=
  ∀ (ω : Type) [Ptrace arch ω] [Unwind ω] (os : ω) (w w' : World ω),
    Continues arch ⟨s, os⟩ w → ∀ c : SessionCall, c.restarts w.session = false →
      ∀ outcome : ExitOutcome, exec (perform arch c) w ≠ some (.ok (some outcome), w')

/-- A trace whose first record no stop satisfies is driven by the multi-threaded driver
and never gets past its start. -/
def NeverStarts (s : ReplaySession) : Prop :=
  s.multithreaded = true ∧ ∃ record, firstRecord s.records = some record ∧ Acceptable record = false

variable {arch} {ω : Type} [Ptrace arch ω] [Unwind ω]

/-- In every state of a session on such a trace nothing is consumed. -/
theorem Reachable.blocked {w : World ω} (h : Reachable arch w) (hnever : NeverStarts w.session) :
    Blocked w.session := by
  induction h with
  | @launch cmdline records os w hlaunch =>
    have hsettled := (Reachable.launch hlaunch).settled arch hnever.1
    rcases launch_session arch hlaunch with ⟨pid, hs⟩
    refine { settled := ⟨hnever.1, hsettled⟩, start := ?_, unfinished := ?_, first := hnever.2 }
    · rw [hs]
      rfl
    · rw [hs]
      rfl
  | @call w w' r hw c hcall ih =>
    rcases perform_fixed arch hcall with ⟨-, hrecords, hmulti⟩
    have hblocked : Blocked w.session := ih ⟨hmulti ▸ hnever.1, hrecords ▸ hnever.2⟩
    have hpost := perform_keeps_blocked arch c w hblocked r w' hcall
    cases r with
    | ok a => exact hpost
    | error e => exact hpost

/-- A run of later calls, by induction on it. -/
theorem Continues.blocked {w w' : World ω} (h : Continues arch w w') (hw : Blocked w.session) :
    Blocked w'.session := by
  induction h with
  | refl => exact hw
  | @call u v r _ c hexec _ ih =>
    have hpost := perform_keeps_blocked arch c u ih r v hexec
    cases r with
    | ok a => exact hpost
    | error e => exact hpost

theorem Blocked.sticky {s : ReplaySession} (h : Blocked s) : Sticky arch s := by
  intro ω _ _ os w w' hcontinues c _ outcome
  exact perform_blocked arch (hcontinues.blocked h) c outcome

/-- After a call has reported a divergence, no later call answers without going back
exactly when the trace is one that never gets past its start. -/
theorem divergence_sticky_iff {w w' : World ω} (hw : Reachable arch w) (c : SessionCall)
    (e : ReplayError) (hcall : exec (perform arch c) w = some (.error e, w'))
    (he : e.IsDivergence) : Sticky arch w'.session ↔ NeverStarts w'.session := by
  have hw' : Reachable arch w' := hw.call c hcall
  constructor
  · intro hsticky
    by_contra hstarts
    -- nothing is consumed yet, or a drive to the last consumed seq answers
    have hnone : w'.session.currentSeq = none := by
      cases hcurrent : w'.session.currentSeq with
      | none => rfl
      | some seq =>
        let u : World (Answers arch) := ⟨w'.session, ⟨.stillAlive, regsWithNr arch 0, 0⟩⟩
        rcases @stepTo_current arch u seq hcurrent with ⟨outcome, v, hexec⟩
        exact absurd hexec (hsticky _ _ u v .refl (.stepTo seq) rfl outcome)
    cases hmulti : w'.session.multithreaded with
    | false =>
      let u : World (Answers arch) := ⟨w'.session, ⟨.exited 0 0, regsWithNr arch 0, 0⟩⟩
      rcases @runToEnd_single arch u hmulti rfl with ⟨outcome, v, hexec⟩
      exact hsticky _ _ u v .refl .runToEnd rfl outcome hexec
    | true =>
      have hmulti' : w.session.multithreaded = true := by
        rw [← (perform_fixed arch hcall).2.2, hmulti]
      have hfailed := (perform_spec arch c).error ⟨hmulti', hw.settled arch hmulti'⟩ hcall
      rcases hfailed.2.2 he with ⟨cur, record, hat⟩
      have hcur : cur = none := by rw [← hat.current, hnone]
      subst hcur
      have hacc : Acceptable record = true := by
        by_contra hnot
        exact hstarts ⟨hmulti, record, hat.first hnone, Bool.eq_false_iff.mpr hnot⟩
      rcases hat.state with ⟨mt, hmt⟩
      rcases @exists_answers arch record hat.kind hacc mt.leader mt.tidmap.liveOf with ⟨a, hreturns⟩
      -- without its watchpoint the session consumes the record
      let s : ReplaySession := { w'.session with watchpoint := none, lastValue := none }
      have hpoised : Poised a record mt.leader mt.tidmap.liveOf ⟨s, a⟩ := by
        refine { here := ?_, unwatched := rfl, answers := rfl, bindings := ?_ }
        · exact { toDriving := hat.toDriving.congr rfl rfl rfl rfl rfl rfl rfl,
                  current := hat.current, here := hat.here, kind := hat.kind }
        · intro mt' hmt'
          rcases Option.some.inj (hmt.symm.trans hmt') with rfl
          exact ⟨rfl, rfl⟩
      rcases stepTo_first hpoised hreturns with ⟨outcome, v, hexec⟩
      have hcleared : Continues arch (⟨w'.session, a⟩ : World (Answers arch)) ⟨s, a⟩ :=
        .call .refl .clearWatch clearWatch_returns (.inl rfl)
      exact hsticky _ a ⟨s, a⟩ v hcleared (.stepTo record.seq) rfl outcome hexec
  · intro hnever
    exact (hw'.blocked hnever).sticky

end

/-- A trace that opens with a fork record, which the driver of a multi-threaded trace
does not take. -/
def forkFirst : List Record :=
  [⟨0, .newWithTid .fork 0 1 []⟩, ⟨1, .newWithTid .schedSwitch 0 1 [1, 0, 0, 0]⟩]

/-- On this trace the divergence is final. -/
theorem divergence_sticky_forkFirst :
    ∃ w w' : World (Answers .x86_64), Reachable .x86_64 w ∧
      exec (perform .x86_64 .runToEnd) w =
        some (.error (.unexpectedRecord 0 "syscall or thread-lifecycle record" .fork), w') ∧
      Sticky .x86_64 w'.session := by
  let a : Answers .x86_64 := ⟨.stopped 1 .trap, regsWithNr .x86_64 0, 1⟩
  let s : ReplaySession := .ofTrace ⟨"true", []⟩ forkFirst
  have hlaunch : exec (launch .x86_64) ⟨s, a⟩ = some (.ok (), ⟨{ s with pid := 1 }, a⟩) := rfl
  have hreachable := Reachable.launch hlaunch
  let seated : ReplaySession :=
    { s with
      pid := 1
      mt := some { MtState.new 1 with threads := (∅ : KeyMap Pid ThreadRt).insert 1 {} } }
  have hensure : exec (Mt.ensureState .x86_64) ⟨{ s with pid := 1 }, a⟩ =
      some (.ok (), ⟨seated, a⟩) := rfl
  -- The first record is of a kind that no handler takes.
  have hround : exec (Mt.driveRound .x86_64 none) (⟨seated, a⟩ : World (Answers .x86_64)) =
      some (.error (.unexpectedRecord 0 "syscall or thread-lifecycle record" .fork),
        ⟨seated, a⟩) := rfl
  have hdrive : exec (drive .x86_64 none) ⟨{ s with pid := 1 }, a⟩ =
      some (.error (.unexpectedRecord 0 "syscall or thread-lifecycle record" .fork),
        ⟨seated, a⟩) := by
    rw [drive, bind_ok (exec_self _)]
    change exec (Mt.drive .x86_64 none) _ = _
    rw [Mt.drive, bind_ok hensure]
    exact loop_of_leaves (.inr ⟨_, hround, rfl⟩)
  have hcall : exec (perform .x86_64 .runToEnd) ⟨{ s with pid := 1 }, a⟩ =
      some (.error (.unexpectedRecord 0 "syscall or thread-lifecycle record" .fork),
        ⟨seated, a⟩) := by
    rw [perform, runToEnd, bind_error hdrive]
  refine ⟨_, _, hreachable, hcall, (divergence_sticky_iff hreachable _ _ hcall trivial).mpr ?_⟩
  exact ⟨rfl, ⟨0, .newWithTid .fork 0 1 []⟩, rfl, rfl⟩

/-- A system that reports its stops in order, every one with the same registers. -/
structure Script (arch : Arch) where
  stops : List WaitStatus
  regs : FullRegs arch

instance (arch : Arch) : Ptrace arch (Script arch) where
  spawnTraced _ a := (.ok 1, a)
  syscall _ _ a := (.ok (), a)
  step _ a := (.ok (), a)
  kill _ a := (.ok (), a)
  waitpid _ _ a :=
    match a.stops with
    | [] => (.error Errno.ECHILD, a)
    | stop :: stops => (.ok stop, { a with stops })
  setoptions _ _ a := (.ok (), a)
  getevent _ a := (.error Errno.ESRCH, a)
  getregs _ a := (.ok a.regs, a)
  setregs _ _ a := (.ok (), a)
  setSyscallNr _ _ a := (.ok (), a)
  processVmReadv _ _ _ a := (.error Errno.EFAULT, a)
  processVmWritev _ _ _ a := (.error Errno.EFAULT, a)
  pokeUser _ _ _ a := (.ok (), a)
  setHwWatch _ _ _ a := (.ok (), a)
  getsiginfo _ a := (.error Errno.ESRCH, a)

instance (arch : Arch) : Unwind (Script arch) where
  forPid _ a := (.ok (), a)
  registers _ a := (.ok 0, a)
  backtrace _ _ a := (.ok [], a)

/-- The recording begins with syscall 1, but the target exits with syscall 231: the
first call reports the divergence, and the next one answers as if the trace were done. -/
theorem divergence_not_sticky_on_exit :
    ∃ w w' w'' : World (Script .x86_64),
      exec (launch .x86_64)
        ⟨.ofTrace ⟨"true", []⟩
          [⟨0, .newWithTid .syscallEnter 0 1
            (SyscallEnter.encode ⟨1, Vector.replicate 6 0⟩)⟩],
          ⟨[.stopped 1 .trap, .ptraceSyscall 1, .exited 1 0], regsWithNr .x86_64 231⟩⟩ =
        some (.ok (), w) ∧
      exec (perform .x86_64 .runToEnd) w = some (.error (.diverged 0 1 231), w') ∧
      SessionCall.restarts w'.session .runToEnd = false ∧
      exec (perform .x86_64 .runToEnd) w' = some (.ok (some (.exited 0)), w'') := by
  let record : Record :=
    ⟨0, .newWithTid .syscallEnter 0 1 (SyscallEnter.encode ⟨1, Vector.replicate 6 0⟩)⟩
  let s : ReplaySession := { ReplaySession.ofTrace ⟨"true", []⟩ [record] with pid := 1 }
  let regs := regsWithNr .x86_64 231
  -- the record is gone and the stop is taken, but nothing is noted as consumed
  let s' : ReplaySession := { s with cursor := 1, lastRegs := some (normalize .x86_64 regs) }
  have hround : exec (driveRound .x86_64 none)
      (⟨s, ⟨[.ptraceSyscall 1, .exited 1 0], regs⟩⟩ : World (Script .x86_64)) =
      some (.error (.diverged 0 1 231), ⟨s', ⟨[.exited 1 0], regs⟩⟩) := rfl
  have hround' : exec (driveRound .x86_64 none)
      (⟨s', ⟨[.exited 1 0], regs⟩⟩ : World (Script .x86_64)) =
      some (.ok (some (.exited 0)), ⟨{ s' with finished := some (.exited 0) }, ⟨[], regs⟩⟩) := rfl
  refine ⟨⟨s, ⟨[.ptraceSyscall 1, .exited 1 0], regs⟩⟩, ⟨s', ⟨[.exited 1 0], regs⟩⟩,
    ⟨{ s' with finished := some (.exited 0) }, ⟨[], regs⟩⟩, rfl, ?_, rfl, ?_⟩
  · have hdrive := loop_of_leaves (.inr ⟨_, hround, rfl⟩)
    exact bind_error hdrive
  · have hdrive := loop_of_leaves (.inl ⟨_, hround', rfl⟩)
    exact bind_ok hdrive

end Mirrorscope.Replay
