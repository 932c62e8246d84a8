import Mirrorscope.Replay.History

/-! # Rewinding a session whose target has ended

The decision to restart looks at the last consumed record only. So a session whose
target has ended is rewound to every target before that record, but a call for the
very last record does not restart, and answers that the target has ended.
-/

namespace Mirrorscope.Replay

open Capture Linux Run
open Trace (Cmdline Record)

variable {arch : Arch} {M : Machine arch} {cmdline : Cmdline} {records : List Record}
  {w w' f v : World (Os M)} {laws : ForkLaws M} {err : Prop} {t c : UInt64}

/-- Sessions in the same state: the same position, and tracees in the same state. -/
def SameState (w u : World (Os M)) : Prop := ∃ i j, Twin (fun _ => True) i j w u

/-- A fresh session gets to the target. -/
def Reaches (t : UInt64) (f : World (Os M)) : Prop :=
  ∃ u, exec (stepTo arch t) f = some (.ok .running, u)

/-- A call to `run_to` brings the session, with a live tracee, to where a fresh one gets. -/
def RewindsTo (t : UInt64) (w f : World (Os M)) : Prop :=
  ∃ w' u, exec (runTo arch t) w = some (.ok .running, w') ∧ w'.session.finished = none ∧
    exec (stepTo arch t) f = some (.ok .running, u) ∧ SameState w' u

/-- The start point for a target is not after it. -/
theorem planStart_le (s : ReplaySession) (t : UInt64) : (planStart s t).seq ≤ t := by
  unfold planStart
  split
  · rename_i index hindex
    rcases nearestAtOrBefore_some hindex with ⟨seq, hseq, hle⟩
    rw [List.getElem?_map] at hseq
    rcases Option.map_eq_some_iff.mp hseq with ⟨c, hc, rfl⟩
    simpa [hc] using hle
  · exact UInt64.zero_le

/-- At or after the last consumed record there is no restart, and the target stays ended. -/
theorem runTo_over {outcome : ExitOutcome} (hover : w.session.finished = some outcome)
    (hcurrent : w.session.currentSeq = some c) (hle : c ≤ t) (hstart : t ≤ c) :
    exec (runTo arch t) w = some (.ok outcome, w) := by
  have hno : shouldRestart w.session.currentSeq (planStart w.session t).seq t = false := by
    rw [hcurrent]
    have hplan := UInt64.le_trans (planStart_le w.session t) hstart
    simp [shouldRestart, hle, hplan]
  rw [exec_runTo_drive hno, exec_drive_over hover]

/-- Rounds of the straight run are followed by its twins. -/
theorem follow_rounds {i j k : Nat} {u : World (Os M)} (laws : ForkLaws M)
    (htwin : Coupled laws i j w u) (h : Rounds (driveRound arch none) k w w') :
    ∃ u', Rounds (driveRound arch none) k u u' ∧ Coupled laws i j w' u' := by
  induction h generalizing u with
  | zero w => exact ⟨u, .zero u, htwin⟩
  | succ first _ ih =>
    rcases follow_round laws htwin first with ⟨u₁, hexec, htwin₁, -⟩
    rcases ih htwin₁ with ⟨u', hrest, htwin'⟩
    exact ⟨u', .succ hexec hrest, htwin'⟩

/-- From a state of the straight run that leads and is not past the target, a twin is driven
to where the straight run gets. -/
theorem lands_of_reaches {i j n : Nat} {u : World (Os M)} (laws : ForkLaws M) (hf : Entry f)
    (hsingle : f.session.multithreaded = false) (hsame : w.session.multithreaded = false)
    (hu : StraightRun f n u) (hlead : Leading f n u) (htwin : Coupled laws i j w u)
    (hlive : w.session.finished = none) (hle : ∀ y, u.session.currentSeq = some y → y ≤ t)
    (hfresh : exec (stepTo arch t) f = some (.ok .running, v)) :
    ∃ w', exec (drive arch (some t)) w = some (.ok .running, w') ∧ Coupled laws i j w' v := by
  rcases stepTo_entry_inv laws hf hsingle hfresh with ⟨m, hv, hpassing, hreached⟩
  have hbefore := driveRound_straight.passing hf.toOrigin hu hlead hle
  -- the target is not met before `u`, so `u` is on the way to `v`
  have hnm : n ≤ m := by
    by_contra hlt
    have hgo := hbefore m (by omega) v hv
    rw [hreached] at hgo
    cases hgo
  have hsum : n + (m - n) = m := by omega
  rw [← hsum] at hv hpassing
  rcases hv.split with ⟨x, hx, hrest⟩
  rcases hx.unique hu with rfl
  have hrestPassing := hpassing.after hu
  rcases follow_rounds laws htwin.symm hrest with ⟨w', hrounds, htwin'⟩
  refine ⟨w', ?_, htwin'.symm⟩
  have hpassing' : Passing (atTarget (some t)) (driveRound arch none) (m - n) w := by
    intro k hk y hy
    rcases follow_rounds laws htwin hy with ⟨z, hz, htwinz⟩
    have hgo := hrestPassing k hk z hz
    unfold atTarget at hgo ⊢
    rwa [htwinz.view.currentSeq]
  have hreached' : atTarget (some t) w' = true := by
    unfold atTarget at hreached ⊢
    rwa [← htwin'.view.currentSeq]
  rw [exec_drive_single hlive hsame, driveRound_upTo]
  exact loop_upTo_stops hrounds hpassing' hreached'

/-- A call that restarts lands on the straight run. -/
theorem runTo_restarted (hf : Entry f) (hsingle : f.session.multithreaded = false)
    (h : Traveler laws f err w)
    (hyes : shouldRestart w.session.currentSeq (planStart w.session t).seq t = true)
    (hreach : Reaches t f) : RewindsTo t w f := by
  rcases hreach with ⟨v, hfresh⟩
  rcases restart_lands hf h t with ⟨i, w₁, hexec, hsound, hlanded⟩
  cases hlanded with
  | @run n j u rounds lead twin unfinished notPast =>
    rcases lands_of_reaches laws hf hsingle (hsound.multithreaded.trans hsingle) rounds lead twin
      unfinished notPast hfresh with ⟨w', hdrive, htwin⟩
    rcases stepTo_entry_inv laws hf hsingle hfresh with ⟨m, hv, -, -⟩
    have hlive : w'.session.finished = none :=
      htwin.view.finished.trans (hf.onRun laws hv).unfinished
    refine ⟨w', v, ?_, hlive, hfresh, i, j, htwin.mono fun _ _ => trivial⟩
    rw [exec_runTo_restart hyes hexec, hdrive]
  | past _ far before _ _ _ =>
    -- a snapshot past the straight run is not before a target on it
    exfalso
    rcases stepTo_entry_inv laws hf hsingle hfresh with ⟨m, hv, -, hreached⟩
    unfold atTarget at hreached
    cases hy : v.session.currentSeq with
    | none =>
      rw [hy] at hreached
      cases hreached
    | some y =>
      rw [hy] at hreached
      have hty : t ≤ y := by simpa [reached] using hreached
      have hyc := (far m v hv).2 y hy
      exact UInt64.lt_irrefl _ (UInt64.lt_of_lt_of_le (UInt64.lt_of_lt_of_le hyc before) hty)

/-- Before the last consumed record, a restart lands on the straight run. -/
theorem runTo_rewinds (hf : Entry f) (hsingle : f.session.multithreaded = false)
    (h : Traveler laws f err w) (hcurrent : w.session.currentSeq = some c) (hlt : t < c)
    (hreach : Reaches t f) : RewindsTo t w f := by
  have hyes : shouldRestart w.session.currentSeq (planStart w.session t).seq t = true := by
    rw [hcurrent]
    simp [shouldRestart, hlt]
  exact runTo_restarted hf hsingle h hyes hreach

/-- A session in which no call has failed ended where the straight run ends. -/
theorem reaches_of_over {outcome : ExitOutcome} (hf : Entry f)
    (hsingle : f.session.multithreaded = false) (h : Traveler laws f False w)
    (hover : w.session.finished = some outcome) (hcurrent : w.session.currentSeq = some c)
    (hle : t ≤ c) : Reaches t f := by
  rcases h with ⟨i, hsound, hactive⟩
  cases hactive with
  | tracking _ _ _ unfinished =>
    rw [hover] at unfinished
    cases unfinished
  | past failed _ _ _ => exact failed.elim
  | ended _ _ ran =>
    rcases ran with failed | ⟨n, u, hu, hsame⟩
    · exact failed.elim
    · have hreached : atTarget (some t) u = true := by
        unfold atTarget
        rw [← hsame, hcurrent]
        simpa [reached] using hle
      rcases exists_first hu hreached with ⟨m, -, x, hx, hpassing, hstop⟩
      exact ⟨x, exec_stepTo_entry hf hsingle hx hpassing hstop⟩

/-- How far the program has come. -/
inductive Phase where
  | started
  | called
  | returned
  | cloning
  | faulted
deriving DecidableEq

/-- The state of a program that makes one call and then executes an invalid instruction. -/
structure OneCall where
  regs : X86Regs
  phase : Phase

/-- The program: it stops at the entry and at the exit of its call, `getpid`, and then at the
`SIGILL` that kills it. An injected `clone` forks it at the exit of its call. -/
def oneCall : Machine .x86_64 where
  Group := OneCall
  start _ := { regs := ⟨0, 39, 0, 0, 0, 0, 0, 0, 0, []⟩, phase := .started }
  resume g _ _ sig :=
    match g.phase with
    | .started => ({ g with phase := .called }, .syscall)
    | .called | .cloning => ({ g with phase := .returned }, .syscall)
    | .returned => ({ g with phase := .faulted }, .signal .ill)
    | .faulted => (g, if sig = some .ill then .signaled .ill true else .signal .ill)
  step g _ _ :=
    match g.phase with
    | .returned => ({ g with phase := .cloning }, .forked EventCode.clone g)
    | _ => (g, .stop (.signal .trap))
  regs g _ := g.regs
  setRegs g _ regs := { g with regs }
  setNr g _ _ := g
  read _ _ _ _ := .error Errno.EFAULT
  write g _ _ data := (.ok data.length, g)
  siCode _ _ := 0

def oneCallLaws : ForkLaws oneCall where
  inside g _ := g.phase = .called ∨ g.phase = .cloning
  boundary g _ := g.phase = .returned
  outside g _ h := by simp [show g.phase = .returned from h]
  start _ := by simp [oneCall]
  entry g _ sig hout hstop := by
    rcases g with ⟨regs, phase⟩
    cases phase with
    | started => exact .inl rfl
    | called => exact absurd (.inl rfl) hout
    | returned => cases hstop
    | cloning => exact absurd (.inr rfl) hout
    | faulted => by_cases hsig : sig = some .ill <;> simp [oneCall, hsig] at hstop
  exit g _ _ hin _ := by
    rcases g with ⟨regs, phase⟩
    rcases hin with hphase | hphase
    · cases hphase
      rfl
    · cases hphase
      rfl
  other g _ sig hstop _ := by
    rcases g with ⟨regs, phase⟩
    cases phase with
    | started => exact absurd rfl hstop
    | called => exact absurd rfl hstop
    | returned => simp [oneCall]
    | cloning => exact absurd rfl hstop
    | faulted => simp [oneCall]
  suppress _ _ h := h
  setNr _ _ _ h := h
  write _ _ _ _ h := h
  setReturn _ _ _ h := h
  fork g _ h := by
    rcases g with ⟨regs, phase⟩
    cases h
    exact ⟨_, EventCode.clone, _, rfl, rfl, ⟨_, rfl, rfl⟩, rfl⟩

/-- The pid after the largest in use. -/
def nextFree : PidPolicy where
  pick _ used := used.foldr max 0 + 1
  fresh _ used hmem := by
    have hle : ∀ x ∈ used, x ≤ used.foldr max 0 := by
      clear hmem
      intro x hx
      induction used with
      | nil => cases hx
      | cons a as ih =>
        rcases List.mem_cons.mp hx with rfl | hmem
        · exact Int.le_max_left _ _
        · exact Int.le_trans (ih hmem) (Int.le_max_right _ _)
    exact absurd (hle _ hmem) (Int.not_le.mpr (Int.lt_add_one_of_le (Int.le_refl _)))

/-- A system in which nothing runs yet. -/
def emptyOs (M : Machine arch) : Os M where
  images := []
  procs := ∅
  messages := ∅
  policy := nextFree
  count := 0

def oneCallEvents : List Trace.Event :=
  [.newWithTid .syscallEnter 0 1 (SyscallEnter.encode ⟨39, Vector.replicate 6 0⟩),
   .newWithTid .syscallExit 0 1 (SyscallExit.encode ⟨39, 1, []⟩),
   .newWithTid .signal 0 1 (SignalDelivery.encode ⟨4⟩)]

/-- A session on the program, launched and run to its end. -/
theorem oneCall_ends :
    ∃ w f : World (Os oneCall),
      exec (launch .x86_64)
        ⟨ReplaySession.ofTrace ⟨"true", []⟩ (Trace.storedRecords 0 oneCallEvents),
          emptyOs oneCall⟩ = some (.ok (), f) ∧
      History oneCall ⟨"true", []⟩ (Trace.storedRecords 0 oneCallEvents)
        (fun _ c r => c.arms = false ∧ ∃ a, r = .ok a) w ∧
      w.session.finished = some (.signaled 4) ∧ w.session.currentSeq = some 2 := by
  have hrun : ∃ f w₁ w₂ w₃ w : World (Os oneCall),
      exec (launch .x86_64)
        ⟨ReplaySession.ofTrace ⟨"true", []⟩ (Trace.storedRecords 0 oneCallEvents),
          emptyOs oneCall⟩ = some (.ok (), f) ∧
      exec (driveRound .x86_64 none) f = some (.ok none, w₁) ∧
      exec (driveRound .x86_64 none) w₁ = some (.ok none, w₂) ∧
      exec (driveRound .x86_64 none) w₂ = some (.ok none, w₃) ∧
      exec (driveRound .x86_64 none) w₃ = some (.ok (some (.signaled 4)), w) ∧
      w.session.finished = some (.signaled 4) ∧ w.session.currentSeq = some 2 ∧
      f.session.finished = none ∧ f.session.multithreaded = false :=
    ⟨_, _, _, _, _, rfl, rfl, rfl, rfl, rfl, rfl, rfl, rfl, rfl⟩
  rcases hrun with ⟨f, w₁, w₂, w₃, w, hlaunch, hentry, hexit, hsignal, hlast, hover, hcurrent,
    hlive, hsingle⟩
  have hloop : exec (loop (driveRound .x86_64 none)) f = some (.ok (.signaled 4), w) :=
    loop_returns (.succ hentry (.succ hexit (.succ hsignal (.zero w₃)))) (.inl ⟨_, hlast, rfl⟩)
  have hcall : exec (perform .x86_64 .runToEnd) f = some (.ok (some (.signaled 4)), w) := by
    rw [← exec_drive_single hlive hsingle] at hloop
    exact bind_ok hloop
  exact ⟨w, f, hlaunch, .call (.launch hlaunch) .runToEnd ⟨rfl, _, rfl⟩ hcall, hover, hcurrent⟩

/-- The trace of the program. -/
theorem oneCall_opened :
    ∃ bytes, Opened Crc32.hash bytes ⟨"true", []⟩ (Trace.storedRecords 0 oneCallEvents) := by
  refine ⟨_, opened_stored (by decide) ?_ (by decide)⟩
  intro event hevent
  rcases List.mem_cons.mp hevent with rfl | hevent
  · decide
  rcases List.mem_cons.mp hevent with rfl | hevent
  · decide
  · rcases List.mem_singleton.mp hevent with rfl
    decide

end Mirrorscope.Replay
