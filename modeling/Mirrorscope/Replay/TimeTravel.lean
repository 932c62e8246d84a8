import Mirrorscope.Replay.TravelMt

/-! # Time travel lands where straight replay lands

However a session got to where it is, by driving on, from a snapshot or from process
entry, a call to `run_to` that stops at its target leaves it as a fresh session that is
driven there leaves that one.
-/

namespace Mirrorscope.Replay

open Capture Linux Run
open Trace (Cmdline Record)

variable {arch : Arch} {M : Machine arch} {cmdline : Cmdline} {records : List Record}
  {w w' f : World (Os M)} {laws : ForkLaws M} {t : UInt64}

/-- A state of the straight run that is the first to reach the target is where a fresh
session stops for it. -/
theorem straight_lands {i j n : Nat} {u : World (Os M)} (hf : Entry f)
    (hsingle : f.session.multithreaded = false) (hu : StraightRun f n u)
    (hpassing : Passing (atTarget (some t)) (driveRound arch none) n f)
    (hreached : atTarget (some t) u = true) (htwin : Coupled laws i j w' u) :
    LandsWith t w' f := by
  constructor
  · exact ⟨u, exec_stepTo_entry hf hsingle hu hpassing hreached, i, j,
      htwin.mono fun _ _ => trivial⟩
  · rcases driveRound_straight.least hf.toOrigin hf.current hu hpassing hreached with
      ⟨y, hy, hle, hhere, hleast⟩
    exact ⟨y, htwin.view.currentSeq.trans hy, hhere, hle, hleast⟩

theorem runTo_lands_single (hf : Entry f) (hsingle : f.session.multithreaded = false)
    (h : Traveler laws f False w) (hexec : exec (runTo arch t) w = some (.ok .running, w')) :
    LandsWith t w' f := by
  cases hrestart : shouldRestart w.session.currentSeq (planStart w.session t).seq t with
  | true =>
    rcases restart_lands hf h t with ⟨i, w₁, hexec₁, hsound, hlanded⟩
    rw [exec_runTo_restart hrestart hexec₁] at hexec
    cases hlanded with
    | run rounds lead twin unfinished notPast =>
      rcases track_lands hf hsingle hsound rounds lead twin unfinished notPast hexec with
        ⟨m, v, hv, hpassing, hreached, htwin, -⟩
      exact straight_lands hf hsingle hv hpassing hreached htwin
    | past failed _ _ _ _ _ => exact failed.elim
  | false =>
    rw [exec_runTo_drive hrestart] at hexec
    rcases h with ⟨i, hsound, hactive⟩
    cases hactive with
    | tracking rounds lead twin unfinished =>
      have hle : ∀ y, w.session.currentSeq = some y → y ≤ t := fun _ => not_past hrestart
      rw [twin.view.currentSeq] at hle
      rcases track_lands hf hsingle hsound rounds lead twin unfinished hle hexec with
        ⟨m, v, hv, hpassing, hreached, htwin, -⟩
      exact straight_lands hf hsingle hv hpassing hreached htwin
    | past failed _ _ _ => exact failed.elim
    | ended finished gone _ =>
      rw [exec_drive_over finished] at hexec
      rcases Prod.mk.inj (Option.some.inj hexec) with ⟨hover, -⟩
      exact absurd (Except.ok.inj hover) gone

/-- Every state of a history on a multi-threaded trace has the invariant. -/
theorem History.mtTraveler (hseq : Increasing records)
    (hmulti : traceIsMultithreaded records = true) (hf : Launched cmdline records f)
    (h : History M cmdline records (fun _ c r => c.arms = false ∧ ∃ a, r = .ok a) w) :
    MtTraveler f w := by
  have hentry := hf.entry hseq
  have hmulti' : f.session.multithreaded = true := by
    rcases hf.session with ⟨pid, hsession⟩
    rw [hsession]
    exact hmulti
  induction h with
  | launch h => exact (launch_launched h).mtTraveler hf
  | @call w w' r _ c hc hexec ih =>
    rcases hc with ⟨harms, a, rfl⟩
    exact perform_mtKeeping hentry hmulti' c harms w ih (.ok a) w' hexec

/-- The state of a program of two threads. -/
structure TwoThreads where
  regs : X86Regs
  spawned : Bool

/-- The program: its leader clones a second thread and then makes calls. -/
def twoThreads : Machine .x86_64 where
  Group := TwoThreads
  start _ := { regs := ⟨0, 39, 0, 0, 0, 0, 0, 0, 0, []⟩, spawned := false }
  resume g _ _ _ :=
    if g.spawned then (g, .syscall) else ({ g with spawned := true }, .event EventCode.clone)
  step g _ _ := (g, .stop (.signal .trap))
  regs g _ := g.regs
  setRegs g _ regs := { g with regs }
  setNr g _ _ := g
  read _ _ _ _ := .error Errno.EFAULT
  write g _ _ data := (.ok data.length, g)
  siCode _ _ := 0

def twoThreadsEvents : List Trace.Event :=
  [.newWithTid .threadSpawn 0 1 (ThreadSpawn.encode ⟨1, 2⟩),
   .newWithTid .syscallEnter 0 1 (SyscallEnter.encode ⟨39, Vector.replicate 6 0⟩)]

theorem twoThreads_opened :
    ∃ bytes, Opened Crc32.hash bytes ⟨"true", []⟩ (Trace.storedRecords 0 twoThreadsEvents) := by
  refine ⟨_, opened_stored (by decide) ?_ (by decide)⟩
  intro event hevent
  rcases List.mem_cons.mp hevent with rfl | hevent
  · decide
  · rcases List.mem_singleton.mp hevent with rfl
    decide

/-- A session on the program, driven to the call and sent back to the clone. -/
theorem twoThreads_jumps :
    ∃ w w' f : World (Os twoThreads),
      exec (launch .x86_64)
        ⟨ReplaySession.ofTrace ⟨"true", []⟩ (Trace.storedRecords 0 twoThreadsEvents),
          emptyOs twoThreads⟩ = some (.ok (), f) ∧
      exec (perform .x86_64 (.runTo 1)) f = some (.ok (some .running), w) ∧
      exec (runTo .x86_64 0) w = some (.ok .running, w') ∧ w.session.currentSeq = some 1 := by
  have hrun : ∃ f f₁ w₁ w g g₁ w' : World (Os twoThreads),
      exec (launch .x86_64)
        ⟨ReplaySession.ofTrace ⟨"true", []⟩ (Trace.storedRecords 0 twoThreadsEvents),
          emptyOs twoThreads⟩ = some (.ok (), f) ∧
      exec (Mt.ensureState .x86_64) f = some (.ok (), f₁) ∧
      exec (Mt.driveRound .x86_64 (some 1)) f₁ = some (.ok none, w₁) ∧
      exec (Mt.driveRound .x86_64 (some 1)) w₁ = some (.ok none, w) ∧
      exec (Mt.driveRound .x86_64 (some 1)) w = some (.ok (some .running), w) ∧
      exec (restart .x86_64 (planStart w.session 0)) w = some (.ok (), g) ∧
      exec (Mt.ensureState .x86_64) g = some (.ok (), g₁) ∧
      exec (Mt.driveRound .x86_64 (some 0)) g₁ = some (.ok none, w') ∧
      exec (Mt.driveRound .x86_64 (some 0)) w' = some (.ok (some .running), w') ∧
      (f.session.finished = none ∧ f.session.multithreaded = true) ∧
      (g.session.finished = none ∧ g.session.multithreaded = true) ∧
      w.session.currentSeq = some 1 ∧
      shouldRestart f.session.currentSeq (planStart f.session 1).seq 1 = false ∧
      shouldRestart w.session.currentSeq (planStart w.session 0).seq 0 = true :=
    ⟨_, _, _, _, _, _, _, rfl, rfl, rfl, rfl, rfl, rfl, rfl, rfl, rfl, ⟨rfl, rfl⟩, ⟨rfl, rfl⟩, rfl,
      rfl, rfl⟩
  rcases hrun with ⟨f, f₁, w₁, w, g, g₁, w', hlaunch, hseats, hfirst, hsecond, hstop, hback,
    hseats', hagain, hstop', ⟨hlive, hmulti⟩, ⟨hlive', hmulti'⟩, hcurrent, hgo, hrestart⟩
  refine ⟨w, w', f, hlaunch, ?_, ?_, hcurrent⟩
  · have hdrive : exec (runTo .x86_64 1) f = some (.ok .running, w) := by
      rw [exec_runTo_drive hgo, exec_drive_mt hlive hmulti]
      exact (bind_ok hseats).trans
        (loop_returns (.succ hfirst (.succ hsecond (.zero w))) (.inl ⟨_, hstop, rfl⟩))
    exact bind_ok hdrive
  · rw [exec_runTo_restart hrestart hback, exec_drive_mt hlive' hmulti']
    exact (bind_ok hseats').trans (loop_returns (.succ hagain (.zero w')) (.inl ⟨_, hstop', rfl⟩))

/-- A session on a program of one thread, driven to the signal with a snapshot taken on the
way, and sent back to the snapshot. -/
theorem oneCall_jumps :
    ∃ w₀ w w' f : World (Os oneCall),
      exec (launch .x86_64)
        ⟨ReplaySession.ofTrace ⟨"true", []⟩ (Trace.storedRecords 0 oneCallEvents),
          emptyOs oneCall⟩ = some (.ok (), f) ∧
      exec (perform .x86_64 (.checkpointInterval 1)) f = some (.ok none, w₀) ∧
      exec (perform .x86_64 (.runTo 2)) w₀ = some (.ok (some .running), w) ∧
      exec (runTo .x86_64 1) w = some (.ok .running, w') ∧
      w.session.checkpoints.map (·.seq) = [1] := by
  have hrun : ∃ f w₀ w₁ w₂ w w' : World (Os oneCall),
      exec (launch .x86_64)
        ⟨ReplaySession.ofTrace ⟨"true", []⟩ (Trace.storedRecords 0 oneCallEvents),
          emptyOs oneCall⟩ = some (.ok (), f) ∧
      exec (perform .x86_64 (.checkpointInterval 1)) f = some (.ok none, w₀) ∧
      exec (driveRound .x86_64 (some 2)) w₀ = some (.ok none, w₁) ∧
      exec (driveRound .x86_64 (some 2)) w₁ = some (.ok none, w₂) ∧
      exec (driveRound .x86_64 (some 2)) w₂ = some (.ok none, w) ∧
      exec (driveRound .x86_64 (some 2)) w = some (.ok (some .running), w) ∧
      exec (restart .x86_64 (planStart w.session 1)) w = some (.ok (), w') ∧
      exec (driveRound .x86_64 (some 1)) w' = some (.ok (some .running), w') ∧
      w.session.checkpoints.map (·.seq) = [1] ∧
      (w₀.session.finished = none ∧ w₀.session.multithreaded = false) ∧
      (w'.session.finished = none ∧ w'.session.multithreaded = false) ∧
      shouldRestart w₀.session.currentSeq (planStart w₀.session 2).seq 2 = false ∧
      shouldRestart w.session.currentSeq (planStart w.session 1).seq 1 = true :=
    ⟨_, _, _, _, _, _, rfl, rfl, rfl, rfl, rfl, rfl, rfl, rfl, rfl, ⟨rfl, rfl⟩, ⟨rfl, rfl⟩, rfl,
      rfl⟩
  rcases hrun with ⟨f, w₀, w₁, w₂, w, w', hlaunch, hinterval, hentry, hexit, hsignal, hstop, hback,
    hstop', hsnapshot, ⟨hlive, hsingle⟩, ⟨hlive', hsingle'⟩, hgo, hrestart⟩
  refine ⟨w₀, w, w', f, hlaunch, hinterval, ?_, ?_, hsnapshot⟩
  · have hdrive : exec (runTo .x86_64 2) w₀ = some (.ok .running, w) := by
      rw [exec_runTo_drive hgo, exec_drive_single hlive hsingle]
      exact loop_returns (.succ hentry (.succ hexit (.succ hsignal (.zero w))))
        (.inl ⟨_, hstop, rfl⟩)
    exact bind_ok hdrive
  · rw [exec_runTo_restart hrestart hback, exec_drive_single hlive' hsingle']
    exact loop_returns (.zero w') (.inl ⟨_, hstop', rfl⟩)

end Mirrorscope.Replay
