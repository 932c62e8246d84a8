import Mirrorscope.Replay.FollowMt
import Mirrorscope.Replay.Landing

/-! # Time travel on many threads

A session on a multi-threaded trace takes no snapshots, so it goes back to process entry
only. It is a twin of some state of the straight run from there: the one in which the
launched session has seated its leader, and then those the rounds of the driver lead to.

The stages, against the straight run of a launched world `f`:
* `seated`: a launched session that has seated its leader. `MtRun`: the rounds from there.
* `MtActive`, `MtTraveler`: the invariant between calls.
* `MtStopped`, `MtLeft`: the two ends of a drive.
* `perform_mtKeeping`: every call keeps the invariant. `runTo_lands_mt`: and a jump lands on
  the first record at its target.
-/

namespace Mirrorscope.Replay

open Capture Linux Run
open Trace (Cmdline Record)

variable {arch : Arch} {M : Machine arch} {i j k n : Nat} {w₀ w w' u u' f f₁ : World (Os M)}
  {t : UInt64} {stopAt : Option UInt64}

/-! ## Rounds of twins -/

theorem Convoy.trans (h : Convoy w₀ i j w u) (h' : Convoy w i j w' u') : Convoy w₀ i j w' u' where
  twin := h'.twin
  aboard :=
    { steady := h.aboard.steady.trans h'.aboard.steady
      finished := h'.aboard.finished.trans h.aboard.finished
      seated := h'.aboard.seated.trans h.aboard.seated
      led := h'.aboard.led
      unwatched := h'.aboard.unwatched }

theorem Convoy.symm (h : Convoy w₀ i j w u) : Convoy u j i u w where
  twin := h.twin.symm
  aboard :=
    { steady := MtSteady.refl u.session
      finished := rfl
      seated := rfl
      led := h.aboard.led.symm
      unwatched := h.aboard.unwatched.symm }

theorem convoy_round (h : Convoy w₀ i j w u)
    (hexec : exec (Mt.driveRound arch none) w = some (.ok none, w')) :
    ∃ u', exec (Mt.driveRound arch none) u = some (.ok none, u') ∧ Convoy w₀ i j w' u' := by
  rcases mtDriveRound_sim.ok h.crew hexec with ⟨a', u', hexec', hsailed⟩
  cases hsailed with
  | again convoy => exact ⟨u', hexec', h.trans convoy⟩

theorem convoy_end (h : Convoy w₀ i j w u) {outcome : ExitOutcome}
    (hexec : exec (Mt.driveRound arch none) w = some (.ok (some outcome), w')) :
    w'.session.finished = some outcome ∧ outcome ≠ .running ∧
      MtSteady w₀.session w'.session := by
  rcases mtDriveRound_sim.ok h.crew hexec with ⟨a', u', hexec', hsailed⟩
  cases hsailed with
  | leave view finished gone steady => exact ⟨finished, gone, h.aboard.steady.trans steady⟩

theorem convoy_rounds (h : Convoy w₀ i j w u) (hrounds : Rounds (Mt.driveRound arch none) k w w') :
    ∃ u', Rounds (Mt.driveRound arch none) k u u' ∧ Convoy w₀ i j w' u' := by
  induction hrounds generalizing u with
  | zero w => exact ⟨u, .zero u, h⟩
  | succ first _ ih =>
    rcases convoy_round h first with ⟨u₁, hexec, h₁⟩
    rcases ih h₁ with ⟨u', hrest, h'⟩
    exact ⟨u', .succ hexec hrest, h'⟩

/-- A target not met by one twin is not met by the other. -/
theorem convoy_passing (h : Convoy w₀ i j w u)
    (hpassing : Passing (atTarget stopAt) (Mt.driveRound arch none) k w) :
    Passing (atTarget stopAt) (Mt.driveRound arch none) k u := by
  intro m hm x hx
  rcases convoy_rounds h.symm hx with ⟨y, hy, hconvoy⟩
  have hgo := hpassing m hm y hy
  unfold atTarget at hgo ⊢
  rwa [hconvoy.twin.view.currentSeq]

/-- Twins without threads, at process entry. -/
theorem convoy_entry (h : Twin (fun _ => True) i j w u) (hl : w.session.mt = none)
    (hr : u.session.mt = none)
    (hunwatched : w.session.watchpoint = none ∧ u.session.watchpoint = none) :
    Convoy w i j w u where
  twin := h
  aboard :=
    { steady := MtSteady.refl w.session
      finished := rfl
      seated := rfl
      led := by
        constructor
        · intro mt hmt
          rw [hl] at hmt
          cases hmt
        · intro mt hmt
          rw [hr] at hmt
          cases hmt
      unwatched := hunwatched }

/-! ## Seating the leader -/

/-- The thread state with the leader as its only thread. -/
def seatedState (pid : Pid) : MtState :=
  { MtState.new pid with threads := (∅ : KeyMap Pid ThreadRt).insert pid {} }

/-- An image whose leader runs under the options of the multi-threaded driver. -/
def mtImage (img : Image M) : Image M :=
  { img with options := Function.update img.options 0 Mt.mtTraceOptions }

/-- The session once its leader is seated. -/
def seated (w : World (Os M)) (i : Nat) (img : Image M) : World (Os M) :=
  ⟨{ w.session with mt := some (seatedState w.session.pid) }, w.os.setImage i (mtImage img)⟩

theorem exec_ensureState {img : Image M} (hat : w.os.At w.session.pid i 0 img)
    (hmt : w.session.mt = none) :
    exec (Mt.ensureState arch) w = some (.ok (), seated w i img) := by
  unfold Mt.ensureState
  rw [bind_ok (exec_self w), hmt]
  dsimp only
  rw [bind_ok (exec_setoptions hat Mt.mtTraceOptions)]
  rfl

theorem exec_ensureState_again {mt : MtState} (hmt : w.session.mt = some mt) :
    exec (Mt.ensureState arch) w = some (.ok (), w) := by
  unfold Mt.ensureState
  rw [bind_ok (exec_self w), hmt]
  rfl

/-- The two leaders have one seat, and no other thread is there. -/
theorem threadsTwin_seated {os os' : Os M} {p q : Pid} (hseat : Seat i j 0 os os' p q) :
    ThreadsTwin i j os os' (seatedState p) (seatedState q) where
  expected := rfl
  leader :=
    { seat := ⟨0, hseat⟩
      bookkeeping := by
        show ((∅ : KeyMap Pid ThreadRt).insert p {})[p]? =
          ((∅ : KeyMap Pid ThreadRt).insert q {})[q]?
        rw [KeyMap.get_insert, KeyMap.get_insert, if_pos rfl, if_pos rfl]
      leader := Iff.intro (fun _ => rfl) fun _ => rfl }
  unbound r := by
    show TidMap.new.liveOf r = none ↔ TidMap.new.liveOf r = none
    exact Iff.rfl
  bound r x y hx := by
    change TidMap.new.liveOf r = some x at hx
    rw [TidMap.liveOf_new] at hx
    cases hx

/-- Twins at process entry are twins once their leaders are seated. -/
theorem convoy_seated {img : Image M} (h : Convoy w₀ i j w u)
    (hl : w.os.At w.session.pid i 0 img) (hr : u.os.At u.session.pid j 0 img) :
    Convoy (seated w i img) i j (seated w i img) (seated u j img) where
  twin :=
    { view := { h.twin.view with }
      unwatched := h.twin.unwatched
      image := ⟨mtImage img, trivial, hl.setImage.image, hr.setImage.image⟩
      leader := h.twin.leader
      threads := .some (threadsTwin_seated h.twin.leader) }
  aboard :=
    { steady := MtSteady.refl _
      finished := rfl
      seated := rfl
      led := by
        constructor
        · rintro _ ⟨⟩
          rfl
        · rintro _ ⟨⟩
          rfl
      unwatched := h.aboard.unwatched }

/-! ## Where a session is -/

/-- A state of the straight run from `f`, after `n` rounds; its leader was seated in `f₁`. -/
structure MtRun (f f₁ : World (Os M)) (n : Nat) (u : World (Os M)) : Prop where
  seats : exec (Mt.ensureState arch) f = some (.ok (), f₁)
  rounds : Rounds (Mt.driveRound arch none) n f₁ u
  lead : Lead place (Mt.driveRound arch none) n f₁ u

/-- A session that has not ended is at process entry, or at a state of the straight run
that leads. -/
inductive MtActive (f w : World (Os M)) : Prop where
  | entry {i j : Nat} (convoy : Convoy w i j w f) (fresh : w.session.mt = none)
      (unfinished : w.session.finished = none)
  | tracking {i j n : Nat} {f₁ u : World (Os M)} (run : MtRun f f₁ n u)
      (convoy : Convoy w i j w u) (driven : w.session.mt.isSome = true)
      (unfinished : w.session.finished = none)
  | ended {outcome : ExitOutcome} (finished : w.session.finished = some outcome)
      (gone : outcome ≠ .running)

/-- The invariant of a session on a multi-threaded trace, relative to a launched one. -/
structure MtTraveler (f w : World (Os M)) : Prop where
  cmdline : w.session.cmdline = f.session.cmdline
  records : w.session.records = f.session.records
  multithreaded : w.session.multithreaded = f.session.multithreaded
  unwatched : w.session.watchpoint = none
  checkpoints : w.session.checkpoints = []
  active : MtActive f w

theorem MtTraveler.steady (h : MtTraveler f w) (hsteady : MtSteady w.session w'.session)
    (hactive : MtActive f w') : MtTraveler f w' where
  cmdline := hsteady.cmdline.trans h.cmdline
  records := hsteady.records.trans h.records
  multithreaded := hsteady.multithreaded.trans h.multithreaded
  unwatched := hsteady.watchpoint.trans h.unwatched
  checkpoints := hsteady.checkpoints.trans h.checkpoints
  active := hactive

/-- Seating the leader leaves a session at process entry to measure a run from. -/
theorem Entry.seated {img : Image M} (hf : Entry f) : Origin (seated f i img) where
  aligned := hf.aligned
  increasing := hf.increasing

/-- A drive from `w` seats the leader, and starts in `w₁`, a twin of `u` on the straight run. -/
structure MtStart (f w w₁ f₁ u : World (Os M)) (i j n : Nat) : Prop where
  seats : exec (Mt.ensureState arch) w = some (.ok (), w₁)
  origin : Origin f₁
  records : f₁.session.records = f.session.records
  start : f₁.session.currentSeq = none
  run : MtRun f f₁ n u
  convoy : Convoy w₁ i j w₁ u
  driven : w₁.session.mt.isSome = true
  unfinished : w₁.session.finished = none
  current : w₁.session.currentSeq = w.session.currentSeq
  steady : MtSteady w.session w₁.session

/-- Wherever a live session is, its drive starts at a state of the straight run. -/
theorem MtActive.starts (hf : Entry f) (h : MtActive f w) (hlive : w.session.finished = none) :
    ∃ w₁ f₁ u i j n, MtStart f w w₁ f₁ u i j n := by
  cases h with
  | @entry i j convoy fresh unfinished =>
    rcases convoy.twin.image with ⟨img, -, hi, hj⟩
    have hl : w.os.At w.session.pid i 0 img := ⟨convoy.twin.leader.1, hi⟩
    have hr : f.os.At f.session.pid j 0 img := ⟨convoy.twin.leader.2, hj⟩
    refine ⟨seated w i img, seated f j img, seated f j img, i, j, 0, ?_⟩
    exact
      { seats := exec_ensureState hl fresh
        origin := hf.seated
        records := rfl
        start := hf.current
        run := ⟨exec_ensureState hr hf.mt, .zero _, Lead.start _ _ _⟩
        convoy := convoy_seated convoy hl hr
        driven := rfl
        unfinished := unfinished
        current := rfl
        steady := { MtSteady.refl w.session with } }
  | @tracking i j n f₁ u run convoy driven unfinished =>
    rcases Option.isSome_iff_exists.mp driven with ⟨mt, hmt⟩
    rcases hf.image with ⟨k, hat⟩
    have hseats := run.seats
    rw [exec_ensureState hat hf.mt] at hseats
    rcases Prod.mk.inj (Option.some.inj hseats) with ⟨-, rfl⟩
    refine ⟨w, seated f k (entryImage M f.session.cmdline), u, i, j, n, ?_⟩
    exact
      { seats := exec_ensureState_again hmt
        origin := hf.seated
        records := rfl
        start := hf.current
        run := run
        convoy := convoy
        driven := driven
        unfinished := unfinished
        current := rfl
        steady := MtSteady.refl w.session }
  | ended finished _ =>
    rw [hlive] at finished
    cases finished

/-! ## Driving -/

theorem exec_drive_mt (hlive : w.session.finished = none)
    (hmulti : w.session.multithreaded = true) :
    exec (drive arch stopAt) w = exec (Mt.drive arch stopAt) w := by
  unfold drive
  rw [bind_ok (exec_self w), hlive]
  simp only [hmulti, if_true]

/-- A drive from `w` has stopped at its target, at a state of the straight run. -/
structure MtStopped (f w : World (Os M)) (stopAt : Option UInt64) (w' f₁ u u' : World (Os M))
    (i j n m : Nat) : Prop where
  origin : Origin f₁
  records : f₁.session.records = f.session.records
  start : f₁.session.currentSeq = none
  run : MtRun f f₁ n u
  before : u.session.currentSeq = w.session.currentSeq
  rounds : Rounds (Mt.driveRound arch none) m u u'
  passing : Passing (atTarget stopAt) (Mt.driveRound arch none) m u
  reached : atTarget stopAt u' = true
  convoy : Convoy w' i j w' u'
  driven : w'.session.mt.isSome = true
  unfinished : w'.session.finished = none
  steady : MtSteady w.session w'.session

/-- How a drive that does not fail leaves a session. -/
inductive MtLeft (f w : World (Os M)) (stopAt : Option UInt64) : ExitOutcome → World (Os M) → Prop
  where
  | stopped {i j n m : Nat} {f₁ u u' w' : World (Os M)}
      (h : MtStopped f w stopAt w' f₁ u u' i j n m) : MtLeft f w stopAt .running w'
  | ended {outcome : ExitOutcome} {w' : World (Os M)}
      (finished : w'.session.finished = some outcome) (gone : outcome ≠ .running)
      (steady : MtSteady w.session w'.session) : MtLeft f w stopAt outcome w'

theorem mtDrive_left (hf : Entry f) (h : MtActive f w) (hlive : w.session.finished = none)
    {outcome : ExitOutcome} (hexec : exec (Mt.drive arch stopAt) w = some (.ok outcome, w')) :
    MtLeft f w stopAt outcome w' := by
  rcases h.starts hf hlive with ⟨w₁, f₁, u, i, j, n, hstart⟩
  unfold Mt.drive at hexec
  rw [bind_ok hstart.seats, mtDriveRound_upTo] at hexec
  rcases loop_upTo_inv hexec with ⟨m, v, hrounds, hpassing, hleft⟩
  rcases convoy_rounds hstart.convoy hrounds with ⟨u', hrounds', hconvoy⟩
  have hsteady := hstart.steady.trans hconvoy.aboard.steady
  rcases hleft with ⟨hstop, hout, rfl⟩ | ⟨-, ⟨a, hend, hout⟩ | ⟨e, -, hout⟩⟩
  · rcases Except.ok.inj hout with rfl
    have hreached : atTarget stopAt u' = true := by
      unfold atTarget at hstop ⊢
      rwa [← hconvoy.twin.view.currentSeq]
    exact .stopped
      { origin := hstart.origin
        records := hstart.records
        start := hstart.start
        run := hstart.run
        before := hstart.convoy.twin.view.currentSeq.symm.trans hstart.current
        rounds := hrounds'
        passing := convoy_passing hstart.convoy hpassing
        reached := hreached
        convoy := ⟨hconvoy.twin, hconvoy.crew.sessions⟩
        driven := hconvoy.aboard.seated.trans hstart.driven
        unfinished := hconvoy.aboard.finished.trans hstart.unfinished
        steady := hsteady }
  · rcases Except.ok.inj hout with rfl
    rcases convoy_end hconvoy hend with ⟨hfinished, hgone, hsteady'⟩
    exact .ended hfinished hgone (hstart.steady.trans hsteady')
  · cases hout

/-- Where a drive stopped, the straight run leads. -/
theorem MtStopped.active {i j m : Nat} (h : MtStopped f w stopAt w' f₁ u u' i j n m) :
    MtActive f w' :=
  .tracking (n := n + m)
    { seats := h.run.seats
      rounds := h.run.rounds.trans h.rounds
      lead := Lead.upTo (mtDriveRound_straight.climbs h.origin)
        (mtDriveRound_straight.target_same h.origin stopAt) h.run.lead h.run.rounds h.rounds
        h.passing h.reached }
    h.convoy h.driven h.unfinished

theorem MtLeft.active {outcome : ExitOutcome} (h : MtLeft f w stopAt outcome w') :
    MtActive f w' ∧ MtSteady w.session w'.session := by
  cases h with
  | stopped h => exact ⟨h.active, h.steady⟩
  | ended finished gone steady => exact ⟨.ended finished gone, steady⟩

/-- A call that does not fail keeps the invariant. -/
def MtKeeping (f : World (Os M)) {α : Type} (m : Method (Os M) α) : Prop :=
  Spec (MtTraveler f) m (fun _ => MtTraveler f) (fun _ _ => True)

/-- How a drive of a session leaves it, if it was live. -/
theorem drive_left (hf : Entry f) (hmulti : f.session.multithreaded = true)
    (h : MtTraveler f w) (hlive : w.session.finished = none) {outcome : ExitOutcome}
    (hexec : exec (drive arch stopAt) w = some (.ok outcome, w')) :
    MtLeft f w stopAt outcome w' := by
  rw [exec_drive_mt hlive (h.multithreaded.trans hmulti)] at hexec
  exact mtDrive_left hf h.active hlive hexec

/-- A drive goes on along the run, or ends. -/
theorem drive_mtKeeping (hf : Entry f) (hmulti : f.session.multithreaded = true)
    (stopAt : Option UInt64) : MtKeeping f (drive arch stopAt) := by
  intro w h r w' hexec
  cases r with
  | error e => trivial
  | ok outcome =>
    cases hfinished : w.session.finished with
    | some last =>
      rw [exec_drive_over hfinished] at hexec
      rcases Prod.mk.inj (Option.some.inj hexec) with ⟨-, rfl⟩
      exact h
    | none =>
      rcases (drive_left hf hmulti h hfinished hexec).active with ⟨hactive, hsteady⟩
      exact h.steady hsteady hactive

/-! ## Jumping -/

theorem MtActive.seated (h : MtActive f w) (hlive : w.session.finished = none) :
    ∃ i img, w.os.At w.session.pid i 0 img := by
  cases h with
  | entry convoy _ _ => exact ⟨_, convoy.twin.seated⟩
  | tracking _ convoy _ _ => exact ⟨_, convoy.twin.seated⟩
  | ended finished _ =>
    rw [hlive] at finished
    cases finished

/-- Without snapshots, every restart is at process entry. -/
theorem mtRestart_lands (hf : Entry f) (h : MtTraveler f w) (target : UInt64) :
    ∃ w', exec (restart arch (planStart w.session target)) w = some (.ok (), w') ∧
      MtTraveler f w' ∧ w'.session.finished = none ∧ w'.session.currentSeq = none := by
  have hplan : planStart w.session target = { index := none, seq := 0 } := by
    unfold planStart
    rw [h.checkpoints]
    rfl
  have harmed : Armed w.session := by
    intro wp hwp
    rw [h.unwatched] at hwp
    cases hwp
  have hlive : ∃ i, w.session.finished = none → ∃ img, w.os.At w.session.pid i 0 img := by
    by_cases hfinished : w.session.finished = none
    · rcases h.active.seated hfinished with ⟨i, hseated⟩
      exact ⟨i, fun _ => hseated⟩
    · exact ⟨0, fun hnone => absurd hnone hfinished⟩
  rcases hlive with ⟨i, hlive⟩
  rcases exec_respawn hlive harmed with ⟨pid, i', os', hexec, hre⟩
  rw [h.cmdline] at hre
  have hview : SameView (w.session.atEntry pid) f.session :=
    { records := h.records
      multithreaded := h.multithreaded
      cursor := hf.cursor.symm
      currentSeq := hf.current.symm
      pending := hf.pending.symm
      resumeSignal := hf.resumeSignal.symm
      lastRegs := hf.lastRegs.symm
      finished := hf.unfinished.symm }
  rcases twin_restarted hre hf.image (K := fun _ => True) trivial hview rfl
    ⟨.inl h.unwatched, .inl hf.unwatched⟩ ⟨rfl, hf.mt⟩ with ⟨j, htwin⟩
  rw [hplan]
  refine ⟨_, hexec, ?_, rfl, rfl⟩
  exact
    { cmdline := h.cmdline
      records := h.records
      multithreaded := h.multithreaded
      unwatched := h.unwatched
      checkpoints := h.checkpoints
      active := .entry (convoy_entry htwin rfl hf.mt ⟨h.unwatched, hf.unwatched⟩) rfl rfl }

/-- There is no snapshot, so a restart spawns the program. -/
theorem restart_mtKeeping (hf : Entry f) (target : UInt64) :
    MtKeeping f (do
      let s ← self
      restart arch (planStart s target)) := by
  intro w h r w' hexec
  rw [bind_ok (exec_self w)] at hexec
  rcases mtRestart_lands hf h target with ⟨w'', hexec', htraveler, -, -⟩
  rw [hexec'] at hexec
  rcases Prod.mk.inj (Option.some.inj hexec) with ⟨rfl, rfl⟩
  exact htraveler

/-- A jump back restarts; a jump ahead drives on. -/
theorem runTo_mtKeeping (hf : Entry f) (hmulti : f.session.multithreaded = true)
    (target : UInt64) : MtKeeping f (runTo arch target) := by
  intro w h r w' hexec
  cases hrestart : shouldRestart w.session.currentSeq (planStart w.session target).seq target with
  | false =>
    rw [exec_runTo_drive hrestart] at hexec
    exact drive_mtKeeping hf hmulti (some target) w h r w' hexec
  | true =>
    rcases mtRestart_lands hf h target with ⟨w₁, hexec₁, htraveler, -, -⟩
    rw [exec_runTo_restart hrestart hexec₁] at hexec
    exact drive_mtKeeping hf hmulti (some target) w₁ htraveler r w' hexec

/-! ## Calls -/

theorem Convoy.resembling {s : ReplaySession} (h : Convoy w i j w u)
    (hs : Resembles s w.session) (hwatch : s.watchpoint = none) :
    Convoy ⟨s, w.os⟩ i j ⟨s, w.os⟩ u where
  twin := h.twin.resembling hs (.inl hwatch)
  aboard :=
    { steady := MtSteady.refl s
      finished := rfl
      seated := rfl
      led := by
        refine ⟨?_, h.aboard.led.2⟩
        intro mt hmt
        show mt.leader = s.pid
        rw [hs.pid]
        exact h.aboard.led.1 mt (hs.mt.symm.trans hmt)
      unwatched := ⟨hwatch, h.aboard.unwatched.2⟩ }

/-- A session changed in what it resembles itself in. -/
theorem modifySelf_mtKeeping {g : ReplaySession → ReplaySession} (hg : ∀ s, Resembles (g s) s)
    (hmulti : ∀ s, s.watchpoint = none → (g s).watchpoint = none) :
    MtKeeping f (modifySelf g) := by
  intro w h r w' hexec
  rcases Prod.mk.inj (Option.some.inj hexec) with ⟨rfl, rfl⟩
  have hs := hg w.session
  have hwatch := hmulti w.session h.unwatched
  refine ⟨hs.cmdline.trans h.cmdline, hs.records.trans h.records,
    hs.multithreaded.trans h.multithreaded, hwatch, hs.checkpoints.trans h.checkpoints, ?_⟩
  cases h.active with
  | entry convoy fresh unfinished =>
    exact .entry (convoy.resembling hs hwatch) (hs.mt.trans fresh) (hs.finished.trans unfinished)
  | tracking run convoy driven unfinished =>
    exact .tracking run (convoy.resembling hs hwatch) ((congrArg Option.isSome hs.mt).trans driven)
      (hs.finished.trans unfinished)
  | ended finished gone => exact .ended (hs.finished.trans finished) gone

theorem self_mtKeeping : MtKeeping f (self : Method (Os M) ReplaySession) := by
  intro w h r w' hexec
  rcases Prod.mk.inj (Option.some.inj hexec) with ⟨rfl, rfl⟩
  exact h

/-- No watchpoint was armed. -/
theorem clearWatch_mtKeeping : MtKeeping f (clearWatch arch) := by
  refine Spec.bind self_mtKeeping fun s => ?_
  refine Spec.bind (modifySelf_mtKeeping (fun s => { Resembles.refl s with }) fun _ _ => rfl)
    fun _ => ?_
  refine Spec.bind (Q := fun _ => MtTraveler f) (Spec.when ?_ fun _ _ h => h) fun _ =>
    modifySelf_mtKeeping (fun s => { Resembles.refl s with }) fun _ h => h
  intro _ w h r w' hexec
  rw [exec_forEach s.liveThreads (exec_disarm w)] at hexec
  rcases Prod.mk.inj (Option.some.inj hexec) with ⟨rfl, rfl⟩
  exact h

/-- Every call but one that arms a watchpoint keeps the invariant. -/
theorem perform_mtKeeping (hf : Entry f) (hmulti : f.session.multithreaded = true)
    (c : SessionCall) (hc : c.arms = false) : MtKeeping f (perform arch c) := by
  have hpure {α : Type} (a : α) : MtKeeping f (pure a : Method (Os M) α) := Spec.pure fun _ h => h
  cases c with
  | runTo seq => exact Spec.bind (runTo_mtKeeping hf hmulti seq) fun _ => hpure _
  | stepTo seq => exact Spec.bind (drive_mtKeeping hf hmulti (some seq)) fun _ => hpure _
  | runToEnd => exact Spec.bind (drive_mtKeeping hf hmulti none) fun _ => hpure _
  | restoreTo seq => exact Spec.bind (restart_mtKeeping hf seq) fun _ => hpure _
  | checkpointInterval interval =>
    exact Spec.bind (modifySelf_mtKeeping (fun s => { Resembles.refl s with }) fun _ h => h)
      fun _ => hpure _
  | takeWatchHits =>
    refine Spec.bind ?_ fun _ => hpure _
    refine Spec.bind self_mtKeeping fun s => ?_
    exact Spec.bind (modifySelf_mtKeeping (fun s => { Resembles.refl s with }) fun _ h => h)
      fun _ => hpure _
  | clearWatch => exact Spec.bind clearWatch_mtKeeping fun _ => hpure _
  | watch addr len kind => cases hc

/-- A launched session starts out as a twin of any other one. -/
theorem Launched.mtTraveler {cmdline : Cmdline} {records : List Record}
    (hw : Launched cmdline records w) (hf : Launched cmdline records f) : MtTraveler f w := by
  rcases Launched.twin (K := fun _ => True) trivial hw hf with ⟨i, j, htwin⟩
  rcases hw.session with ⟨pid, hsession⟩
  rcases hf.session with ⟨pid', hsession'⟩
  have hmt : w.session.mt = none := by rw [hsession]; rfl
  have hmt' : f.session.mt = none := by rw [hsession']; rfl
  have hunwatched : w.session.watchpoint = none := by rw [hsession]; rfl
  have hunwatched' : f.session.watchpoint = none := by rw [hsession']; rfl
  have hconvoy : Convoy w i j w f :=
    convoy_entry htwin hmt hmt' ⟨hunwatched, hunwatched'⟩
  exact
    { cmdline := by rw [hsession, hsession']
      records := htwin.view.records
      multithreaded := htwin.view.multithreaded
      unwatched := hunwatched
      checkpoints := by rw [hsession]; rfl
      active := .entry hconvoy hmt (by rw [hsession]; rfl) }

/-! ## Where a call to `run_to` lands -/

/-- A session that does not restart for a target is not past it. -/
theorem not_past {current : Option UInt64} {start y : UInt64}
    (h : shouldRestart current start t = false) (hy : current = some y) : y ≤ t := by
  by_contra hlt
  rw [hy] at h
  simp [shouldRestart, UInt64.not_le.mp hlt] at h

/-- The least sequence number at or after `t` of a record that is not a checkpoint. -/
structure FirstAt (records : List Record) (t y : UInt64) : Prop where
  here : ∃ r ∈ records, r.event.kind ≠ .checkpoint ∧ r.seq = y
  reached : t ≤ y
  least : ∀ r ∈ records, r.event.kind ≠ .checkpoint → t ≤ r.seq → y ≤ r.seq

/-- The session is in the state in which a fresh session stops for the target, which is at
the first record at or after it. -/
def LandsWith (t : UInt64) (w f : World (Os M)) : Prop :=
  (∃ v, exec (stepTo arch t) f = some (.ok .running, v) ∧ SameState w v) ∧
    ∃ y, w.session.currentSeq = some y ∧ FirstAt f.session.records t y

/-- Where a drive stops that is not past its target, a fresh session stops too. -/
theorem MtStopped.lands {i j m : Nat} (hf : Entry f) (hmulti : f.session.multithreaded = true)
    (h : MtStopped f w (some t) w' f₁ u u' i j n m)
    (hle : ∀ y, w.session.currentSeq = some y → y ≤ t) : LandsWith t w' f := by
  have hbefore : Passing (atTarget (some t)) (Mt.driveRound arch none) n f₁ :=
    mtDriveRound_straight.passing h.origin h.run.rounds h.run.lead
      fun y hy => hle y (h.before.symm.trans hy)
  have hpassing := hbefore.append h.run.rounds h.passing
  have hrounds := h.run.rounds.trans h.rounds
  constructor
  · refine ⟨u', ?_, i, j, h.convoy.twin⟩
    unfold stepTo
    rw [exec_drive_mt hf.unfinished hmulti]
    unfold Mt.drive
    rw [bind_ok h.run.seats, mtDriveRound_upTo]
    exact loop_upTo_stops hrounds hpassing h.reached
  · rcases mtDriveRound_straight.least h.origin h.start hrounds hpassing h.reached with
      ⟨y, hy, hreached, hhere, hleast⟩
    rw [h.records] at hhere hleast
    exact ⟨y, h.convoy.twin.view.currentSeq.trans hy, hhere, hreached, hleast⟩

/-- A drive of a session that is not past the target. -/
theorem mtDrive_lands (hf : Entry f) (hmulti : f.session.multithreaded = true)
    (h : MtTraveler f w) (hle : ∀ y, w.session.currentSeq = some y → y ≤ t)
    (hexec : exec (drive arch (some t)) w = some (.ok .running, w')) : LandsWith t w' f := by
  cases hfinished : w.session.finished with
  | some last =>
    -- a session that has ended does not answer that it is running
    rw [exec_drive_over hfinished] at hexec
    rcases Prod.mk.inj (Option.some.inj hexec) with ⟨hover, -⟩
    rcases Except.ok.inj hover with rfl
    cases h.active with
    | entry _ _ unfinished =>
      rw [hfinished] at unfinished
      cases unfinished
    | tracking _ _ _ unfinished =>
      rw [hfinished] at unfinished
      cases unfinished
    | ended finished gone =>
      rw [hfinished] at finished
      exact absurd (Option.some.inj finished).symm gone
  | none =>
    cases drive_left hf hmulti h hfinished hexec with
    | stopped hstopped => exact hstopped.lands hf hmulti hle
    | ended _ gone _ => exact absurd rfl gone

/-- The session stops where a fresh one does for the target. -/
theorem runTo_lands_mt (hf : Entry f) (hmulti : f.session.multithreaded = true)
    (h : MtTraveler f w) (hexec : exec (runTo arch t) w = some (.ok .running, w')) :
    LandsWith t w' f := by
  cases hrestart : shouldRestart w.session.currentSeq (planStart w.session t).seq t with
  | false =>
    rw [exec_runTo_drive hrestart] at hexec
    exact mtDrive_lands hf hmulti h (fun y => not_past hrestart) hexec
  | true =>
    rcases mtRestart_lands hf h t with ⟨w₁, hexec₁, htraveler, -, hcurrent⟩
    rw [exec_runTo_restart hrestart hexec₁] at hexec
    refine mtDrive_lands hf hmulti htraveler ?_ hexec
    intro y hy
    rw [hcurrent] at hy
    cases hy

end Mirrorscope.Replay
