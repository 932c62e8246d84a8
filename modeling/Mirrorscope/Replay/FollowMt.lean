import Mirrorscope.Replay.Crew

/-! # A round of the multi-threaded driver, twice

Each handler of the driver, run on twins, leaves twins: it looks up the same task under
another pid, sees the same stop, and makes the same entries. Where the leader ends, both
sessions are over.

A round begins with twins that are `Aboard` the session it started from. The handlers go
through these stages:
* `Crew`: the twins while a task of theirs is worked on, seated under `p` here and under `q`
  there.
* `BothStopped`: that task was resumed on both sides and reported one stop.
* `Convoy`: the twins after a handler.
* `Sailed`: the two ends of a round, another round or the end of the leader.
The round itself is `mtDriveRound_sim`.
-/

namespace Mirrorscope.Replay

open Capture Linux Run
open Trace (Record)

variable {arch : Arch} {M : Machine arch} {i j task : Nat}
  {w₀ w u : World (Os M)} {p q : Pid} {tid : UInt32} {X X' : ReplaySession → ReplaySession → Prop}

/-! ## Stepping -/

/-- Two threads of the same task have been resumed, and have stopped in the same way. -/
inductive BothStopped (w₀ : World (Os M)) (i j task : Nat) (p q : Pid)
    (X : ReplaySession → ReplaySession → Prop) :
    WaitStatus → WaitStatus → World (Os M) → World (Os M) → Prop where
  | mk {w u : World (Os M)} {img : Image M} {sig : Option Signal}
      (crew : Crew w₀ i j task p q X w u) (left : w.os.At p i task img)
      (right : u.os.At q j task img) :
      BothStopped w₀ i j task p q X ((img.resume task sig).1.status p)
        ((img.resume task sig).1.status q) ⟨w.session, w.os.resumed p i task img sig⟩
        ⟨u.session, u.os.resumed q j task img sig⟩

/-- Twins are twins again after a stop that leaves the task alive. -/
theorem crew_resumed {img : Image M} {sig : Option Signal} {stop : Stop}
    (h : Crew w₀ i j task p q X w u) (hl : w.os.At p i task img) (hr : u.os.At q j task img)
    (hstop : (img.resume task sig).1 = stop) (hexit : stop.isExit = false) :
    Crew w₀ i j task p q X ⟨w.session, w.os.resumed p i task img sig⟩
      ⟨u.session, u.os.resumed q j task img sig⟩ :=
  TwinAt.resumed h hl hr (by rw [hstop, hexit]) trivial

/-- Without a watchpoint no trap is a hit. -/
theorem exec_isWatchHit_none (h : w.session.watchpoint = none) (p : Pid) :
    exec (isWatchHit arch p) w = some (.ok false, w) := by
  unfold isWatchHit
  rw [bind_ok (exec_self w), h]
  rfl

section Step

variable (hX : ∀ s s', X s s' → s.watchpoint = none ∧ s'.watchpoint = none)
include hX

/-- A round of the wait loop, on twins: the image decides the stop, and the stop decides whether
the loop goes round. -/
theorem stepRound_sim (sig : Option Signal) :
    InStep (Crew w₀ i j task p q X) (Mt.stepRound arch p sig) (Mt.stepRound arch q sig)
      (BothRound (Crew w₀ i j task p q X) (BothStopped w₀ i j task p q X)) := by
  refine resume_sim (fun _ _ _ _ => trivial) fun w u img h _ _ hl hr => ?_
  have hleave : BothRound (Crew w₀ i j task p q X) (BothStopped w₀ i j task p q X)
      (some ((img.resume task sig).1.status p)) (some ((img.resume task sig).1.status q))
      ⟨w.session, w.os.resumed p i task img sig⟩ ⟨u.session, u.os.resumed q j task img sig⟩ :=
    .leave (.mk h hl hr)
  have hdone : InStep (fun w' u' => w' = ⟨w.session, w.os.resumed p i task img sig⟩ ∧
      u' = ⟨u.session, u.os.resumed q j task img sig⟩)
      (pure (some ((img.resume task sig).1.status p)))
      (pure (some ((img.resume task sig).1.status q)))
      (BothRound (Crew w₀ i j task p q X) (BothStopped w₀ i j task p q X)) := by
    apply Sim.pure
    rintro _ _ ⟨rfl, rfl⟩
    exact hleave
  -- One case for each stop; without a watchpoint only the exec event goes round again.
  cases hstop : (img.resume task sig).1 with
  | syscall =>
    rw [hstop] at hdone
    exact hdone
  | signal signal =>
    rw [hstop] at hdone
    cases signal with
    | trap =>
      -- no watchpoint is armed, so this is a signal like any other
      rcases hX _ _ h.sessions with ⟨hw, hu⟩
      refine Sim.bind (S := fun a b w' u' => (a = false ∧ b = false) ∧
        w' = ⟨w.session, w.os.resumed p i task img sig⟩ ∧
          u' = ⟨u.session, u.os.resumed q j task img sig⟩) ?_ fun a b => Sim.assume ?_
      · rintro _ _ ⟨rfl, rfl⟩ r w' hexec
        rw [exec_isWatchHit_none (by exact hw)] at hexec
        rcases Prod.mk.inj (Option.some.inj hexec) with ⟨rfl, rfl⟩
        exact ⟨false, _, exec_isWatchHit_none (by exact hu) q, ⟨rfl, rfl⟩, rfl, rfl⟩
      · rintro ⟨rfl, rfl⟩
        exact hdone
    | _ => exact hdone
  | event code =>
    rw [hstop] at hdone
    dsimp only [Stop.status]
    split
    · apply Sim.pure
      rintro _ _ ⟨rfl, rfl⟩
      exact .again (crew_resumed h hl hr hstop rfl)
    · exact hdone
  | exited code =>
    rw [hstop] at hdone
    exact hdone
  | signaled sig core =>
    rw [hstop] at hdone
    exact hdone

/-- Stepping a thread and its twin ends with the same stop of both. -/
theorem stepThread_sim (sig : Option Signal) :
    InStep (Crew w₀ i j task p q X) (Mt.stepThread arch p sig) (Mt.stepThread arch q sig)
      (BothStopped w₀ i j task p q X) := by
  refine Sim.bind (stepRound_sim hX sig) fun a b => ?_
  rintro w u hround
  cases hround with
  | again h => exact Sim.loop (stepRound_sim hX none) w u h
  | leave h => exact Sim.pure (R := BothStopped w₀ i j task p q X _ _) (fun _ _ h => h) w u h

/-- Going on after the same stop. -/
theorem afterStep_sim {α : Type} {sig : Option Signal} {f f' : WaitStatus → Method (Os M) α}
    {S : α → α → World (Os M) → World (Os M) → Prop}
    (hf : ∀ w u img sig, Crew w₀ i j task p q X w u → w.os.At p i task img →
      u.os.At q j task img →
      InStep (fun w' u' => w' = ⟨w.session, w.os.resumed p i task img sig⟩ ∧
          u' = ⟨u.session, u.os.resumed q j task img sig⟩)
        (f ((img.resume task sig).1.status p)) (f' ((img.resume task sig).1.status q)) S) :
    InStep (Crew w₀ i j task p q X)
      (do
        let status ← Mt.stepThread arch p sig
        f status)
      (do
        let status ← Mt.stepThread arch q sig
        f' status) S := by
  refine Sim.bind (stepThread_sim hX sig) fun a b => ?_
  intro w u hstopped
  cases hstopped with
  | mk crew left right => exact hf _ _ _ _ crew left right _ _ ⟨rfl, rfl⟩

end Step

/-! ## The handlers -/

/-- Twins between two rounds of the driver, of a round that the first began in `w₀`. -/
structure Convoy (w₀ : World (Os M)) (i j : Nat) (w u : World (Os M)) : Prop where
  twin : Twin (fun _ => True) i j w u
  aboard : Aboard w₀.session w.session u.session

/-- What a handler leaves of its thread is forgotten at its end. -/
theorem convoy_of_crew (h : Crew w₀ i j task p q (Manned w₀.session tid p q) w u) :
    Convoy w₀ i j w u := ⟨h.twin, h.sessions.toAboard⟩

/-- How a session that goes on starts a round. -/
theorem Convoy.crew (h : Convoy w₀ i j w u) :
    Crew w i j 0 w.session.pid u.session.pid (Aboard w.session) w u where
  twin := h.twin
  seat := h.twin.leader
  others := Others.refl i w.os
  sessions :=
    { steady := MtSteady.refl w.session
      finished := rfl
      seated := rfl
      led := h.aboard.led
      unwatched := h.aboard.unwatched }

section Handlers

variable (record : Record)

/-- While twins are followed, neither session has a watchpoint. -/
theorem manned_unwatched (s s' : ReplaySession) (h : Manned w₀.session tid p q s s') :
    s.watchpoint = none ∧ s'.watchpoint = none := h.unwatched

theorem regs_update (regs : Registers) : ViewUpdate fun s => { s with lastRegs := some regs } where
  view _ _ h := { h with lastRegs := rfl }
  steady s := { Steady.refl s with }

/-- The registers of a thread in a syscall stop are read and noted. -/
theorem readRegs_sim {α : Type} {f f' : Registers → Method (Os M) α}
    {S : α → α → World (Os M) → World (Os M) → Prop} (hX : Blind X)
    (hf : ∀ regs, InStep (Crew w₀ i j task p q X) (f regs) (f' regs) S) :
    InStep (Crew w₀ i j task p q X)
      (do
        let regs ← Regs.read arch p
        modifySelf fun s => { s with lastRegs := some regs }
        f regs)
      (do
        let regs ← Regs.read arch q
        modifySelf fun s => { s with lastRegs := some regs }
        f' regs) S := by
  refine Sim.bind (read_sim fun _ _ _ _ => trivial) fun regs regs' => Sim.assume ?_
  rintro rfl
  exact Sim.bind (modify_sim (regs_update regs) (hX _ (regs_update regs))) fun _ _ => hf regs

theorem onSchedSwitch_sim :
    InStep (Crew w₀ i j task p q (Aboard w₀.session)) (Mt.onSchedSwitch record)
      (Mt.onSchedSwitch record) fun _ _ => Convoy w₀ i j := by
  refine Sim.bind (orFail_sim fun _ _ _ _ => trivial) fun switch switch' => Sim.assume ?_
  rintro rfl
  refine Sim.bind (modifyState_sim ?_) fun _ _ =>
    (advance_sim (aboard_blind w₀.session) record.seq).post fun _ _ _ _ h => ⟨h.twin, h.sessions⟩
  intro w u mt mt' h hmt hmt' hthreads
  exact ⟨hthreads.expect _, h.sessions.withState hmt hmt' rfl rfl⟩

/-- The entry: the number is read off the same registers, so it matches on both sides or on
neither. -/
theorem onSyscallEnter_sim :
    InStep (Crew w₀ i j task p q (Aboard w₀.session)) (Mt.onSyscallEnter arch record)
      (Mt.onSyscallEnter arch record) fun _ _ => Convoy w₀ i j := by
  apply lookUp_sim
  intro tid x y task
  refine Sim.bind takeResumeSignal_sim fun sig sig' => Sim.assume ?_
  rintro rfl
  refine afterStep_sim manned_unwatched fun w u img sig h hl hr => ?_
  cases hstop : (img.resume task sig).1 with
  | syscall =>
    have hcrew := crew_resumed h hl hr hstop rfl
    refine Sim.here (readRegs_sim (manned_blind w₀.session tid x y) fun regs => ?_) hcrew
    refine Sim.bind (orFail_sim fun _ _ _ _ => trivial) fun enter enter' => Sim.assume ?_
    rintro rfl
    split
    · exact Sim.fail fun _ _ _ => trivial
    · refine Sim.bind (Sim.when (fun _ => suppressSyscall_sim
        ⟨fun _ _ => trivial, fun _ _ => trivial⟩ fun _ _ _ _ => trivial) fun _ _ _ h => h) fun _ _ => ?_
      refine Sim.bind (modifyThread_sim _) fun _ _ => ?_
      exact (advance_sim (manned_blind w₀.session tid x y) record.seq).post
        fun _ _ _ _ h => convoy_of_crew h
  | _ => exact Sim.fail fun _ _ _ => trivial

/-- The exit: the recorded result is written into both. -/
theorem onSyscallExit_sim :
    InStep (Crew w₀ i j task p q (Aboard w₀.session)) (Mt.onSyscallExit arch record)
      (Mt.onSyscallExit arch record) fun _ _ => Convoy w₀ i j := by
  apply lookUp_sim
  intro tid x y task
  refine afterStep_sim manned_unwatched fun w u img sig h hl hr => ?_
  cases hstop : (img.resume task sig).1 with
  | syscall =>
    have hcrew := crew_resumed h hl hr hstop rfl
    refine Sim.here (readRegs_sim (manned_blind w₀.session tid x y) fun regs => ?_) hcrew
    refine Sim.bind (orFail_sim fun _ _ _ _ => trivial) fun exit exit' => Sim.assume ?_
    rintro rfl
    refine Sim.bind takePending_sim fun pending pending' => Sim.assume ?_
    rintro rfl
    split
    · exact Sim.fail fun _ _ _ => trivial
    · rename_i pending
      refine Sim.bind (S := fun _ _ => Crew w₀ i j task x y (Manned w₀.session tid x y))
        -- The call was suppressed at its entry, or it ran and its own result stands.
        (Sim.when (fun _ => ?_) fun _ _ _ h => h) fun _ _ => ?_
      · split
        · refine Sim.bind (writeMemory_sim (fun _ _ _ _ => trivial) (any_access task) _ _)
            fun _ _ => ?_
          exact setReturn_sim (any_access task) _
        · exact setReturn_sim (any_access task) _
      · exact (advance_sim (manned_blind w₀.session tid x y) record.seq).post
          fun _ _ _ _ h => convoy_of_crew h
  | _ => exact Sim.fail fun _ _ _ => trivial

/-- The signal: the same one was delivered, and is queued for the next resumption of both. -/
theorem onSignal_sim :
    InStep (Crew w₀ i j task p q (Aboard w₀.session)) (Mt.onSignal arch record)
      (Mt.onSignal arch record) fun _ _ => Convoy w₀ i j := by
  apply lookUp_sim
  intro tid x y task
  refine Sim.bind takeResumeSignal_sim fun sig sig' => Sim.assume ?_
  rintro rfl
  refine afterStep_sim manned_unwatched fun w u img sig h hl hr => ?_
  cases hstop : (img.resume task sig).1 with
  | signal delivered =>
    have hcrew := crew_resumed h hl hr hstop rfl
    refine Sim.here ?_ hcrew
    refine Sim.bind (orFail_sim fun _ _ _ _ => trivial) fun recorded recorded' => Sim.assume ?_
    rintro rfl
    split
    · exact Sim.fail fun _ _ _ => trivial
    · refine Sim.bind (modifyThread_sim _) fun _ _ => ?_
      exact (advance_sim (manned_blind w₀.session tid x y) record.seq).post
        fun _ _ _ _ h => convoy_of_crew h
  | _ => exact Sim.fail fun _ _ _ => trivial

end Handlers

/-! ## New threads -/

/-- The pid that the system hands out next is nobody's here. -/
theorem ThreadsTwin.stranger {os os' : Os M} {mt mt' : MtState}
    (h : ThreadsTwin i j os os' mt mt') : Stranger os.nextPid mt where
  leader := by
    rcases h.leader.seat with ⟨task, hseat⟩
    exact (Os.nextPid_ne hseat.1).symm
  unnamed r hr := by
    rcases h.names hr with ⟨q, hnames⟩
    rcases (h.named hnames).seat with ⟨task, hseat⟩
    exact Os.nextPid_ne hseat.1 rfl

/-- The pid handed out next is free on either side. -/
theorem strangers {K : Image M → Prop} (h : Twin K i j w u) (mt : MtState)
    (hmt : w.session.mt = some mt) : Stranger w.os.nextPid mt := by
  have hthreads := h.threads
  rw [hmt] at hthreads
  rcases exists_threadsTwin hthreads with ⟨mt', -, htwin⟩
  exact htwin.stranger

/-- The sessions of a round in which `c` and `d` are new. -/
structure Expecting (s₀ : ReplaySession) (c d : Pid) (s s' : ReplaySession) : Prop
    extends Aboard s₀ s s' where
  left : ∀ mt, s.mt = some mt → Stranger c mt
  right : ∀ mt, s'.mt = some mt → Stranger d mt

/-- Waiting for the stop of a task, which may be its end. -/
theorem waitpid_sim {α : Type} {flags : WaitFlags} {f f' : WaitStatus → Method (Os M) α}
    {S : α → α → World (Os M) → World (Os M) → Prop}
    (hf : ∀ stop : Stop, stop.isExit = false →
      InStep (Crew w₀ i j task p q X) (f (stop.status p)) (f' (stop.status q)) S)
    (hgone : ∀ stop : Stop, stop.isExit = true → ∀ R,
      InStep R (f (stop.status p)) (f' (stop.status q)) S) :
    InStep (Crew w₀ i j task p q X)
      (do
        let status ← os (Ptrace.waitpid arch p flags)
        f status)
      (do
        let status ← os (Ptrace.waitpid arch q flags)
        f' status) S := by
  intro w u h r w' hexec
  rcases h.twin.image with ⟨img, -, hi, hj⟩
  have hl : w.os.At p i task img := ⟨h.seat.1, hi⟩
  have hr : u.os.At q j task img := ⟨h.seat.2, hj⟩
  -- The twins have one image, so they have the same stop to report, if any.
  cases hstop : img.stops task with
  | none =>
    have hcall : Os.waitpid p flags w.os = (.error Errno.ECHILD, w.os) := by
      rw [Os.waitpid, hl.find]
      simp [hstop]
    have herror : exec (os (Ptrace.waitpid arch p flags)) w = some (.error _, w) :=
      exec_osOr_error hcall
    rw [bind_error herror] at hexec
    rcases Prod.mk.inj (Option.some.inj hexec) with ⟨rfl, rfl⟩
    trivial
  | some stop =>
    cases hexit : stop.isExit with
    | false =>
      rw [bind_ok (exec_waitpid hl hstop hexit flags)] at hexec
      rw [bind_ok (exec_waitpid hr hstop hexit flags)]
      refine hf stop hexit _ _ ?_ r w' hexec
      exact
        { twin := h.twin.withOs trivial (fun _ _ h => h) (fun _ _ h => h) hl.setImage.image
            hr.setImage.image
          seat := h.seat
          others := h.others.trans (Others.setImage w.os i _)
          sessions := h.sessions }
    | true =>
      have hcall {v : World (Os M)} {k : Nat} {x : Pid} (h : v.os.At x k task img) :
          ∃ v', exec (os (Ptrace.waitpid arch x flags)) v = some (.ok (stop.status x), v') := by
        have hgone : Os.waitpid x flags v.os = (.ok (stop.status x),
            { v.os.setImage k (img.collect task) with procs := v.os.procs.erase x }) := by
          rw [Os.waitpid, h.find]
          simp [hstop, hexit, Os.setImage]
        exact ⟨_, exec_os hgone⟩
      rcases hcall hl with ⟨v, hv⟩
      rcases hcall hr with ⟨v', hv'⟩
      rw [bind_ok hv] at hexec
      rw [bind_ok hv']
      exact hgone stop hexit (fun s t => s = v ∧ t = v') v v' ⟨rfl, rfl⟩ r w' hexec

/-- The first stop of a new task, and its trace options. A task that ended instead fails on both
sides. -/
theorem registerChild_sim (seq : UInt64) :
    InStep (Crew w₀ i j task p q X) (Mt.registerChild arch p seq) (Mt.registerChild arch q seq)
      fun _ _ => Crew w₀ i j task p q X := by
  have hoptions : InStep (Crew w₀ i j task p q X)
      (os (Ptrace.setoptions arch p Mt.mtTraceOptions))
      (os (Ptrace.setoptions arch q Mt.mtTraceOptions)) fun _ _ => Crew w₀ i j task p q X :=
    (onImage_sim (f := fun img task => (.ok (), { img with
      options := Function.update img.options task Mt.mtTraceOptions })) (fun _ _ => trivial)
        fun _ _ _ _ => trivial).post fun _ _ _ _ h => h.2
  apply waitpid_sim
  · intro stop hexit
    cases stop with
    | signal _ => exact hoptions
    | event _ => exact hoptions
    | _ => exact Sim.fail fun _ _ _ => trivial
  · -- An exit is no stop of a new task, so both sides fail.
    intro stop hexit R
    cases stop with
    | exited _ => exact Sim.fail fun _ _ _ => trivial
    | signaled _ _ => exact Sim.fail fun _ _ _ => trivial
    | _ => cases hexit

/-- The child takes the recorded tid on both sides, or on neither. -/
theorem bindChild_sim (seq : UInt64) (childTid : UInt32) (parent parent' : Pid) (vforked : Bool) :
    InStep (Crew w₀ i j task p q (Expecting w₀.session p q))
      (Mt.bindChild seq childTid p parent vforked) (Mt.bindChild seq childTid q parent' vforked)
      fun _ _ => Crew w₀ i j task p q (Aboard w₀.session) := by
  apply withState_sim
  intro w u mt mt' h hmt hmt' hthreads
  have hl := h.sessions.left mt hmt
  have hr := h.sessions.right mt' hmt'
  -- The recorded tid is free on one side as it is on the other; the pid is new on both.
  have hbinds : ∀ tidmap, mt.tidmap.bind childTid p = .ok tidmap →
      ∃ tidmap', mt'.tidmap.bind childTid q = .ok tidmap' := by
    intro tidmap hbind
    refine hr.bind ((hthreads.unbound childTid).mp ?_)
    rcases (TidMap.conflict_eq_none.mp (TidMap.bind_ok hbind).1).1 with hnone | hsome
    · exact hnone
    · exact absurd hsome (hl.unnamed childTid)
  refine Sim.bind (orBind_sim hbinds) fun tidmap tidmap' => Sim.assume ?_
  rintro ⟨hbind, hbind'⟩
  let X (s s' : ReplaySession) : Prop :=
    Aboard w₀.session s s' ∧ s.mt = some mt ∧ s'.mt = some mt'
  have hstart : TwinAt w₀.os (fun _ => True) i j task p q X w u :=
    { h with sessions := ⟨h.sessions.toAboard, hmt, hmt'⟩ }
  refine Sim.here (modifyState_sim ?_) hstart
  intro w u m m' h hm hm' hthreads
  rcases h.sessions with ⟨haboard, hmt, hmt'⟩
  rw [hmt] at hm
  rw [hmt'] at hm'
  rcases Option.some.inj hm with rfl
  rcases Option.some.inj hm' with rfl
  exact ⟨hthreads.withChild h.seat hl hr hbind hbind' vforked, haboard.withState hmt hmt' rfl rfl⟩

/-- There is no watchpoint to arm on a new thread. -/
theorem armChild_sim :
    InStep (Crew w₀ i j task p q (Aboard w₀.session)) (Mt.armChild arch p) (Mt.armChild arch q)
      fun _ _ => Crew w₀ i j task p q (Aboard w₀.session) := by
  refine Sim.bind self_sim fun s s' => ?_
  rintro w u ⟨⟨rfl, rfl⟩, h⟩
  rcases h.sessions.unwatched with ⟨hw, hu⟩
  rw [hw, hu]
  intro r w' hexec
  rcases Prod.mk.inj (Option.some.inj hexec) with ⟨rfl, rfl⟩
  exact ⟨(), u, rfl, h⟩

/-- The spawn: the event names the next task of the image, whatever its pid. -/
theorem onThreadSpawn_sim (record : Record) :
    InStep (Crew w₀ i j task p q (Aboard w₀.session)) (Mt.onThreadSpawn arch record)
      (Mt.onThreadSpawn arch record) fun _ _ => Convoy w₀ i j := by
  apply lookUp_sim
  intro tid x y task
  refine Sim.bind (orFail_sim fun _ _ _ _ => trivial) fun spawn spawn' => Sim.assume ?_
  rintro rfl
  refine Sim.bind takeResumeSignal_sim fun sig sig' => Sim.assume ?_
  rintro rfl
  refine afterStep_sim manned_unwatched fun w u img sig h hl hr => ?_
  cases hstop : (img.resume task sig).1 with
  | event code =>
    dsimp only [Stop.status]
    split
    · rename_i hspawn
      have hcrew := crew_resumed h hl hr hstop rfl
      have hspawned : (img.resume task sig).1.isSpawn = true := by
        rw [hstop]
        exact hspawn
      have hnews {v : World (Os M)} {k : Nat} {z : Pid} (hat : v.os.At z k task img) :
          exec (os (Ptrace.getevent arch z)) ⟨v.session, v.os.resumed z k task img sig⟩ =
            some (.ok v.os.nextPid, ⟨v.session, v.os.resumed z k task img sig⟩) := by
        apply exec_os
        show Os.getevent z _ = _
        rw [Os.getevent, (Os.resumed_child hspawned).1]
      rintro _ _ ⟨rfl, rfl⟩ r w' hexec
      rw [bind_ok (hnews hl)] at hexec
      rw [bind_ok (hnews hr)]
      -- the child is the next task on both sides
      have hchild : Crew w₀ i j img.next w.os.nextPid u.os.nextPid
          (Expecting w₀.session w.os.nextPid u.os.nextPid)
          ⟨w.session, w.os.resumed x i task img sig⟩ ⟨u.session, u.os.resumed y j task img sig⟩ :=
        { twin := hcrew.twin
          seat := ⟨(Os.resumed_child hspawned).2, (Os.resumed_child hspawned).2⟩
          others := hcrew.others
          sessions :=
            { toAboard := h.sessions.toAboard
              left := strangers h.twin
              right := strangers h.twin.symm } }
      refine Sim.bind (registerChild_sim record.seq) (fun _ _ => ?_) _ _ hchild r w' hexec
      refine Sim.bind (bindChild_sim record.seq spawn.childTid x y _) fun _ _ => ?_
      refine Sim.bind armChild_sim fun _ _ => ?_
      exact (advance_sim (aboard_blind w₀.session) record.seq).post
        fun _ _ _ _ h => ⟨h.twin, h.sessions⟩
    · exact Sim.fail fun _ _ _ => trivial
  | _ => exact Sim.fail fun _ _ _ => trivial

/-! ## Threads that end -/

/-- The matched ends of a round: the twins go on, or the leader has ended on both sides. -/
inductive Sailed (w₀ : World (Os M)) (i j : Nat) :
    Option ExitOutcome → Option ExitOutcome → World (Os M) → World (Os M) → Prop where
  | again {w u : World (Os M)} (convoy : Convoy w₀ i j w u) : Sailed w₀ i j none none w u
  | leave {outcome : ExitOutcome} {w u : World (Os M)} (view : SameView w.session u.session)
      (finished : w.session.finished = some outcome) (gone : outcome ≠ .running)
      (steady : MtSteady w₀.session w.session) :
      Sailed w₀ i j (some outcome) (some outcome) w u

/-- A thread that has exited is not running. -/
theorem exitOutcome_ne_running {status : WaitStatus} {outcome : ExitOutcome}
    (h : Mt.exitOutcome status = some outcome) : outcome ≠ .running := by
  unfold Mt.exitOutcome at h
  split at h
  · rcases Option.some.inj h with rfl
    simp
  · rcases Option.some.inj h with rfl
    simp
  · cases h

/-- Resuming a task can free its own pid only. -/
theorem keepsPidsBut_resumed {os : Os M} {img : Image M} (sig : Option Signal) :
    KeepsPidsBut p os (os.resumed p i task img sig) := by
  intro x v hne hx
  rw [Os.procs_resumed, if_neg, if_neg, hx]
  · rintro ⟨-, heq⟩
    exact hne heq
  · rintro ⟨-, heq⟩
    exact Os.nextPid_ne hx heq

theorem exec_removeThread {ω : Type} {w : World ω} {mt : MtState} (h : w.session.mt = some mt)
    (tid : UInt32) (live : Pid) :
    exec (Mt.removeThread tid live) w =
      some (.ok (), ⟨{ w.session with mt := some (withoutThread mt tid live) }, w.os⟩) := by
  unfold Mt.removeThread Mt.modifyState
  rw [bind_ok (exec_state h)]
  rfl

theorem exec_advance {ω : Type} (seq : UInt64) (w : World ω) :
    exec (Mt.advance seq) w = some (.ok (),
      ⟨{ w.session with currentSeq := some seq, cursor := w.session.cursor + 1 }, w.os⟩) := rfl

theorem Convoy.advance (h : Convoy w₀ i j w u) (seq : UInt64) :
    Convoy w₀ i j
      ⟨{ w.session with currentSeq := some seq, cursor := w.session.cursor + 1 }, w.os⟩
      ⟨{ u.session with currentSeq := some seq, cursor := u.session.cursor + 1 }, u.os⟩ where
  twin := h.twin.withView
    { h.twin.view with currentSeq := rfl, cursor := congrArg (· + 1) h.twin.view.cursor }
    ⟨rfl, rfl⟩ ⟨rfl, rfl⟩ ⟨rfl, rfl⟩
  aboard := { h.aboard with steady := { h.aboard.steady with } }

section Exit

variable {img : Image M} {sig : Option Signal} {mt mt' : MtState}
  (h : Crew w₀ i j task p q (Manned w₀.session tid p q) w u) (hl : w.os.At p i task img)
  (hr : u.os.At q j task img) (hmt : w.session.mt = some mt) (hmt' : u.session.mt = some mt')
  (hthreads : ThreadsTwin i j w.os u.os mt mt')
include h hl hr hmt hmt' hthreads

/-- When a thread that is not the leader has ended and is removed, the rest are twins. -/
theorem convoy_withoutThread (hleader : p ≠ mt.leader) :
    Convoy w₀ i j
      ⟨{ w.session with mt := some (withoutThread mt tid p) }, w.os.resumed p i task img sig⟩
      ⟨{ u.session with mt := some (withoutThread mt' tid q) }, u.os.resumed q j task img sig⟩ := by
  have hnames := h.sessions.names mt mt' hmt hmt'
  have hleader' : q ≠ mt'.leader := fun heq => hleader ((hthreads.named hnames).leader.mpr heq)
  rw [h.sessions.led.1 mt hmt] at hleader
  rw [h.sessions.led.2 mt' hmt'] at hleader'
  refine ⟨?_, h.sessions.toAboard.withState hmt hmt' rfl rfl⟩
  constructor
  · exact { h.twin.view with }
  · exact h.twin.unwatched
  · refine ⟨(img.resume task sig).2.collect task, trivial, ?_, ?_⟩
    · rw [Os.images_resumed hl, if_pos rfl]
    · rw [Os.images_resumed hr, if_pos rfl]
  · exact ⟨keepsPidsBut_resumed sig _ _ hleader h.twin.leader.1,
      keepsPidsBut_resumed sig _ _ hleader' h.twin.leader.2⟩
  · refine .some (hthreads.withoutThread hnames (keepsPidsBut_resumed sig)
      (keepsPidsBut_resumed sig) ?_)
    rwa [h.sessions.led.1 mt hmt]

end Exit

/-- The end of a thread: of any other the twins go on without it, of the leader both sessions are
over. -/
theorem onThreadExit_sim (record : Record) :
    InStep (Crew w₀ i j task p q (Aboard w₀.session)) (Mt.onThreadExit arch record)
      (Mt.onThreadExit arch record) (Sailed w₀ i j) := by
  apply lookUp_sim
  intro tid x y task
  refine Sim.bind takeResumeSignal_sim fun sig sig' => Sim.assume ?_
  rintro rfl
  refine afterStep_sim manned_unwatched fun w u img sig h hl hr => ?_
  -- The outcome is read off the stop, whatever pid it carries.
  have hsame : Mt.exitOutcome ((img.resume task sig).1.status y) =
      Mt.exitOutcome ((img.resume task sig).1.status x) := by
    cases (img.resume task sig).1 <;> rfl
  rw [hsame]
  split
  · exact Sim.fail fun _ _ _ => trivial
  · rename_i outcome houtcome
    rintro _ _ ⟨rfl, rfl⟩ r w' hexec
    cases hmt : w.session.mt with
    | none =>
      rw [exec_bind, exec_state_none (by exact hmt)] at hexec
      cases hexec
    | some mt =>
      have hopt := h.twin.threads
      rw [hmt] at hopt
      rcases exists_threadsTwin hopt with ⟨mt', hmt', hthreads⟩
      -- The tid names the leader on one side if and only if it does on the other.
      have hleader := (hthreads.named (h.sessions.names mt mt' hmt hmt')).leader
      have hl' := exec_removeThread (w := ⟨w.session, w.os.resumed x i task img sig⟩) hmt tid x
      have hr' := exec_removeThread (w := ⟨u.session, u.os.resumed y j task img sig⟩) hmt' tid y
      rw [bind_ok (exec_state (w := ⟨w.session, w.os.resumed x i task img sig⟩) hmt), bind_ok hl',
        bind_ok (exec_advance record.seq _)] at hexec
      rw [bind_ok (exec_state (w := ⟨u.session, u.os.resumed y j task img sig⟩) hmt'), bind_ok hr',
        bind_ok (exec_advance record.seq _)]
      by_cases hx : x = mt.leader
      · -- the leader takes the whole target with it
        rw [if_pos hx] at hexec
        rw [if_pos (hleader.mp hx)]
        rcases Prod.mk.inj (Option.some.inj hexec) with ⟨rfl, rfl⟩
        refine ⟨_, _, rfl, .leave ?_ rfl (exitOutcome_ne_running houtcome)
          { h.sessions.steady with }⟩
        exact
          { h.twin.view with
            currentSeq := rfl
            cursor := congrArg (· + 1) h.twin.view.cursor
            finished := rfl }
      · rw [if_neg hx] at hexec
        rw [if_neg fun hy => hx (hleader.mpr hy)]
        rcases Prod.mk.inj (Option.some.inj hexec) with ⟨rfl, rfl⟩
        refine ⟨_, _, rfl, .again ?_⟩
        exact (convoy_withoutThread h hl hr hmt hmt' hthreads hx).advance record.seq

/-! ## One round -/

/-- Each record is handled in the same way on both sides. -/
theorem onRecord_sim (record : Record) :
    InStep (Crew w₀ i j task p q (Aboard w₀.session)) (Mt.onRecord arch record)
      (Mt.onRecord arch record) (Sailed w₀ i j) := by
  have hagain {m m' : Method (Os M) Unit}
      (hm : InStep (Crew w₀ i j task p q (Aboard w₀.session)) m m' fun _ _ => Convoy w₀ i j) :
      InStep (Crew w₀ i j task p q (Aboard w₀.session))
        (do
          m
          pure (none : Option ExitOutcome))
        (do
          m'
          pure (none : Option ExitOutcome)) (Sailed w₀ i j) :=
    Sim.bind hm fun _ _ => Sim.pure fun _ _ h => .again h
  have hpass : ViewUpdate fun s => { s with cursor := s.cursor + 1 } :=
    { view := fun _ _ h => { h with cursor := congrArg (· + 1) h.cursor }
      steady := fun s => { Steady.refl s with } }
  -- One handler for each kind of record; the last branch is a kind no driver takes.
  unfold Mt.onRecord
  split
  · exact hagain ((modify_sim hpass (aboard_blind w₀.session _ hpass)).post
      fun _ _ _ _ h => ⟨h.twin, h.sessions⟩)
  · exact hagain (onSchedSwitch_sim record)
  · exact hagain (onSyscallEnter_sim record)
  · exact hagain (onSyscallExit_sim record)
  · exact hagain (onThreadSpawn_sim record)
  · exact onThreadExit_sim record
  · exact hagain (onSignal_sim record)
  · exact Sim.fail fun _ _ _ => trivial

/-- A round of twins: they stay twins, or both sessions are over. -/
theorem mtDriveRound_sim :
    InStep (Crew w₀ i j task p q (Aboard w₀.session)) (Mt.driveRound arch none)
      (Mt.driveRound arch none) (Sailed w₀ i j) := by
  refine Sim.bind self_sim fun s s' => ?_
  rintro w u ⟨⟨rfl, rfl⟩, h⟩
  -- Without a stop to reach, a round ends at the end of the records or at the next one.
  simp only [reached, Bool.false_eq_true, if_false]
  rw [← h.twin.view.records, ← h.twin.view.cursor]
  split
  · exact Sim.here (Sim.fail fun _ _ _ => trivial) h w u ⟨rfl, rfl⟩
  · exact onRecord_sim _ w u h

end Mirrorscope.Replay
