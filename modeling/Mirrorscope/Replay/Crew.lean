import Mirrorscope.Replay.Follow

/-! # The threads of twins

The threads of two sessions have other pids, but a recorded tid names the same task on
both sides, and the multi-threaded driver keeps the same books on it. So what it looks up
there is the same, and what it enters there leaves the sessions twins.

The books of the driver are the thread table `mt` of a session:
* `ThreadTwin`, `ThreadsTwin`: two tables say the same of the same tasks.
* `Stranger`, `withChild`, `withoutThread`: a thread comes or goes on both sides.
* `Aboard`, `Manned`: the two sessions in a round, before and after its thread was found.
* `Crew`, `InStep`: the relation the handlers keep, and a method that keeps it.
* `lookUp_sim`: a tid is looked up alike.
-/

namespace Mirrorscope.Replay

open Capture Linux Run
open Trace (Record)

variable {arch : Arch} {M : Machine arch} {i j task : Nat} {os os' os₁ os₁' base : Os M}
  {w₀ w u : World (Os M)} {mt mt' : MtState} {p q x y : Pid} {tid : UInt32}
  {X X' : ReplaySession → ReplaySession → Prop}

/-! ## Thread states -/

/-- The recorded tid names `p` here and `q` there. -/
structure Names (tid : UInt32) (p q : Pid) (mt mt' : MtState) : Prop where
  left : mt.tidmap.liveOf tid = some p
  right : mt'.tidmap.liveOf tid = some q

/-- Two tids name one thread here iff they name one there. -/
theorem Names.same {r : UInt32} (h : Names tid p q mt mt') (h' : Names r x y mt mt') :
    p = x ↔ q = y := by
  constructor
  · rintro rfl
    rcases TidMap.liveOf_injective h.left h'.left with rfl
    exact Option.some.inj (h.right.symm.trans h'.right)
  · rintro rfl
    rcases TidMap.liveOf_injective h.right h'.right with rfl
    exact Option.some.inj (h.left.symm.trans h'.left)

theorem ThreadsTwin.named (h : ThreadsTwin i j os os' mt mt') (hnames : Names tid p q mt mt') :
    ThreadTwin i j os os' mt mt' p q := h.bound tid p q hnames.left hnames.right

/-- A recorded tid is named on both sides or on neither. -/
theorem ThreadsTwin.names (h : ThreadsTwin i j os os' mt mt') (hp : mt.tidmap.liveOf tid = some p) :
    ∃ q, Names tid p q mt mt' := by
  cases hq : mt'.tidmap.liveOf tid with
  | none =>
    rw [(h.unbound tid).mpr hq] at hp
    cases hp
  | some q => exact ⟨q, hp, hq⟩

theorem ThreadsTwin.isEmpty (h : ThreadsTwin i j os os' mt mt') :
    mt.tidmap.isEmpty = mt'.tidmap.isEmpty := by
  rw [Bool.eq_iff_iff, TidMap.isEmpty_iff, TidMap.isEmpty_iff]
  exact forall_congr' h.unbound

theorem ThreadsTwin.symm (h : ThreadsTwin i j os os' mt mt') : ThreadsTwin j i os' os mt' mt where
  expected := h.expected.symm
  leader := h.leader.symm
  unbound r := (h.unbound r).symm
  bound r p q hp hq := (h.bound r q p hq hp).symm

/-- The schedule goes on with the same thread. -/
theorem ThreadsTwin.expect (h : ThreadsTwin i j os os' mt mt') (expected : Option UInt32) :
    ThreadsTwin i j os os' { mt with expectedTid := expected }
      { mt' with expectedTid := expected } where
  expected := rfl
  leader := { h.leader with }
  unbound := h.unbound
  bound r p q hp hq := { h.bound r p q hp hq with }

/-- An entry about one task is made on both sides. -/
theorem ThreadTwin.modifyThread (h : ThreadTwin i j os os' mt mt' x y) (hsame : p = x ↔ q = y)
    (f : ThreadRt → ThreadRt) :
    ThreadTwin i j os os' (Mt.MtState.modifyThread mt p f) (Mt.MtState.modifyThread mt' q f)
      x y where
  seat := h.seat
  bookkeeping := by
    rw [threads_modifyThread, threads_modifyThread, h.bookkeeping]
    by_cases hx : p = x
    · rw [if_pos hx, if_pos (hsame.mp hx)]
    · rw [if_neg hx, if_neg fun hy => hx (hsame.mpr hy)]
  leader := by
    rw [leader_modifyThread, leader_modifyThread]
    exact h.leader

/-- The same entry is made on a thread that a tid names. -/
theorem ThreadsTwin.modifyThread (h : ThreadsTwin i j os os' mt mt')
    (hnames : Names tid p q mt mt') (f : ThreadRt → ThreadRt) :
    ThreadsTwin i j os os' (Mt.MtState.modifyThread mt p f)
      (Mt.MtState.modifyThread mt' q f) where
  expected := by
    rw [expectedTid_modifyThread, expectedTid_modifyThread]
    exact h.expected
  leader := by
    rw [leader_modifyThread, leader_modifyThread]
    exact h.leader.modifyThread (h.named hnames).leader f
  unbound r := by
    rw [tidmap_modifyThread, tidmap_modifyThread]
    exact h.unbound r
  bound r x y hx hy := by
    rw [tidmap_modifyThread] at hx hy
    exact (h.bound r x y hx hy).modifyThread (hnames.same ⟨hx, hy⟩) f

/-- On empty tables a tid is made the leader's. -/
theorem ThreadsTwin.bindLeader {tidmap tidmap' : TidMap} (h : ThreadsTwin i j os os' mt mt')
    (hempty : mt.tidmap.isEmpty = true) (hl : mt.tidmap.bind tid mt.leader = .ok tidmap)
    (hr : mt'.tidmap.bind tid mt'.leader = .ok tidmap') :
    ThreadsTwin i j os os' { mt with tidmap } { mt' with tidmap := tidmap' } ∧
      Names tid mt.leader mt'.leader { mt with tidmap } { mt' with tidmap := tidmap' } := by
  have hnone := (TidMap.isEmpty_iff mt.tidmap).mp hempty
  have hnone' := (TidMap.isEmpty_iff mt'.tidmap).mp (h.isEmpty ▸ hempty)
  have hl' := (TidMap.bind_ok hl).2
  have hr' := (TidMap.bind_ok hr).2
  refine ⟨⟨h.expected, { h.leader with }, ?_, ?_⟩, ?_, ?_⟩
  · intro r
    show tidmap.liveOf r = none ↔ tidmap'.liveOf r = none
    rw [hl', hr', hnone, hnone']
    split <;> simp
  · intro r x y hx hy
    change tidmap.liveOf r = some x at hx
    change tidmap'.liveOf r = some y at hy
    rw [hl', hnone] at hx
    rw [hr', hnone'] at hy
    by_cases htid : tid = r
    · rw [if_pos htid] at hx hy
      rcases Option.some.inj hx with rfl
      rcases Option.some.inj hy with rfl
      exact { h.leader with }
    · rw [if_neg htid] at hx
      cases hx
  · show tidmap.liveOf tid = some mt.leader
    rw [hl', if_pos rfl]
  · show tidmap'.liveOf tid = some mt'.leader
    rw [hr', if_pos rfl]

/-- The pid is not one of a thread that is followed. -/
structure Stranger (c : Pid) (mt : MtState) : Prop where
  leader : mt.leader ≠ c
  unnamed : ∀ r, mt.tidmap.liveOf r ≠ some c

theorem Stranger.unbound {c : Pid} (h : Stranger c mt) : mt.tidmap.toRecorded[c]? = none := by
  cases hback : mt.tidmap.toRecorded[c]? with
  | none => rfl
  | some r => exact absurd ((mt.tidmap.inverse r c).mpr hback) (h.unnamed r)

/-- A stranger can be bound to a tid that names nobody. -/
theorem Stranger.bind {c : Pid} (h : Stranger c mt) (hnone : mt.tidmap.liveOf tid = none) :
    ∃ tidmap, mt.tidmap.bind tid c = .ok tidmap :=
  TidMap.bind_of_conflict_eq_none (TidMap.conflict_eq_none.mpr ⟨.inl hnone, .inl h.unbound⟩)

/-- What is entered of a new child. -/
def withChild (mt : MtState) (tidmap : TidMap) (child parent : Pid) (vforked : Bool) : MtState :=
  { mt with
    tidmap
    threads := mt.threads.insert child {}
    vforkSuspended :=
      if vforked then mt.vforkSuspended.insert child parent else mt.vforkSuspended }

/-- A child is entered on both sides. -/
theorem ThreadTwin.withChild {tidmap tidmap' : TidMap} {c d parent parent' : Pid} {vforked : Bool}
    (h : ThreadTwin i j os os' mt mt' x y) (hx : c ≠ x) (hy : d ≠ y) :
    ThreadTwin i j os os' (withChild mt tidmap c parent vforked)
      (withChild mt' tidmap' d parent' vforked) x y where
  seat := h.seat
  bookkeeping := by
    show (mt.threads.insert c {})[x]? = (mt'.threads.insert d {})[y]?
    rw [KeyMap.get_insert, KeyMap.get_insert, if_neg hx, if_neg hy]
    exact h.bookkeeping
  leader := h.leader

/-- New children of the same task are followed under the same tid. -/
theorem ThreadsTwin.withChild {tidmap tidmap' : TidMap} {c d parent parent' : Pid}
    (h : ThreadsTwin i j os os' mt mt') (hseat : Seat i j task os os' c d)
    (hc : Stranger c mt) (hd : Stranger d mt') (hl : mt.tidmap.bind tid c = .ok tidmap)
    (hr : mt'.tidmap.bind tid d = .ok tidmap') (vforked : Bool) :
    ThreadsTwin i j os os' (withChild mt tidmap c parent vforked)
      (withChild mt' tidmap' d parent' vforked) := by
  have hl' := (TidMap.bind_ok hl).2
  have hr' := (TidMap.bind_ok hr).2
  refine ⟨h.expected, h.leader.withChild hc.leader.symm hd.leader.symm, ?_, ?_⟩
  · intro r
    show tidmap.liveOf r = none ↔ tidmap'.liveOf r = none
    rw [hl', hr']
    by_cases htid : tid = r
    · simp [htid]
    · simpa [htid] using h.unbound r
  · intro r x y hx hy
    change tidmap.liveOf r = some x at hx
    change tidmap'.liveOf r = some y at hy
    rw [hl'] at hx
    rw [hr'] at hy
    by_cases htid : tid = r
    · rw [if_pos htid] at hx hy
      rcases Option.some.inj hx with rfl
      rcases Option.some.inj hy with rfl
      refine ⟨⟨task, hseat⟩, ?_, ?_⟩
      · show (mt.threads.insert c {})[c]? = (mt'.threads.insert d {})[d]?
        rw [KeyMap.get_insert, KeyMap.get_insert, if_pos rfl, if_pos rfl]
      · show c = mt.leader ↔ d = mt'.leader
        exact ⟨fun heq => absurd heq.symm hc.leader, fun heq => absurd heq.symm hd.leader⟩
    · rw [if_neg htid] at hx hy
      refine (h.bound r x y hx hy).withChild ?_ ?_
      · rintro rfl
        exact hc.unnamed r hx
      · rintro rfl
        exact hd.unnamed r hy

/-- What is left of the books when a thread is gone. -/
def withoutThread (mt : MtState) (tid : UInt32) (live : Pid) : MtState :=
  { mt with
    threads := mt.threads.erase live
    tidmap := mt.tidmap.unbindRecorded tid
    vforkSuspended := mt.vforkSuspended.erase live }

/-- Every pid but one still names what it named. -/
def KeepsPidsBut (p : Pid) (os os₁ : Os M) : Prop :=
  ∀ (x : Pid) (v : Nat × Nat), p ≠ x → os.procs[x]? = some v → os₁.procs[x]? = some v

/-- A thread keeps its twin when another one ends. -/
theorem ThreadTwin.withoutThread (h : ThreadTwin i j os os' mt mt' x y)
    (hl : KeepsPidsBut p os os₁) (hr : KeepsPidsBut q os' os₁') (hx : p ≠ x) (hy : q ≠ y) :
    ThreadTwin i j os₁ os₁' (withoutThread mt tid p) (withoutThread mt' tid q) x y where
  seat := by
    rcases h.seat with ⟨task, hseat⟩
    exact ⟨task, hl x _ hx hseat.1, hr y _ hy hseat.2⟩
  bookkeeping := by
    show (mt.threads.erase p)[x]? = (mt'.threads.erase q)[y]?
    rw [KeyMap.get_erase, KeyMap.get_erase, if_neg hx, if_neg hy]
    exact h.bookkeeping
  leader := h.leader

/-- A thread that is not the leader is gone on both sides. -/
theorem ThreadsTwin.withoutThread (h : ThreadsTwin i j os os' mt mt')
    (hnames : Names tid p q mt mt') (hl : KeepsPidsBut p os os₁) (hr : KeepsPidsBut q os' os₁')
    (hleader : p ≠ mt.leader) :
    ThreadsTwin i j os₁ os₁' (withoutThread mt tid p) (withoutThread mt' tid q) := by
  have hleader' : q ≠ mt'.leader := fun heq => hleader ((h.named hnames).leader.mpr heq)
  refine ⟨h.expected, h.leader.withoutThread hl hr hleader hleader', ?_, ?_⟩
  · intro r
    show (mt.tidmap.unbindRecorded tid).liveOf r = none ↔
      (mt'.tidmap.unbindRecorded tid).liveOf r = none
    rw [TidMap.liveOf_unbindRecorded, TidMap.liveOf_unbindRecorded]
    by_cases htid : tid = r
    · simp [htid]
    · simpa [htid] using h.unbound r
  · intro r x y hx hy
    change (mt.tidmap.unbindRecorded tid).liveOf r = some x at hx
    change (mt'.tidmap.unbindRecorded tid).liveOf r = some y at hy
    rw [TidMap.liveOf_unbindRecorded] at hx hy
    by_cases htid : tid = r
    · rw [if_pos htid] at hx
      cases hx
    · rw [if_neg htid] at hx hy
      have hother : Names r x y mt mt' := ⟨hx, hy⟩
      refine (h.named hother).withoutThread hl hr ?_ ?_
      · rintro rfl
        exact htid (TidMap.liveOf_injective hnames.left hx)
      · rintro rfl
        exact htid (TidMap.liveOf_injective hnames.right hy)

/-! ## The sessions of a round -/

/-- What a session keeps while its threads are driven. -/
structure MtSteady (s₀ s : ReplaySession) : Prop where
  pid : s.pid = s₀.pid
  cmdline : s.cmdline = s₀.cmdline
  records : s.records = s₀.records
  multithreaded : s.multithreaded = s₀.multithreaded
  watchpoint : s.watchpoint = s₀.watchpoint
  checkpoints : s.checkpoints = s₀.checkpoints

theorem MtSteady.refl (s : ReplaySession) : MtSteady s s := by
  constructor <;> rfl

theorem MtSteady.trans {s₀ s s' : ReplaySession} (h : MtSteady s₀ s) (h' : MtSteady s s') :
    MtSteady s₀ s' where
  pid := h'.pid.trans h.pid
  cmdline := h'.cmdline.trans h.cmdline
  records := h'.records.trans h.records
  multithreaded := h'.multithreaded.trans h.multithreaded
  watchpoint := h'.watchpoint.trans h.watchpoint
  checkpoints := h'.checkpoints.trans h.checkpoints

/-- The tracee of the session leads its threads. -/
def Led (s : ReplaySession) : Prop := ∀ mt, s.mt = some mt → mt.leader = s.pid

/-- The sessions of twins in a round that the first began as `s₀`. -/
structure Aboard (s₀ s s' : ReplaySession) : Prop where
  steady : MtSteady s₀ s
  finished : s.finished = s₀.finished
  seated : s.mt.isSome = s₀.mt.isSome
  led : Led s ∧ Led s'
  unwatched : s.watchpoint = none ∧ s'.watchpoint = none

/-- The same, where a recorded tid names `p` here and `q` there. -/
structure Manned (s₀ : ReplaySession) (tid : UInt32) (p q : Pid) (s s' : ReplaySession) : Prop
    extends Aboard s₀ s s' where
  names : ∀ mt mt', s.mt = some mt → s'.mt = some mt' → Names tid p q mt mt'

/-- A condition on sessions that does not look at what they show. -/
def Blind (X : ReplaySession → ReplaySession → Prop) : Prop :=
  ∀ f, ViewUpdate f → ∀ s s', X s s' → X (f s) (f s')

/-- The registers and the place in the trace are not looked at. -/
theorem aboard_blind (s₀ : ReplaySession) : Blind (Aboard s₀) := by
  intro f hf s s' h
  have hl := hf.steady s
  have hr := hf.steady s'
  refine ⟨?_, hl.finished.trans h.finished, ?_, ?_, ?_⟩
  · exact h.steady.trans ⟨hl.pid, hl.cmdline, hl.records, hl.multithreaded, hl.watchpoint,
      hl.checkpoints⟩
  · rw [hl.mt]
    exact h.seated
  · unfold Led
    rw [hl.mt, hl.pid, hr.mt, hr.pid]
    exact h.led
  · rw [hl.watchpoint, hr.watchpoint]
    exact h.unwatched

theorem manned_blind (s₀ : ReplaySession) (tid : UInt32) (p q : Pid) :
    Blind (Manned s₀ tid p q) := by
  intro f hf s s' h
  refine { toAboard := aboard_blind s₀ f hf s s' h.toAboard, names := ?_ }
  rw [(hf.steady s).mt, (hf.steady s').mt]
  exact h.names

/-- New thread states under the same leader. -/
theorem Aboard.withState {s₀ s s' : ReplaySession} {mt mt' m m' : MtState} (h : Aboard s₀ s s')
    (hl : s.mt = some mt) (hr : s'.mt = some mt') (hm : m.leader = mt.leader)
    (hm' : m'.leader = mt'.leader) :
    Aboard s₀ { s with mt := some m } { s' with mt := some m' } where
  steady := { h.steady with }
  finished := h.finished
  seated := by
    rw [← h.seated, hl]
    rfl
  led := by
    constructor
    · intro m₁ hm₁
      rcases Option.some.inj hm₁ with rfl
      exact hm.trans (h.led.1 mt hl)
    · intro m₁ hm₁
      rcases Option.some.inj hm₁ with rfl
      exact hm'.trans (h.led.2 mt' hr)
  unwatched := h.unwatched

/-- Twins in a round that the first began in `w₀`. -/
abbrev Crew (w₀ : World (Os M)) (i j task : Nat) (p q : Pid)
    (X : ReplaySession → ReplaySession → Prop) : World (Os M) → World (Os M) → Prop :=
  TwinAt w₀.os (fun _ => True) i j task p q X

/-- One run follows another, but for failures. -/
abbrev InStep {α : Type} (R : World (Os M) → World (Os M) → Prop) (m m' : Method (Os M) α)
    (S : α → α → World (Os M) → World (Os M) → Prop) : Prop :=
  Sim R m m' S fun _ _ => True

theorem any_access (task : Nat) : AccessLaws (fun _ : Image M => True) task where
  setReturn _ _ _ := trivial
  write _ _ _ _ := trivial

/-! ## Access to the thread state -/

theorem exec_state {ω : Type} {w : World ω} {mt : MtState} (h : w.session.mt = some mt) :
    exec Mt.state w = some (.ok mt, w) := by
  unfold Mt.state
  rw [bind_ok (exec_self w), h]
  rfl

theorem exec_state_none {ω : Type} {w : World ω} (h : w.session.mt = none) :
    exec Mt.state w = none := by
  unfold Mt.state
  rw [exec_bind, exec_self]
  simp only [h]
  rfl

theorem exists_threadsTwin {os os' : Os M} {mt : MtState} {m : Option MtState}
    (h : OptThreadsTwin i j os os' (some mt) m) :
    ∃ mt', m = some mt' ∧ ThreadsTwin i j os os' mt mt' := by
  cases h with
  | some h => exact ⟨_, rfl, h⟩

/-- The thread states of twins are twins. -/
theorem state_sim {K : Image M → Prop} :
    InStep (TwinAt base K i j task p q X) Mt.state Mt.state fun mt mt' w u =>
      (w.session.mt = some mt ∧ u.session.mt = some mt' ∧ ThreadsTwin i j w.os u.os mt mt') ∧
        TwinAt base K i j task p q X w u := by
  intro w u h r w' hexec
  cases hmt : w.session.mt with
  | none =>
    rw [exec_state_none hmt] at hexec
    cases hexec
  | some mt =>
    rw [exec_state hmt] at hexec
    rcases Prod.mk.inj (Option.some.inj hexec) with ⟨rfl, rfl⟩
    have hthreads := h.twin.threads
    rw [hmt] at hthreads
    rcases exists_threadsTwin hthreads with ⟨mt', hmt', htwin⟩
    exact ⟨mt', u, exec_state hmt', ⟨hmt, hmt', htwin⟩, h⟩

/-- Going on with the thread states of twins. -/
theorem withState_sim {K : Image M → Prop} {α : Type} {m m' : MtState → Method (Os M) α}
    {S : α → α → World (Os M) → World (Os M) → Prop}
    (hm : ∀ w u mt mt', TwinAt base K i j task p q X w u → w.session.mt = some mt →
      u.session.mt = some mt' → ThreadsTwin i j w.os u.os mt mt' →
      InStep (fun w' u' => w' = w ∧ u' = u) (m mt) (m' mt') S) :
    InStep (TwinAt base K i j task p q X) (do let mt ← Mt.state; m mt)
      (do let mt ← Mt.state; m' mt) S := by
  refine Sim.bind state_sim fun mt mt' => ?_
  rintro w u ⟨⟨hmt, hmt', htwin⟩, h⟩
  exact hm w u mt mt' h hmt hmt' htwin w u ⟨rfl, rfl⟩

/-- Both thread states change, and are twins again. -/
theorem modifyState_sim {K : Image M → Prop} {f f' : MtState → MtState}
    (hf : ∀ w u mt mt', TwinAt base K i j task p q X w u → w.session.mt = some mt →
      u.session.mt = some mt' → ThreadsTwin i j w.os u.os mt mt' →
      ThreadsTwin i j w.os u.os (f mt) (f' mt') ∧
        X' { w.session with mt := some (f mt) } { u.session with mt := some (f' mt') }) :
    InStep (TwinAt base K i j task p q X) (Mt.modifyState f) (Mt.modifyState f')
      fun _ _ => TwinAt base K i j task p q X' := by
  apply withState_sim
  intro w u mt mt' h hmt hmt' hthreads
  apply Sim.update
  rintro _ _ ⟨rfl, rfl⟩
  rcases hf _ _ mt mt' h hmt hmt' hthreads with ⟨hthreads', hx⟩
  exact
    { twin := { h.twin with view := { h.twin.view with }, threads := .some hthreads' }
      seat := h.seat
      others := h.others
      sessions := hx }

/-- An entry on a thread that a tid names. -/
theorem modifyThread_sim (f : ThreadRt → ThreadRt) :
    InStep (Crew w₀ i j task p q (Manned w₀.session tid p q))
      (Mt.modifyState fun mt => Mt.MtState.modifyThread mt p f)
      (Mt.modifyState fun mt => Mt.MtState.modifyThread mt q f)
      fun _ _ => Crew w₀ i j task p q (Manned w₀.session tid p q) := by
  apply modifyState_sim
  intro w u mt mt' h hmt hmt' hthreads
  have hnames := h.sessions.names mt mt' hmt hmt'
  refine ⟨hthreads.modifyThread hnames f, ?_, ?_⟩
  · exact h.sessions.toAboard.withState hmt hmt' (leader_modifyThread mt p f)
      (leader_modifyThread mt' q f)
  · intro m m' hm hm'
    rcases Option.some.inj hm with rfl
    rcases Option.some.inj hm' with rfl
    constructor
    · rw [tidmap_modifyThread]
      exact hnames.left
    · rw [tidmap_modifyThread]
      exact hnames.right

/-- What is taken from the entry of a thread is the same on both sides. -/
theorem take_sim {α : Type} (get : ThreadRt → Option α) (f : ThreadRt → ThreadRt) :
    InStep (Crew w₀ i j task p q (Manned w₀.session tid p q))
      (do
        let mt ← Mt.state
        Mt.modifyState fun mt => Mt.MtState.modifyThread mt p f
        pure (mt.threads[p]?.bind get))
      (do
        let mt ← Mt.state
        Mt.modifyState fun mt => Mt.MtState.modifyThread mt q f
        pure (mt.threads[q]?.bind get))
      fun a b w u => a = b ∧ Crew w₀ i j task p q (Manned w₀.session tid p q) w u := by
  apply withState_sim
  intro w u mt mt' h hmt hmt' hthreads
  rw [(hthreads.named (h.sessions.names mt mt' hmt hmt')).bookkeeping]
  exact Sim.bind ((modifyThread_sim f).here h) fun _ _ => Sim.pure fun _ _ h => ⟨rfl, h⟩

theorem takeResumeSignal_sim :
    InStep (Crew w₀ i j task p q (Manned w₀.session tid p q)) (Mt.takeResumeSignal p)
      (Mt.takeResumeSignal q)
      fun a b w u => a = b ∧ Crew w₀ i j task p q (Manned w₀.session tid p q) w u :=
  take_sim ThreadRt.resumeSignal _

theorem takePending_sim :
    InStep (Crew w₀ i j task p q (Manned w₀.session tid p q)) (Mt.takePending p)
      (Mt.takePending q)
      fun a b w u => a = b ∧ Crew w₀ i j task p q (Manned w₀.session tid p q) w u :=
  take_sim ThreadRt.pending _

theorem advance_sim (hX : Blind X) (seq : UInt64) :
    InStep (Crew w₀ i j task p q X) (Mt.advance seq) (Mt.advance seq)
      fun _ _ => Crew w₀ i j task p q X := by
  have hadvance : ViewUpdate fun s =>
      { s with currentSeq := some seq, cursor := s.cursor + 1 } :=
    { view := fun _ _ h => { h with currentSeq := rfl, cursor := congrArg (· + 1) h.cursor }
      steady := fun s => { Steady.refl s with } }
  exact modify_sim hadvance (hX _ hadvance)

/-! ## Who runs -/

/-- The schedule expects the same thread on both sides. -/
theorem enforceTid_sim (record : Record) :
    InStep (Crew w₀ i j task p q (Aboard w₀.session)) (Mt.enforceTid record)
      (Mt.enforceTid record)
      fun a b w u => a = b ∧ Crew w₀ i j task p q (Aboard w₀.session) w u := by
  have hadopt (tid : UInt32) : InStep (Crew w₀ i j task p q (Aboard w₀.session))
      (Mt.modifyState fun mt => { mt with expectedTid := some tid })
      (Mt.modifyState fun mt => { mt with expectedTid := some tid })
      fun _ _ => Crew w₀ i j task p q (Aboard w₀.session) := by
    apply modifyState_sim
    intro w u mt mt' h hmt hmt' hthreads
    exact ⟨hthreads.expect _, h.sessions.withState hmt hmt' rfl rfl⟩
  unfold Mt.enforceTid
  split
  · exact Sim.fail fun _ _ _ => trivial
  · rename_i tid _
    apply withState_sim
    intro w u mt mt' h hmt hmt' hthreads
    rw [← hthreads.expected]
    split
    · exact Sim.bind ((hadopt tid).here h) fun _ _ => Sim.pure fun _ _ h => ⟨rfl, h⟩
    · split
      · apply Sim.pure
        rintro _ _ ⟨rfl, rfl⟩
        exact ⟨rfl, h⟩
      · exact Sim.fail fun _ _ _ => trivial

/-- A binding that works here works there. -/
theorem orBind_sim {R : World (Os M) → World (Os M) → Prop} {err : TidMapError → ReplayError}
    {m m' : TidMap} {c d : Pid}
    (h : ∀ tidmap, m.bind tid c = .ok tidmap → ∃ tidmap', m'.bind tid d = .ok tidmap') :
    InStep R (orFail err (m.bind tid c)) (orFail err (m'.bind tid d))
      fun a b w u => (m.bind tid c = .ok a ∧ m'.bind tid d = .ok b) ∧ R w u := by
  cases hbind : m.bind tid c with
  | error e => exact Sim.fail fun _ _ _ => trivial
  | ok tidmap =>
    rcases h tidmap hbind with ⟨tidmap', hbind'⟩
    rw [hbind']
    exact Sim.pure fun _ _ h => ⟨⟨rfl, rfl⟩, h⟩

/-- A recorded tid is found on both sides, and names one task. -/
theorem liveFor_sim (tid : UInt32) (seq : UInt64) :
    InStep (Crew w₀ i j task p q (Aboard w₀.session)) (Mt.liveFor tid seq) (Mt.liveFor tid seq)
      fun x y w u => ∃ task, Crew w₀ i j task x y (Manned w₀.session tid x y) w u := by
  apply withState_sim
  intro w u mt mt' h hmt hmt' hthreads
  cases hlive : mt.tidmap.liveOf tid with
  | some x =>
    rcases hthreads.names hlive with ⟨y, hnames⟩
    rw [hnames.right]
    apply Sim.pure
    rintro _ _ ⟨rfl, rfl⟩
    rcases (hthreads.named hnames).seat with ⟨task', hseat⟩
    refine ⟨task', { h with seat := hseat, sessions := ⟨h.sessions, ?_⟩ }⟩
    intro m m' hm hm'
    rw [hmt] at hm
    rw [hmt'] at hm'
    rcases Option.some.inj hm with rfl
    rcases Option.some.inj hm' with rfl
    exact hnames
  | none =>
    rw [(hthreads.unbound tid).mp hlive, ← hthreads.isEmpty]
    dsimp only
    split
    · rename_i hempty
      -- the first tid that is named is the leader's
      rcases hthreads.leader.seat with ⟨task', hseat⟩
      have hbinds : ∀ tidmap, mt.tidmap.bind tid mt.leader = .ok tidmap →
          ∃ tidmap', mt'.tidmap.bind tid mt'.leader = .ok tidmap' := by
        intro _ _
        apply TidMap.bind_of_conflict_eq_none
        rw [TidMap.conflict_eq_none]
        have hnone := (TidMap.isEmpty_iff mt'.tidmap).mp (hthreads.isEmpty ▸ hempty)
        refine ⟨.inl (hnone tid), .inl ?_⟩
        cases hback : mt'.tidmap.toRecorded[mt'.leader]? with
        | none => rfl
        | some r =>
          have hforth := (mt'.tidmap.inverse r mt'.leader).mpr hback
          rw [show mt'.tidmap.toLive[r]? = none from hnone r] at hforth
          cases hforth
      refine Sim.bind (orBind_sim hbinds) fun tidmap tidmap' => Sim.assume ?_
      rintro ⟨hl, hr⟩
      let X (s s' : ReplaySession) : Prop :=
        Aboard w₀.session s s' ∧ s.mt = some mt ∧ s'.mt = some mt'
      have hstart : TwinAt w₀.os (fun _ => True) i j task' mt.leader mt'.leader X w u :=
        { h with seat := hseat, sessions := ⟨h.sessions, hmt, hmt'⟩ }
      refine Sim.bind (Sim.here (modifyState_sim ?_) hstart) fun _ _ =>
        Sim.pure fun _ _ h => ⟨task', h⟩
      intro w u m m' h hm hm' hthreads
      rcases h.sessions with ⟨haboard, hmt, hmt'⟩
      rw [hmt] at hm
      rw [hmt'] at hm'
      rcases Option.some.inj hm with rfl
      rcases Option.some.inj hm' with rfl
      rcases hthreads.bindLeader hempty hl hr with ⟨hbound, hnames⟩
      refine ⟨hbound, haboard.withState hmt hmt' rfl rfl, ?_⟩
      rintro _ _ ⟨⟩ ⟨⟩
      exact hnames
    · exact Sim.fail fun _ _ _ => trivial

/-- The thread of a record is looked up on both sides. -/
theorem lookUp_sim {α : Type} {record : Record} {f f' : UInt32 → Pid → Method (Os M) α}
    {S : α → α → World (Os M) → World (Os M) → Prop}
    (hf : ∀ tid x y task, InStep (Crew w₀ i j task x y (Manned w₀.session tid x y)) (f tid x)
      (f' tid y) S) :
    InStep (Crew w₀ i j task p q (Aboard w₀.session))
      (do
        let tid ← Mt.enforceTid record
        let live ← Mt.liveFor tid record.seq
        f tid live)
      (do
        let tid ← Mt.enforceTid record
        let live ← Mt.liveFor tid record.seq
        f' tid live) S := by
  refine Sim.bind (enforceTid_sim record) fun tid tid' => Sim.assume ?_
  rintro rfl
  exact Sim.bind (liveFor_sim tid record.seq) fun x y => Sim.ofExists (hf tid x y)

end Mirrorscope.Replay
