import Mirrorscope.Replay.Restart

/-! # Time travel on a single tracee

The invariant of a session that jumps back and forth, relative to a session that
was only launched: it is a twin of some state of the straight run from there, and
so is every snapshot it holds. A session in which a call has failed may also be
off that run, but then it is past all of it.

A traveler is described against the straight run of a launched world `f`:
* `Entry`, `OnRun`, `StraightRun`: that run, and the states on it.
* `Good`, `Far`, `Stored`: a snapshot on the run, or one past all of it that a failed call has
  left.
* `Sound`: what holds of the session and its snapshots. `Active`: it is a twin of a state of
  the run, or past it.
* `Traveler`: the invariant between calls. `Keeping`: a method keeps it.
* `Landed`: where a restart leaves the session. `perform_keeping`: every call keeps the
  invariant.
-/

namespace Mirrorscope.Replay

open Capture Linux Run
open Trace (Cmdline Record)

variable {arch : Arch} {M : Machine arch} {i j n : Nat} {w w' u u' f : World (Os M)}
  {laws : ForkLaws M} {err : Prop}

/-! ## Rounds of twins -/

theorem Twin.solo {K : Image M → Prop} (h : Twin K i j w u) : Solo w K i j u.session.pid w u where
  twin := h
  seat := h.leader
  others := Others.refl i w.os
  sessions := ⟨Steady.refl w.session, rfl⟩

theorem Coupled.symm (h : Coupled laws i j w u) : Coupled laws j i u w := by
  have htwin := Twin.symm h
  rwa [h.view.pending] at htwin

theorem Coupled.ready (h : Coupled laws i j w u) : Twin Ready i j w u :=
  h.mono fun _ h => h.toReady

theorem follow_round (laws : ForkLaws M) (h : Coupled laws i j w u)
    (hexec : exec (driveRound arch none) w = some (.ok none, w')) :
    ∃ u', exec (driveRound arch none) u = some (.ok none, u') ∧ Coupled laws i j w' u' ∧
      Moved laws i w w' := by
  rcases (driveRound_sim laws).ok h.solo hexec with ⟨a', u', hexec', hround⟩
  cases hround with
  | again twin moved => exact ⟨u', hexec', twin, moved⟩

theorem follow_end (laws : ForkLaws M) (h : Coupled laws i j w u) {outcome : ExitOutcome}
    (hexec : exec (driveRound arch none) w = some (.ok (some outcome), w')) :
    ∃ u', exec (driveRound arch none) u = some (.ok (some outcome), u') ∧
      SameView w'.session u'.session ∧ Ended i outcome w w' := by
  rcases (driveRound_sim laws).ok h.solo hexec with ⟨a', u', hexec', hround⟩
  cases hround with
  | leave view ended => exact ⟨u', hexec', view, ended⟩

theorem follow_error (laws : ForkLaws M) (h : Coupled laws i j w u) {e : ReplayError}
    (hexec : exec (driveRound arch none) w = some (.error e, w')) : Kept i w w' :=
  (driveRound_sim laws).error h.solo hexec

/-- A session at its tracee is a twin of itself. -/
theorem Twin.self {img : Image M} {K : Image M → Prop} (hat : w.os.At w.session.pid i 0 img)
    (hK : K img) (hunwatched : Unwatched M w.session) (hmt : w.session.mt = none) :
    Twin K i i w w where
  view := SameView.refl w.session
  unwatched := ⟨hunwatched, hunwatched⟩
  image := ⟨img, hK, hat.image, hat.image⟩
  leader := ⟨hat.proc, hat.proc⟩
  threads := by
    rw [hmt]
    exact .none

/-! ## The straight run -/

/-- A session at process entry, of whose straight run the states are measured. -/
structure Entry (f : World (Os M)) : Prop extends Origin f where
  image : ∃ j, f.os.At f.session.pid j 0 (entryImage M f.session.cmdline)
  unwatched : f.session.watchpoint = none
  unfinished : f.session.finished = none
  current : f.session.currentSeq = none
  cursor : f.session.cursor = 0
  pending : f.session.pending = none
  resumeSignal : f.session.resumeSignal = none
  lastRegs : f.session.lastRegs = none
  mt : f.session.mt = none

theorem Entry.twin (laws : ForkLaws M) (hf : Entry f) : ∃ j, Coupled laws j j f f := by
  rcases hf.image with ⟨j, hat⟩
  have hstance : Stance laws f.session.pending.isSome (entryImage M f.session.cmdline) := by
    rw [hf.pending]
    exact entryImage_stance laws _
  exact ⟨j, Twin.self hat hstance (.inl hf.unwatched) hf.mt⟩

/-- What all states of a straight run share. -/
structure OnRun (laws : ForkLaws M) (f u : World (Os M)) : Prop where
  bound : Bound f.session u.session
  unfinished : u.session.finished = none
  twin : ∃ j, Coupled laws j j u u

/-- The entry is on the run. -/
theorem Entry.onRun (laws : ForkLaws M) (hf : Entry f)
    (h : Rounds (driveRound arch none) n f u) : OnRun laws f u := by
  have hinv : ∀ v v', OnRun laws f v → exec (driveRound arch none) v = some (.ok none, v') →
      OnRun laws f v' := by
    rintro v v' ⟨hbound, hunfinished, j, htwin⟩ hexec
    rcases follow_round laws htwin hexec with ⟨v'', hexec', htwin', hmoved⟩
    rw [hexec] at hexec'
    rcases Prod.mk.inj (Option.some.inj hexec') with ⟨-, rfl⟩
    exact ⟨hbound.trans hmoved.bound, hmoved.finished.trans hunfinished, j, htwin'⟩
  refine h.invariant (OnRun laws f) hinv ⟨(Steady.refl _).toBound, hf.unfinished, hf.twin laws⟩

/-- The rounds of the straight run. -/
abbrev StraightRun (f : World (Os M)) (n : Nat) (u : World (Os M)) : Prop :=
  Rounds (driveRound arch none) n f u

/-- A state of the straight run that is further than all before it. -/
abbrev Leading (f : World (Os M)) (n : Nat) (u : World (Os M)) : Prop :=
  Lead place (driveRound arch none) n f u

theorem place_view (h : SameView w.session u.session) : place w = place u := by
  unfold place position
  rw [h.records, h.cursor]

/-- The cursor never goes back. -/
theorem cursor_le {k : Nat} (h : Rounds (driveRound arch none) k u u') :
    u.session.cursor ≤ u'.session.cursor := by
  induction h with
  | zero u => exact Nat.le_refl _
  | succ first _ ih => exact Nat.le_trans (driveRound_straight _ _ first).2.forward.1 ih

/-- The last consumed record of a state of the run is before its cursor. -/
theorem current_before (hf : Entry f) (h : StraightRun f n u) {y : UInt64}
    (hy : u.session.currentSeq = some y) :
    ∃ k r, k < u.session.cursor ∧ f.session.records[k]? = some r ∧ r.seq = y := by
  rcases driveRound_straight.rounds h hf.aligned with ⟨hrecords, haligned, -⟩
  rw [haligned] at hy
  rcases Option.map_eq_some_iff.mp hy with ⟨r, hr, rfl⟩
  have hmem := (List.mem_filter.mp (List.mem_of_getLast? hr)).1
  rcases List.mem_iff_getElem?.mp hmem with ⟨k, hk⟩
  rw [hrecords, List.getElem?_take] at hk
  split at hk
  · rename_i hlt
    exact ⟨k, r, hlt, hk, rfl⟩
  · cases hk

/-! ## The snapshots of a session -/

/-- The snapshot of a checkpoint: an image of its own, held at a boundary. -/
structure Copied (laws : ForkLaws M) (i : Nat) (os : Os M) (c : CheckpointInfo) (img : Image M) :
    Prop where
  held : Held laws img 0
  copy : ∃ k, k ≠ i ∧ os.At c.snapshot k 0 img

theorem Copied.others {os os' : Os M} {c : CheckpointInfo} {img : Image M}
    (h : Copied laws i os c img) (hothers : Others i os os') : Copied laws i os' c img where
  held := h.held
  copy := by
    rcases h.copy with ⟨k, hk, hat⟩
    exact ⟨k, hk, hothers.procs _ _ _ hk hat.proc, hothers.images _ _ hk hat.image⟩

/-- The checkpoint is a state of the straight run, one that leads. -/
structure Good (f : World (Os M)) (c : CheckpointInfo) (img : Image M) (n : Nat)
    (u : World (Os M)) : Prop where
  rounds : StraightRun f n u
  lead : Leading f n u
  seq : u.session.currentSeq = some c.seq
  currentSeq : c.currentSeq = u.session.currentSeq
  cursor : c.cursor = u.session.cursor
  lastRegs : c.lastRegs = u.session.lastRegs
  pending : u.session.pending = none
  resumeSignal : u.session.resumeSignal = none
  image : ∃ j, u.os.At u.session.pid j 0 img

/-- The checkpoint is past all of the straight run. -/
def Far (f : World (Os M)) (c : CheckpointInfo) : Prop :=
  ∀ n u, StraightRun f n u →
    u.session.cursor ≤ c.cursor ∧ ∀ y, u.session.currentSeq = some y → y < c.seq

/-- A checkpoint the session may be restored to; past the straight run only if `err`. -/
def Stored (laws : ForkLaws M) (f : World (Os M)) (err : Prop) (i : Nat) (os : Os M)
    (c : CheckpointInfo) : Prop :=
  ∃ img, Copied laws i os c img ∧ ((∃ n u, Good f c img n u) ∨ (err ∧ Far f c))

/-- What holds of a session in every state; its tracee is, or was, image `i`. -/
structure Sound (laws : ForkLaws M) (f : World (Os M)) (err : Prop) (i : Nat)
    (w : World (Os M)) : Prop where
  cmdline : w.session.cmdline = f.session.cmdline
  records : w.session.records = f.session.records
  multithreaded : w.session.multithreaded = f.session.multithreaded
  mt : w.session.mt = none
  unwatched : Unwatched M w.session
  armed : Armed w.session
  stored : ∀ c ∈ w.session.checkpoints, Stored laws f err i w.os c

theorem Stored.others {os os' : Os M} {c : CheckpointInfo} (h : Stored laws f err i os c)
    (hothers : Others i os os') : Stored laws f err i os' c := by
  rcases h with ⟨img, hcopied, hwhere⟩
  exact ⟨img, hcopied.others hothers, hwhere⟩

/-- Snapshots stay sound while the session drives on the same process. -/
theorem Sound.ofBound (h : Sound laws f err i w) (hbound : Bound w.session w'.session)
    (hstored : ∀ c ∈ w'.session.checkpoints, Stored laws f err i w'.os c) :
    Sound laws f err i w' where
  cmdline := hbound.cmdline.trans h.cmdline
  records := hbound.records.trans h.records
  multithreaded := hbound.multithreaded.trans h.multithreaded
  mt := hbound.mt.trans h.mt
  unwatched := by
    unfold Unwatched
    rw [hbound.watchpoint]
    exact h.unwatched
  armed := by
    unfold Armed
    rw [hbound.watchpoint]
    exact h.armed
  stored := hstored

theorem Sound.ofSteady (h : Sound laws f err i w) (hbound : Bound w.session w'.session)
    (hcs : w'.session.checkpoints = w.session.checkpoints) (hothers : Others i w.os w'.os) :
    Sound laws f err i w' := by
  apply h.ofBound hbound
  rw [hcs]
  exact fun c hc => (h.stored c hc).others hothers

theorem Sound.weaken (h : Sound laws f err i w) : Sound laws f True i w := by
  have hstored : ∀ c ∈ w.session.checkpoints, Stored laws f True i w.os c := by
    intro c hc
    rcases h.stored c hc with ⟨img, hcopied, hgood | ⟨-, hfar⟩⟩
    · exact ⟨img, hcopied, .inl hgood⟩
    · exact ⟨img, hcopied, .inr ⟨trivial, hfar⟩⟩
  exact { h with stored := hstored }

/-- A round keeps the session sound, if the snapshot it may have taken can be restored to. -/
theorem Sound.moved (h : Sound laws f err i w) (hmoved : Moved laws i w w')
    (hnew : ∀ c, w'.session.checkpoints = w.session.checkpoints ++ [c] →
      Snapshot laws i w' c → Stored laws f err i w'.os c) : Sound laws f err i w' := by
  apply h.ofBound hmoved.bound
  rcases hmoved.taken with hsame | ⟨c, hcs, hsnapshot⟩
  · rw [hsame]
    exact fun c hc => (h.stored c hc).others hmoved.others
  · intro c' hc'
    rw [hcs] at hc'
    rcases List.mem_append.mp hc' with hmem | hmem
    · exact (h.stored c' hmem).others hmoved.others
    · rcases List.mem_singleton.mp hmem with rfl
      exact hnew c' hcs hsnapshot

theorem Snapshot.copied {c : CheckpointInfo} (h : Snapshot laws i w c) :
    ∃ img, Copied laws i w.os c img ∧ w.os.images[i]? = some img := by
  rcases h.copy with ⟨k, img, hk, hheld, hi, himg, hproc⟩
  exact ⟨img, ⟨hheld, k, hk, hproc, himg⟩, hi⟩

/-! ## Driving -/

/-- A snapshot is taken where a record was consumed and no signal is queued. -/
theorem snapshot_consumed {c : CheckpointInfo}
    (hexec : exec (driveRound arch none) w = some (.ok none, w'))
    (hcs : w'.session.checkpoints = w.session.checkpoints ++ [c]) :
    ConsumedNext w.session.records w.session.cursor w'.session ∧
      w'.session.resumeSignal = none := by
  have hround := (driveRound_progress w.session.checkpoints).ok ⟨atPos_self w.session, rfl⟩ hexec
  rcases hround.2 with hsame | hconsumed
  · rw [hcs] at hsame
    simp at hsame
  · exact hconsumed

theorem place_consumed (h : ConsumedNext w.session.records w.session.cursor w'.session) :
    place w < place w' := by
  rcases h with ⟨hrecords, m, r, hnext, hcursor, -⟩
  unfold place position
  rw [hrecords, hcursor, taken_next hnext]
  simp

/-- A round on the straight run is one of the straight run. -/
theorem track_round (hf : Entry f) (hsound : Sound laws f err i w) (hu : StraightRun f n u)
    (htwin : Coupled laws i j w u)
    (hexec : exec (driveRound arch none) w = some (.ok none, w')) :
    ∃ u', exec (driveRound arch none) u = some (.ok none, u') ∧ Coupled laws i j w' u' ∧
      Sound laws f err i w' ∧ w'.session.finished = w.session.finished := by
  rcases follow_round laws htwin hexec with ⟨u', hexec', htwin', hmoved⟩
  refine ⟨u', hexec', htwin', hsound.moved hmoved ?_, hmoved.finished⟩
  intro c hcs hsnapshot
  rcases snapshot_consumed hexec hcs with ⟨hconsumed, hsignal⟩
  rcases hsnapshot.copied with ⟨img, hcopied, hi⟩
  refine ⟨img, hcopied, .inl ⟨n + 1, u', ?_⟩⟩
  have hfurther : place u < place u' := by
    rw [← place_view htwin.view, ← place_view htwin'.view]
    exact place_consumed hconsumed
  have hview := htwin'.view
  exact
    { rounds := hu.snoc hexec'
      lead := Lead.snoc (driveRound_straight.climbs hf.toOrigin) hu hfurther
      seq := hview.currentSeq.symm.trans hsnapshot.seq
      currentSeq := hsnapshot.currentSeq.trans hview.currentSeq
      cursor := hsnapshot.cursor.trans hview.cursor
      lastRegs := hsnapshot.lastRegs.trans hview.lastRegs
      pending := hview.pending.symm.trans hsnapshot.idle
      resumeSignal := hview.resumeSignal.symm.trans hsignal
      image := by
        rcases htwin'.image with ⟨img', -, hi', hj⟩
        rw [hi] at hi'
        rcases Option.some.inj hi' with rfl
        exact ⟨j, htwin'.leader.2, hj⟩ }

/-- The session is past all of the straight run. -/
def Past (f w : World (Os M)) : Prop :=
  ∀ n u, StraightRun f n u → u.session.cursor ≤ w.session.cursor

/-- The tracee is inside a call though none is pending, or the other way round: a call to the
session failed between the entry of a syscall and its exit. -/
def OutOfStep (laws : ForkLaws M) (w : World (Os M)) : Prop :=
  w.session.finished = none ∧ ∃ i img, w.os.At w.session.pid i 0 img ∧
    ¬ (laws.inside img.group 0 ↔ w.session.pending.isSome = true)

/-- The session can be driven on: the driver takes the next syscall stop for what it is, or
has no record left and can make nothing of it. -/
def Driveable (laws : ForkLaws M) (w : World (Os M)) : Prop := OutOfStep laws w → Spent w.session

theorem Coupled.not_outOfStep (h : Coupled laws i j w u) : ¬ OutOfStep laws w := by
  rintro ⟨-, k, img, hat, hnot⟩
  rcases h.image with ⟨img', hstance, hi, -⟩
  have hhere : w.os.At w.session.pid i 0 img' := ⟨h.leader.1, hi⟩
  rcases hat.unique hhere with ⟨-, -, rfl⟩
  exact hnot hstance.inside

/-- A tracee off the straight run that can be driven on. -/
def Steered (laws : ForkLaws M) (i : Nat) (w : World (Os M)) : Prop :=
  Coupled laws i i w w ∨ Twin Ready i i w w ∧ Spent w.session

theorem Steered.ready (h : Steered laws i w) : Twin Ready i i w w := by
  rcases h with hcoupled | ⟨htwin, -⟩
  · exact hcoupled.ready
  · exact htwin

theorem steered_of_driveable (htwin : Twin Ready i i w w) (hlive : w.session.finished = none)
    (h : Driveable laws w) : Steered laws i w := by
  rcases htwin.image with ⟨img, hready, hi, -⟩
  by_cases hinside : laws.inside img.group 0 ↔ w.session.pending.isSome = true
  · exact .inl { htwin with image := ⟨img, ⟨hready, hinside⟩, hi, hi⟩ }
  · exact .inr ⟨htwin, h ⟨hlive, i, img, ⟨htwin.leader.1, hi⟩, hinside⟩⟩

/-- No round gives records back. -/
theorem Spent.progressed {s s' : ReplaySession} {c : Option UInt64} (h : Spent s)
    (hs : Progressed s.records s.cursor c s') : Spent s' := by
  rcases hs with ⟨hrecords, hprogress⟩
  have hle := hprogress.forward.1
  intro r hr
  rw [hrecords, show s'.cursor = s.cursor + (s'.cursor - s.cursor) by omega,
    ← List.drop_drop] at hr
  exact h r (List.mem_of_mem_drop hr)

theorem spent_solo (h : Twin Ready i i w w) (hspent : Spent w.session) :
    Spent w.session ∧ Solo w Ready i i w.session.pid w w := ⟨hspent, h.solo⟩

/-- A round off the straight run. -/
theorem steered_round (h : Steered laws i w)
    (hexec : exec (driveRound arch none) w = some (.ok none, w')) :
    Steered laws i w' ∧ Moved laws i w w' := by
  rcases h with hcoupled | ⟨htwin, hspent⟩
  · rcases follow_round laws hcoupled hexec with ⟨w'', hexec', hcoupled', hmoved⟩
    rw [hexec] at hexec'
    rcases Prod.mk.inj (Option.some.inj hexec') with ⟨-, rfl⟩
    exact ⟨.inl hcoupled', hmoved⟩
  · rcases (spentRound_sim laws).ok (spent_solo htwin hspent) hexec with ⟨a, w'', hexec', hround⟩
    rw [hexec] at hexec'
    rcases Prod.mk.inj (Option.some.inj hexec') with ⟨-, rfl⟩
    cases hround with
    | again htwin' hmoved =>
      exact ⟨.inr ⟨htwin', hspent.progressed (driveRound_straight _ _ hexec)⟩, hmoved⟩

theorem steered_end (h : Steered laws i w) {outcome : ExitOutcome}
    (hexec : exec (driveRound arch none) w = some (.ok (some outcome), w')) :
    Ended i outcome w w' := by
  rcases h with hcoupled | ⟨htwin, hspent⟩
  · rcases follow_end laws hcoupled hexec with ⟨-, -, -, hended⟩
    exact hended
  · rcases (spentRound_sim laws).ok (spent_solo htwin hspent) hexec with ⟨a, w'', -, hround⟩
    cases hround with
    | leave _ hended => exact hended

theorem steered_error (h : Steered laws i w) {e : ReplayError}
    (hexec : exec (driveRound arch none) w = some (.error e, w')) : Kept i w w' := by
  rcases h with hcoupled | ⟨htwin, hspent⟩
  · exact follow_error laws hcoupled hexec
  · exact (spentRound_sim laws).error (spent_solo htwin hspent) hexec

/-- A round past the straight run stays there. -/
theorem past_round (hf : Entry f) (hsound : Sound laws f True i w) (htwin : Steered laws i w)
    (hpast : Past f w) (hexec : exec (driveRound arch none) w = some (.ok none, w')) :
    Steered laws i w' ∧ Past f w' ∧ Sound laws f True i w' ∧
      w'.session.finished = w.session.finished := by
  rcases steered_round htwin hexec with ⟨htwin', hmoved⟩
  have hle : w.session.cursor ≤ w'.session.cursor := cursor_le (.succ hexec (.zero w'))
  refine ⟨htwin', fun n u hu => (hpast n u hu).trans hle, hsound.moved hmoved ?_,
    hmoved.finished⟩
  intro c hcs hsnapshot
  rcases snapshot_consumed hexec hcs with ⟨⟨-, m, r, hnext, hcursor, hcurrent⟩, -⟩
  rcases hsnapshot.copied with ⟨img, hcopied, -⟩
  refine ⟨img, hcopied, .inr ⟨trivial, ?_⟩⟩
  intro n u hu
  constructor
  · rw [hsnapshot.cursor]
    exact (hpast n u hu).trans hle
  · -- what the straight run has consumed lies before what was consumed here
    intro y hy
    rcases current_before hf hu hy with ⟨k, r', hk, hr', rfl⟩
    have hseq : r.seq = c.seq := by
      rw [hsnapshot.seq] at hcurrent
      exact (Option.some.inj hcurrent).symm
    have hhere := hnext.here
    rw [hsound.records] at hhere
    have hskips := hnext.skips.1
    have hkm : k < m := by
      have := hpast n u hu
      omega
    rw [← hseq]
    exact hf.increasing.lt hkm hr' hhere

/-- Rounds on the straight run. -/
theorem track_rounds {k : Nat} (hf : Entry f) (h : Rounds (driveRound arch none) k w w')
    (hsound : Sound laws f err i w) (hu : StraightRun f n u) (htwin : Coupled laws i j w u) :
    ∃ u', Rounds (driveRound arch none) k u u' ∧ Coupled laws i j w' u' ∧
      Sound laws f err i w' ∧ w'.session.finished = w.session.finished := by
  induction h generalizing n u with
  | zero w => exact ⟨u, .zero u, htwin, hsound, rfl⟩
  | succ first _ ih =>
    rcases track_round hf hsound hu htwin first with ⟨u₁, hexec, htwin₁, hsound₁, hfin₁⟩
    rcases ih hsound₁ (hu.snoc hexec) htwin₁ with ⟨u', hrest, htwin', hsound', hfin'⟩
    exact ⟨u', .succ hexec hrest, htwin', hsound', hfin'.trans hfin₁⟩

/-- What is past the run stays past it. -/
theorem past_rounds {k : Nat} (hf : Entry f) (h : Rounds (driveRound arch none) k w w')
    (hsound : Sound laws f True i w) (hsteered : Steered laws i w) (hpast : Past f w) :
    Steered laws i w' ∧ Past f w' ∧ Sound laws f True i w' ∧
      w'.session.finished = w.session.finished := by
  induction h with
  | zero w => exact ⟨hsteered, hpast, hsound, rfl⟩
  | succ first _ ih =>
    rcases past_round hf hsound hsteered hpast first with ⟨hsteered₁, hpast₁, hsound₁, hfin₁⟩
    rcases ih hsound₁ hsteered₁ hpast₁ with ⟨hsteered', hpast', hsound', hfin'⟩
    exact ⟨hsteered', hpast', hsound', hfin'.trans hfin₁⟩

/-! ## Where a session is -/

/-- A session is on the straight run, at a state that leads; or past it, after a failure;
or its target has ended. -/
inductive Active (laws : ForkLaws M) (f : World (Os M)) (err : Prop) (i : Nat)
    (w : World (Os M)) : Prop where
  | tracking {n j : Nat} {u : World (Os M)} (rounds : StraightRun f n u) (lead : Leading f n u)
      (twin : Coupled laws i j w u) (unfinished : w.session.finished = none)
  | past (failed : err) (twin : Twin Ready i i w w) (past : Past f w)
      (unfinished : w.session.finished = none)
  | ended {outcome : ExitOutcome} (finished : w.session.finished = some outcome)
      (gone : outcome ≠ .running)
      (ran : err ∨ ∃ n u, StraightRun f n u ∧ w.session.currentSeq = u.session.currentSeq)

/-- The invariant of a session; `err` says whether a call may have failed. -/
def Traveler (laws : ForkLaws M) (f : World (Os M)) (err : Prop) (w : World (Os M)) : Prop :=
  ∃ i, Sound laws f err i w ∧ Active laws f err i w

/-- A round that fails leaves the session where it can be driven on from. -/
theorem Kept.twin (h : Kept i w w') (hsound : Sound laws f err i w) :
    Sound laws f err i w' ∧ Twin Ready i i w' w' ∧
      w'.session.finished = w.session.finished := by
  have hsound' := hsound.ofSteady h.steady.toBound h.steady.checkpoints h.others
  rcases h.image with ⟨img, hready, himg⟩
  have hseat : w'.os.At w'.session.pid i 0 img := ⟨h.steady.pid ▸ h.seat, himg⟩
  exact ⟨hsound', Twin.self hseat hready hsound'.unwatched hsound'.mt, h.steady.finished⟩

/-- Where the straight run fails, it has come as far as it ever does. -/
theorem past_of_error (hu : StraightRun f n u) (htwin : Coupled laws i j w u)
    {e : ReplayError} (hexec : exec (driveRound arch none) w = some (.error e, w')) :
    Past f w' := by
  have hstuck : ∀ u', exec (driveRound arch none) u ≠ some (.ok none, u') := by
    intro u' hok
    rcases follow_round laws htwin.symm hok with ⟨w'', hok', -, -⟩
    rw [hexec] at hok'
    cases hok'
  have honward := (driveRound_progress w.session.checkpoints).error ⟨atPos_self w.session, rfl⟩
    hexec
  intro m v hv
  have hle : v.session.cursor ≤ u.session.cursor := by
    rcases Nat.le_total m n with hmn | hnm
    · rcases hu.before hmn with ⟨x, hx, hrest⟩
      rcases hx.unique hv with rfl
      exact cursor_le hrest
    · rcases hv.before hnm with ⟨x, hx, hrest⟩
      rcases hx.unique hu with rfl
      generalize m - n = d at hrest
      cases hrest with
      | zero => exact Nat.le_refl _
      | succ first _ => exact absurd first (hstuck _)
  rw [← htwin.view.cursor] at hle
  exact hle.trans honward.2.1

/-- A target not met by one twin is not met by the other. -/
theorem track_passing {k : Nat} {stopAt : Option UInt64} (hf : Entry f)
    (h : Rounds (driveRound arch none) k w w') (hsound : Sound laws f err i w)
    (hu : StraightRun f n u) (htwin : Coupled laws i j w u)
    (hpassing : Passing (atTarget stopAt) (driveRound arch none) k w) :
    Passing (atTarget stopAt) (driveRound arch none) k u := by
  intro m hm x hx
  rcases h.before (Nat.le_of_lt hm) with ⟨y, hy, -⟩
  rcases track_rounds hf hy hsound hu htwin with ⟨x', hx', htwin', -, -⟩
  rcases hx.unique hx' with rfl
  have hgo := hpassing m hm y hy
  unfold atTarget at hgo ⊢
  rwa [← htwin'.view.currentSeq]

/-- How a drive leaves a session on the straight run. -/
inductive Left (laws : ForkLaws M) (f : World (Os M)) (err : Prop) (i j : Nat)
    (stopAt : Option UInt64) (u : World (Os M)) :
    Except ReplayError ExitOutcome → World (Os M) → Prop where
  | stopped {k : Nat} {u' w' : World (Os M)} (rounds : Rounds (driveRound arch none) k u u')
      (passing : Passing (atTarget stopAt) (driveRound arch none) k u)
      (reached : atTarget stopAt u' = true) (twin : Coupled laws i j w' u')
      (sound : Sound laws f err i w') (unfinished : w'.session.finished = none) :
      Left laws f err i j stopAt u (.ok .running) w'
  | ended {k : Nat} {u' w' : World (Os M)} {outcome : ExitOutcome} (gone : outcome ≠ .running)
      (finished : w'.session.finished = some outcome) (sound : Sound laws f err i w')
      (rounds : Rounds (driveRound arch none) k u u')
      (current : w'.session.currentSeq = u'.session.currentSeq) :
      Left laws f err i j stopAt u (.ok outcome) w'
  | failed {e : ReplayError} {w' : World (Os M)} (twin : Twin Ready i i w' w') (past : Past f w')
      (sound : Sound laws f True i w') (unfinished : w'.session.finished = none) :
      Left laws f err i j stopAt u (.error e) w'

theorem track_drive (hf : Entry f) (stopAt : Option UInt64) (hsound : Sound laws f err i w)
    (hu : StraightRun f n u) (htwin : Coupled laws i j w u) (hlive : w.session.finished = none)
    {r : Except ReplayError ExitOutcome}
    (hexec : exec (loop (driveRound arch stopAt)) w = some (r, w')) :
    Left laws f err i j stopAt u r w' := by
  rw [driveRound_upTo] at hexec
  rcases loop_upTo_inv hexec with ⟨k, v, hrounds, hpassing, hleft⟩
  rcases track_rounds hf hrounds hsound hu htwin with ⟨u', hu', htwin', hsound', hfin⟩
  have hlive' := hfin.trans hlive
  rcases hleft with ⟨hstop, rfl, rfl⟩ | ⟨-, ⟨outcome, hend, rfl⟩ | ⟨e, herror, rfl⟩⟩
  · have hreached : atTarget stopAt u' = true := by
      unfold atTarget at hstop ⊢
      rwa [← htwin'.view.currentSeq]
    exact .stopped hu' (track_passing hf hrounds hsound hu htwin hpassing) hreached htwin'
      hsound' hlive'
  · rcases follow_end laws htwin' hend with ⟨-, -, -, hended⟩
    have hpos := (driveRound_progress v.session.checkpoints).ok ⟨atPos_self v.session, rfl⟩ hend
    exact .ended hended.gone hended.finished
      (hsound'.ofSteady hended.bound hended.checkpoints hended.others) hu'
      (hpos.current.trans htwin'.view.currentSeq)
  · have hkept := follow_error laws htwin' herror
    rcases hkept.twin hsound'.weaken with ⟨hsound'', htwin'', hfin''⟩
    exact .failed htwin'' (past_of_error (hu.trans hu') htwin' herror) hsound''
      (hfin''.trans hlive')

/-- A drive past the straight run ends there too. -/
theorem past_drive (hf : Entry f) (stopAt : Option UInt64) (hsound : Sound laws f True i w)
    (hsteered : Steered laws i w) (hpast : Past f w) (hlive : w.session.finished = none)
    {r : Except ReplayError ExitOutcome}
    (hexec : exec (loop (driveRound arch stopAt)) w = some (r, w')) :
    Sound laws f True i w' ∧ Active laws f True i w' := by
  rw [driveRound_upTo] at hexec
  rcases loop_upTo_inv hexec with ⟨k, v, hrounds, -, hleft⟩
  rcases past_rounds hf hrounds hsound hsteered hpast with ⟨hsteered', hpast', hsound', hfin⟩
  have hlive' := hfin.trans hlive
  rcases hleft with ⟨-, rfl, rfl⟩ | ⟨-, ⟨outcome, hend, rfl⟩ | ⟨e, herror, rfl⟩⟩
  · exact ⟨hsound', .past trivial hsteered'.ready hpast' hlive'⟩
  · have hended := steered_end hsteered' hend
    exact ⟨hsound'.ofSteady hended.bound hended.checkpoints hended.others,
      .ended hended.finished hended.gone (.inl trivial)⟩
  · have hkept := steered_error hsteered' herror
    rcases hkept.twin hsound' with ⟨hsound'', htwin'', hfin''⟩
    have honward := (driveRound_progress v.session.checkpoints).error
      ⟨atPos_self v.session, rfl⟩ herror
    exact ⟨hsound'', .past trivial htwin'' (fun n u hu => (hpast' n u hu).trans honward.2.1)
      (hfin''.trans hlive')⟩

/-- A state the straight run is driven to leads. -/
theorem lead_stopped {k : Nat} {stopAt : Option UInt64} (hf : Entry f) (hu : StraightRun f n u)
    (hlead : Leading f n u) (hrounds : Rounds (driveRound arch none) k u u')
    (hpassing : Passing (atTarget stopAt) (driveRound arch none) k u)
    (hreached : atTarget stopAt u' = true) : Leading f (n + k) u' :=
  Lead.upTo (driveRound_straight.climbs hf.toOrigin)
    (driveRound_straight.target_same hf.toOrigin stopAt) hlead hu hrounds hpassing hreached

/-- What a call keeps: the invariant, and after a failure the weaker one. -/
def Keeping (laws : ForkLaws M) (f : World (Os M)) (err : Prop) {α : Type}
    (m : Method (Os M) α) : Prop :=
  Spec (Traveler laws f err) m (fun _ => Traveler laws f err) (fun _ => Traveler laws f True)

/-- A session in which no call has failed can be driven on. -/
theorem Traveler.driveable (h : Traveler laws f False w) : Driveable laws w := by
  rcases h with ⟨i, -, hactive⟩
  intro hout
  cases hactive with
  | tracking _ _ twin _ => exact absurd hout twin.not_outOfStep
  | past failed _ _ _ => exact failed.elim
  | ended finished _ _ =>
    rw [hout.1] at finished
    cases finished

/-- A drive keeps the invariant, if the session can be driven on. -/
theorem drive_keeping (hf : Entry f) (hsingle : f.session.multithreaded = false)
    (stopAt : Option UInt64) :
    Spec (fun w => Traveler laws f err w ∧ Driveable laws w) (drive arch stopAt)
      (fun _ => Traveler laws f err) (fun _ => Traveler laws f True) := by
  rintro w ⟨⟨i, hsound, hactive⟩, hdrive⟩ r w' hexec
  have hsingle' := hsound.multithreaded.trans hsingle
  cases hactive with
  | ended finished gone ran =>
    rw [exec_drive_over finished] at hexec
    rcases Prod.mk.inj (Option.some.inj hexec) with ⟨rfl, rfl⟩
    exact ⟨i, hsound, .ended finished gone ran⟩
  | tracking rounds lead twin unfinished =>
    rw [exec_drive_single unfinished hsingle'] at hexec
    cases track_drive hf stopAt hsound rounds twin unfinished hexec with
    | stopped hrounds hpassing hreached htwin hsound' hlive =>
      exact ⟨i, hsound', .tracking (rounds.trans hrounds)
        (lead_stopped hf rounds lead hrounds hpassing hreached) htwin hlive⟩
    | ended gone finished hsound' hrounds hcurrent =>
      exact ⟨i, hsound', .ended finished gone (.inr ⟨_, _, rounds.trans hrounds, hcurrent⟩)⟩
    | failed htwin hpast hsound' hlive => exact ⟨i, hsound', .past trivial htwin hpast hlive⟩
  | past failed twin past unfinished =>
    rcases eq_true failed with rfl
    rw [exec_drive_single unfinished hsingle'] at hexec
    have hsteered := steered_of_driveable twin unfinished hdrive
    have hpost : Traveler laws f True w' :=
      ⟨i, past_drive hf stopAt hsound hsteered past unfinished hexec⟩
    cases r with
    | ok outcome => exact hpost
    | error e => exact hpost

/-! ## Jumping -/

theorem Twin.seated {K : Image M → Prop} (h : Twin K i j w u) :
    ∃ img, w.os.At w.session.pid i 0 img := by
  rcases h.image with ⟨img, -, hi, -⟩
  exact ⟨img, h.leader.1, hi⟩

/-- A session that has not ended has its tracee. -/
theorem Active.live (h : Active laws f err i w) (hlive : w.session.finished = none) :
    ∃ img, w.os.At w.session.pid i 0 img := by
  cases h with
  | tracking _ _ twin _ => exact twin.seated
  | past _ twin _ _ => exact twin.seated
  | ended finished _ _ =>
    rw [hlive] at finished
    cases finished

/-- Where a restart for a target lands: at a state of the straight run that leads and is
not past the target, or at a snapshot past the run, which is then before the target. -/
inductive Landed (laws : ForkLaws M) (f : World (Os M)) (err : Prop) (target : UInt64) (i : Nat)
    (w : World (Os M)) : Prop where
  | run {n j : Nat} {u : World (Os M)} (rounds : StraightRun f n u) (lead : Leading f n u)
      (twin : Coupled laws i j w u) (unfinished : w.session.finished = none)
      (notPast : ∀ y, u.session.currentSeq = some y → y ≤ target)
  | past {c : CheckpointInfo} (failed : err) (far : Far f c) (before : c.seq ≤ target)
      (twin : Coupled laws i i w w) (past : Past f w) (unfinished : w.session.finished = none)

theorem Landed.active {target : UInt64} (h : Landed laws f err target i w) :
    Active laws f err i w := by
  cases h with
  | run rounds lead twin unfinished _ => exact .tracking rounds lead twin unfinished
  | past failed _ _ twin past unfinished => exact .past failed twin.ready past unfinished

/-- A restart never leaves the tracee in the middle of a syscall. -/
theorem Landed.not_outOfStep {target : UInt64} (h : Landed laws f err target i w) :
    ¬ OutOfStep laws w := by
  cases h with
  | run _ _ twin _ _ => exact twin.not_outOfStep
  | past _ _ _ twin _ _ => exact twin.not_outOfStep

/-- The snapshots survive a restart. -/
theorem Stored.restarted {i' : Nat} {pid : Pid} {img : Image M} {os os' : Os M}
    {c : CheckpointInfo} (h : Stored laws f err i os c) (hre : Restarted i i' pid img os os') :
    Stored laws f err i' os' c := by
  rcases h with ⟨img', ⟨hheld, k, hk, hat⟩, hwhere⟩
  refine ⟨img', ⟨hheld, k, ?_, hre.others.procs _ _ _ hk hat.proc,
    hre.others.images _ _ hk hat.image⟩, hwhere⟩
  rintro rfl
  have hnone := hre.fresh
  rw [hat.image] at hnone
  cases hnone

/-- Twins made by a restart. -/
theorem twin_restarted {i' : Nat} {pid : Pid} {img : Image M} {s : ReplaySession} {os os' : Os M}
    {K : Image M → Prop} (hre : Restarted i i' pid img os os') (hu : ∃ j, u.os.At u.session.pid j 0 img)
    (hK : K img) (hview : SameView s u.session) (hpid : s.pid = pid)
    (hunwatched : Unwatched M s ∧ Unwatched M u.session) (hmt : s.mt = none ∧ u.session.mt = none) :
    ∃ j, Twin K i' j ⟨s, os'⟩ u := by
  rcases hu with ⟨j, hat⟩
  refine ⟨j, hview, hunwatched, ⟨img, hK, hre.seat.image, hat.image⟩, ⟨?_, hat.proc⟩, ?_⟩
  · show os'.procs[s.pid]? = some (i', 0)
    rw [hpid]
    exact hre.seat.proc
  · show OptThreadsTwin i' j os' u.os s.mt u.session.mt
    rw [hmt.1, hmt.2]
    exact .none

/-- A restart for a target works, and lands before it. -/
theorem restart_lands (hf : Entry f) (h : Traveler laws f err w) (target : UInt64) :
    ∃ i w', exec (restart arch (planStart w.session target)) w = some (.ok (), w') ∧
      Sound laws f err i w' ∧ Landed laws f err target i w' := by
  rcases h with ⟨i, hsound, hactive⟩
  have hrunUnwatched (u : World (Os M)) (hbound : Bound f.session u.session) :
      Unwatched M u.session := .inl (hbound.watchpoint.trans hf.unwatched)
  unfold planStart restart
  cases hnearest : nearestAtOrBefore (w.session.checkpoints.map (·.seq)) target with
  -- From the start: a new tracee stands where the first one stood at its entry.
  | none =>
    rcases exec_respawn (fun hlive => hactive.live hlive) hsound.armed with
      ⟨pid, i', os', hexec, hre⟩
    have hstored : ∀ c ∈ w.session.checkpoints, Stored laws f err i' os' c :=
      fun c hc => (hsound.stored c hc).restarted hre
    rw [hsound.cmdline] at hre
    have hview : SameView (w.session.atEntry pid) f.session :=
      { records := hsound.records
        multithreaded := hsound.multithreaded
        cursor := hf.cursor.symm
        currentSeq := hf.current.symm
        pending := hf.pending.symm
        resumeSignal := hf.resumeSignal.symm
        lastRegs := hf.lastRegs.symm
        finished := hf.unfinished.symm }
    rcases twin_restarted hre hf.image (entryImage_stance laws _) hview rfl
      ⟨hsound.unwatched, .inl hf.unwatched⟩ ⟨rfl, hf.mt⟩ with ⟨j, htwin⟩
    refine ⟨i', _, hexec, { hsound with mt := rfl, stored := hstored },
      .run (.zero f) (Lead.start _ _ _) htwin rfl ?_⟩
    intro y hy
    rw [hf.current] at hy
    cases hy
  | some index =>
    rcases nearestAtOrBefore_some hnearest with ⟨seq, hseq, hle⟩
    rw [List.getElem?_map] at hseq
    rcases Option.map_eq_some_iff.mp hseq with ⟨c, hc, rfl⟩
    rcases hsound.stored c (List.mem_of_getElem? hc) with
      ⟨img, ⟨hheld, k, hk, hat⟩, hwhere⟩
    rcases exec_restoreToCheckpoint hc hat hheld (fun hlive => hactive.live hlive) hsound.armed with
      ⟨pid, i', os', hexec, hre⟩
    have hstored : ∀ c ∈ w.session.checkpoints, Stored laws f err i' os' c :=
      fun c hc => (hsound.stored c hc).restarted hre
    refine ⟨i', _, hexec, { hsound with mt := rfl, stored := hstored }, ?_⟩
    -- The checkpoint is one of the straight run, or is past all of it.
    rcases hwhere with ⟨n, u, hgood⟩ | ⟨failed, hfar⟩
    · have hrun := hf.onRun laws hgood.rounds
      have hview : SameView (w.session.atCheckpoint c pid) u.session :=
        { records := hsound.records.trans hrun.bound.records.symm
          multithreaded := hsound.multithreaded.trans hrun.bound.multithreaded.symm
          cursor := hgood.cursor
          currentSeq := hgood.currentSeq
          pending := hgood.pending.symm
          resumeSignal := hgood.resumeSignal.symm
          lastRegs := hgood.lastRegs
          finished := hrun.unfinished.symm }
      rcases twin_restarted hre hgood.image hheld.stance hview rfl
        ⟨hsound.unwatched, hrunUnwatched u hrun.bound⟩
        ⟨rfl, hrun.bound.mt.trans hf.mt⟩ with ⟨j, htwin⟩
      refine .run hgood.rounds hgood.lead htwin rfl ?_
      intro y hy
      rw [hgood.seq] at hy
      rcases Option.some.inj hy with rfl
      exact hle
    · have htwin : Coupled laws i' i' ⟨w.session.atCheckpoint c pid, os'⟩
          ⟨w.session.atCheckpoint c pid, os'⟩ :=
        Twin.self hre.seat hheld.stance hsound.unwatched rfl
      exact .past failed hfar hle htwin (fun n u hu => (hfar n u hu).1) rfl

/-! ## Calls -/

/-- The call arms a watchpoint. -/
def SessionCall.arms : SessionCall → Bool
  | watch .. => true
  | _ => false

/-- Sessions that look alike to the trace, in a chain. -/
theorem SameView.trans {s s' s'' : ReplaySession} (h : SameView s s') (h' : SameView s' s'') :
    SameView s s'' where
  records := h.records.trans h'.records
  multithreaded := h.multithreaded.trans h'.multithreaded
  cursor := h.cursor.trans h'.cursor
  currentSeq := h.currentSeq.trans h'.currentSeq
  pending := h.pending.trans h'.pending
  resumeSignal := h.resumeSignal.trans h'.resumeSignal
  lastRegs := h.lastRegs.trans h'.lastRegs
  finished := h.finished.trans h'.finished

/-- A session that differs from another in its watchpoint, its hits and its interval only. -/
structure Resembles (s s' : ReplaySession) : Prop extends SameView s s' where
  pid : s.pid = s'.pid
  cmdline : s.cmdline = s'.cmdline
  mt : s.mt = s'.mt
  checkpoints : s.checkpoints = s'.checkpoints

/-- Fields that no driver reads may differ between twins. -/
theorem Twin.resembling {K : Image M → Prop} {s : ReplaySession} (h : Twin K i j w u)
    (hs : Resembles s w.session) (hunwatched : Unwatched M s) : Twin K i j ⟨s, w.os⟩ u where
  view := hs.toSameView.trans h.view
  unwatched := ⟨hunwatched, h.unwatched.2⟩
  image := h.image
  leader := by
    show Seat i j 0 w.os u.os s.pid u.session.pid
    rw [hs.pid]
    exact h.leader
  threads := by
    show OptThreadsTwin i j w.os u.os s.mt u.session.mt
    rw [hs.mt]
    exact h.threads

theorem Coupled.resembling {s : ReplaySession} (h : Coupled laws i j w u)
    (hs : Resembles s w.session) (hunwatched : Unwatched M s) :
    Coupled laws i j ⟨s, w.os⟩ u := by
  have htwin := Twin.resembling h hs hunwatched
  rwa [← hs.pending] at htwin

/-- Fields that no driver reads may be changed between calls. -/
theorem Traveler.resembling {s : ReplaySession} (h : Traveler laws f err w)
    (hs : Resembles s w.session) (hunwatched : Unwatched M s) (harmed : Armed s) :
    Traveler laws f err ⟨s, w.os⟩ := by
  rcases h with ⟨i, hsound, hactive⟩
  refine ⟨i, ?_, ?_⟩
  · exact
      { cmdline := hs.cmdline.trans hsound.cmdline
        records := hs.records.trans hsound.records
        multithreaded := hs.multithreaded.trans hsound.multithreaded
        mt := hs.mt.trans hsound.mt
        unwatched := hunwatched
        armed := harmed
        stored := by
          show ∀ c ∈ s.checkpoints, _
          rw [hs.checkpoints]
          exact hsound.stored }
  · -- On the run, past it, or over: each is about the fields that stay.
    cases hactive with
    | tracking rounds lead twin unfinished =>
      exact .tracking rounds lead (Coupled.resembling twin hs hunwatched)
        (hs.finished.trans unfinished)
    | past failed twin past unfinished =>
      refine .past failed ?_ ?_ (hs.finished.trans unfinished)
      · have hleft := twin.resembling hs hunwatched
        exact hleft.symm.resembling hs hunwatched
      · intro n u hu
        show u.session.cursor ≤ s.cursor
        rw [hs.cursor]
        exact past n u hu
    | ended finished gone ran =>
      refine .ended (hs.finished.trans finished) gone ?_
      show err ∨ ∃ n u, StraightRun f n u ∧ s.currentSeq = u.session.currentSeq
      rw [hs.currentSeq]
      exact ran

theorem Traveler.unwatched (h : Traveler laws f err w) : Unwatched M w.session := by
  rcases h with ⟨i, hsound, -⟩
  exact hsound.unwatched

theorem Traveler.armed (h : Traveler laws f err w) : Armed w.session := by
  rcases h with ⟨i, hsound, -⟩
  exact hsound.armed

theorem Traveler.weaken (h : Traveler laws f err w) : Traveler laws f True w := by
  rcases h with ⟨i, hsound, hactive⟩
  refine ⟨i, hsound.weaken, ?_⟩
  cases hactive with
  | tracking rounds lead twin unfinished => exact .tracking rounds lead twin unfinished
  | past _ twin past unfinished => exact .past trivial twin past unfinished
  | ended finished gone _ => exact .ended finished gone (.inl trivial)

/-- A session changed in what it resembles itself in. -/
theorem modifySelf_keeping {g : ReplaySession → ReplaySession} (hg : ∀ s, Resembles (g s) s)
    (hwatch : ∀ s, (g s).watchpoint = s.watchpoint) : Keeping laws f err (modifySelf g) := by
  intro w h r w' hexec
  rcases Prod.mk.inj (Option.some.inj hexec) with ⟨rfl, rfl⟩
  refine h.resembling (hg w.session) ?_ ?_
  · unfold Unwatched
    rw [hwatch]
    exact h.unwatched
  · unfold Armed
    rw [hwatch]
    exact h.armed

theorem Resembles.refl (s : ReplaySession) : Resembles s s := by
  constructor
  · exact SameView.refl s
  all_goals rfl

/-- A restart goes to a snapshot, or to the entry. -/
theorem restart_keeping (hf : Entry f) (target : UInt64) :
    Spec (fun w => Traveler laws f err w) (do
        let s ← self
        restart arch (planStart s target))
      (fun _ => Traveler laws f err) (fun _ => Traveler laws f True) := by
  intro w h r w' hexec
  rw [bind_ok (exec_self w)] at hexec
  rcases restart_lands hf h target with ⟨i, w'', hexec', hsound, hlanded⟩
  rw [hexec'] at hexec
  rcases Prod.mk.inj (Option.some.inj hexec) with ⟨rfl, rfl⟩
  exact ⟨i, hsound, hlanded.active⟩

/-- The call drives the tracee on from where it is. -/
def SessionCall.drivesOn (s : ReplaySession) : SessionCall → Bool
  | runTo seq => !shouldRestart s.currentSeq (planStart s seq).seq seq
  | stepTo _ | runToEnd => true
  | _ => false

/-- The call does not drive on a session that cannot be. -/
def Steers (laws : ForkLaws M) (w : World (Os M)) (c : SessionCall) : Prop :=
  c.drivesOn w.session = true → Driveable laws w

/-- A jump restarts or not, and drives. -/
theorem runTo_keeping (hf : Entry f) (hsingle : f.session.multithreaded = false)
    (target : UInt64) :
    Spec (fun w => Traveler laws f err w ∧ Steers laws w (.runTo target)) (runTo arch target)
      (fun _ => Traveler laws f err) (fun _ => Traveler laws f True) := by
  rintro w ⟨h, hsteers⟩ r w' hexec
  cases hrestart : shouldRestart w.session.currentSeq (planStart w.session target).seq target with
  | false =>
    have hdrives : SessionCall.drivesOn w.session (.runTo target) = true := by
      show (!shouldRestart w.session.currentSeq _ target) = true
      rw [hrestart]
      rfl
    have hdrive : Driveable laws w := hsteers hdrives
    rw [exec_runTo_drive hrestart] at hexec
    exact drive_keeping hf hsingle (some target) w ⟨h, hdrive⟩ r w' hexec
  | true =>
    rcases restart_lands hf h target with ⟨i, w₁, hexec₁, hsound, hlanded⟩
    have hdrive : Driveable laws w₁ := fun hout => absurd hout hlanded.not_outOfStep
    rw [exec_runTo_restart hrestart hexec₁] at hexec
    exact drive_keeping hf hsingle (some target) w₁ ⟨⟨i, hsound, hlanded.active⟩, hdrive⟩ r w' hexec

/-- A session in which no call has failed is driven on. -/
theorem Traveler.drive {stopAt : Option UInt64} {outcome : ExitOutcome} (h : Traveler laws f False w)
    (hf : Entry f) (hsingle : f.session.multithreaded = false)
    (hexec : exec (drive arch stopAt) w = some (.ok outcome, w')) : Traveler laws f False w' :=
  (drive_keeping hf hsingle stopAt).ok ⟨h, h.driveable⟩ hexec

theorem Traveler.runTo {target : UInt64} {outcome : ExitOutcome} (h : Traveler laws f False w)
    (hf : Entry f) (hsingle : f.session.multithreaded = false)
    (hexec : exec (runTo arch target) w = some (.ok outcome, w')) : Traveler laws f False w' :=
  (runTo_keeping hf hsingle target).ok ⟨h, fun _ => h.driveable⟩ hexec

/-- Reading memory changes nothing. -/
theorem readMemory_keeping (pid : Pid) (addr : UInt64) (len : Nat) :
    Keeping laws f err (readMemory arch pid addr len) := by
  intro w h r w' hexec
  -- Reading writes the image back as it was.
  have hsame : ∀ (call : Except Errno Bytes) (os' : Os M),
      Os.processVmReadv pid addr len w.os = (call, os') → os' = w.os := by
    intro call os' hcall
    unfold Os.processVmReadv Os.onImage at hcall
    split at hcall
    · exact (Prod.mk.inj hcall).2.symm
    · rename_i k task img hfind
      rw [← (Prod.mk.inj hcall).2, Os.setImage_self (Os.at_of_find hfind).image]
  have hkeep : w' = w := by
    unfold readMemory at hexec
    rcases bind_inv hexec with ⟨e, herror, -⟩ | ⟨copied, v, hok, hrest⟩
    · rcases exec_osOr_inv herror with ⟨a, os', hcall, -, rfl⟩ | ⟨e, os', hcall, -, rfl⟩
      · rw [hsame _ _ hcall]
      · rw [hsame _ _ hcall]
    · rcases Prod.mk.inj (Option.some.inj hrest) with ⟨-, rfl⟩
      rcases exec_osOr_inv hok with ⟨a, os', hcall, -, rfl⟩ | ⟨e, os', hcall, -, rfl⟩
      · rw [hsame _ _ hcall]
      · rw [hsame _ _ hcall]
  rw [hkeep]
  cases r with
  | ok bytes => exact h
  | error e => exact h.weaken

theorem validate_ok {addr : UInt64} {len : UInt8} (h : validate addr len = .ok ()) :
    isValidLen len = true := by
  unfold validate at h
  split at h
  · cases h
  · rename_i hlen
    simpa using hlen

theorem self_keeping : Keeping laws f err (self : Method (Os M) ReplaySession) := by
  intro w h r w' hexec
  rcases Prod.mk.inj (Option.some.inj hexec) with ⟨rfl, rfl⟩
  exact h

/-- No watchpoint was armed, so none is cleared. -/
theorem clearWatch_keeping : Keeping laws f err (clearWatch arch) := by
  refine Spec.bind self_keeping fun s => ?_
  refine Spec.bind (Q := fun _ => Traveler laws f err) ?_ fun _ => ?_
  · intro w h r w' hexec
    rcases Prod.mk.inj (Option.some.inj hexec) with ⟨rfl, rfl⟩
    refine h.resembling { Resembles.refl w.session with } (.inl rfl) ?_
    intro wp hwp
    cases hwp
  refine Spec.bind (Q := fun _ => Traveler laws f err) (Spec.when ?_ fun _ _ h => h) fun _ => ?_
  · intro _ w h r w' hexec
    rw [exec_forEach s.liveThreads (exec_disarm w)] at hexec
    rcases Prod.mk.inj (Option.some.inj hexec) with ⟨rfl, rfl⟩
    exact h
  · exact modifySelf_keeping (fun s => { Resembles.refl s with }) fun _ => rfl

/-- A watchpoint that is never hit does not disturb the session. -/
theorem watch_keeping (hquiet : Quiet M) (addr : UInt64) (len : UInt8) (kind : WatchKind) :
    Keeping laws f err (watch arch addr len kind) := by
  refine Spec.bind (orFail_spec fun _ _ h => h.weaken) fun _ => ?_
  rintro w ⟨hvalid, htraveler⟩ r w' hexec
  have hlen := validate_ok hvalid
  rw [bind_ok (exec_self w), bind_ok (exec_forEach w.session.liveThreads fun live =>
    exec_arm w live addr kind hlen)] at hexec
  have hrest : Keeping laws f err (do
      let value ← readMemory arch w.session.pid addr len.toNat
      modifySelf fun s =>
        { s with lastValue := some value, watchpoint := some { addr, len, kind } }) := by
    refine Spec.bind (readMemory_keeping _ _ _) fun value => ?_
    intro w h r w' hexec
    rcases Prod.mk.inj (Option.some.inj hexec) with ⟨rfl, rfl⟩
    refine h.resembling { Resembles.refl w.session with } (.inr hquiet) ?_
    intro wp hwp
    rcases Option.some.inj hwp with rfl
    exact hlen
  exact hrest w htraveler r w' hexec

/-- A call that does not drive on. -/
theorem Keeping.ignoring {α : Type} {m : Method (Os M) α} {c : SessionCall}
    (h : Keeping laws f err m) :
    Spec (fun w => Traveler laws f err w ∧ Steers laws w c) m (fun _ => Traveler laws f err)
      (fun _ => Traveler laws f True) :=
  h.mono (fun _ h => h.1) (fun _ _ h => h) fun _ _ h => h

/-- Every call keeps the invariant; one that arms a watchpoint, if it is never hit, and one
that drives on, if the session can be driven on. -/
theorem perform_keeping (hf : Entry f) (hsingle : f.session.multithreaded = false)
    (c : SessionCall) (hc : c.arms = false ∨ Quiet M) :
    Spec (fun w => Traveler laws f err w ∧ Steers laws w c) (perform arch c)
      (fun _ => Traveler laws f err) (fun _ => Traveler laws f True) := by
  have hpure {α : Type} (a : α) : Keeping laws f err (pure a : Method (Os M) α) :=
    Spec.pure fun _ h => h
  -- Three of the calls drive, and may find the session past the run.
  have hdrives (stopAt : Option UInt64) :
      Spec (fun w => Traveler laws f err w ∧ (true = true → Driveable laws w)) (drive arch stopAt)
        (fun _ => Traveler laws f err) (fun _ => Traveler laws f True) :=
    (drive_keeping hf hsingle stopAt).mono (fun _ h => ⟨h.1, h.2 rfl⟩) (fun _ _ h => h)
      fun _ _ h => h
  cases c with
  | runTo seq => exact Spec.bind (runTo_keeping hf hsingle seq) fun _ => hpure _
  | stepTo seq => exact Spec.bind (hdrives (some seq)) fun _ => hpure _
  | runToEnd => exact Spec.bind (hdrives none) fun _ => hpure _
  | restoreTo seq =>
    refine Keeping.ignoring ?_
    exact Spec.bind (restart_keeping hf seq) fun _ => hpure _
  | checkpointInterval interval =>
    refine Keeping.ignoring ?_
    refine Spec.bind (modifySelf_keeping (fun s => { Resembles.refl s with }) fun _ => rfl)
      fun _ => hpure _
  | takeWatchHits =>
    refine Keeping.ignoring ?_
    refine Spec.bind ?_ fun _ => hpure _
    refine Spec.bind (Q := fun _ => Traveler laws f err) ?_ fun s => ?_
    · intro w h r w' hexec
      rcases Prod.mk.inj (Option.some.inj hexec) with ⟨rfl, rfl⟩
      exact h
    · exact Spec.bind (modifySelf_keeping (fun s => { Resembles.refl s with }) fun _ => rfl)
        fun _ => hpure _
  | clearWatch =>
    refine Keeping.ignoring ?_
    exact Spec.bind clearWatch_keeping fun _ => hpure _
  | watch addr len kind =>
    refine Keeping.ignoring ?_
    rcases hc with hc | hquiet
    · cases hc
    · exact Spec.bind (watch_keeping hquiet addr len kind) fun _ => hpure _

/-! ## Where a call to `run_to` lands -/

/-- A drive from a state that leads and is not past the target lands where the straight run
does. -/
theorem track_lands {t : UInt64} (hf : Entry f) (hsingle : f.session.multithreaded = false)
    (hsound : Sound laws f err i w) (hu : StraightRun f n u) (hlead : Leading f n u)
    (htwin : Coupled laws i j w u) (hlive : w.session.finished = none)
    (hle : ∀ y, u.session.currentSeq = some y → y ≤ t)
    (hexec : exec (drive arch (some t)) w = some (.ok .running, w')) :
    ∃ m v, StraightRun f m v ∧ Passing (atTarget (some t)) (driveRound arch none) m f ∧
      atTarget (some t) v = true ∧ Coupled laws i j w' v ∧ w'.session.finished = none := by
  rw [exec_drive_single hlive (hsound.multithreaded.trans hsingle)] at hexec
  cases track_drive hf (some t) hsound hu htwin hlive hexec with
  | ended gone _ _ _ _ => exact absurd rfl gone
  | stopped hrounds hpassing hreached htwin' _ hlive' =>
    have hbefore := driveRound_straight.passing hf.toOrigin hu hlead hle
    exact ⟨_, _, hu.trans hrounds, hbefore.append hu hpassing, hreached, htwin', hlive'⟩

/-- The straight run is what a fresh session makes of `step_to`. -/
theorem exec_stepTo_entry {t : UInt64} {v : World (Os M)} (hf : Entry f)
    (hsingle : f.session.multithreaded = false) (hv : StraightRun f n v)
    (hpassing : Passing (atTarget (some t)) (driveRound arch none) n f)
    (hreached : atTarget (some t) v = true) :
    exec (stepTo arch t) f = some (.ok .running, v) := by
  unfold stepTo
  rw [exec_drive_single hf.unfinished hsingle, driveRound_upTo]
  exact loop_upTo_stops hv hpassing hreached

/-- From the entry a step is a straight run. -/
theorem stepTo_entry_inv {t : UInt64} {v : World (Os M)} (laws : ForkLaws M) (hf : Entry f)
    (hsingle : f.session.multithreaded = false)
    (hexec : exec (stepTo arch t) f = some (.ok .running, v)) :
    ∃ n, StraightRun f n v ∧ Passing (atTarget (some t)) (driveRound arch none) n f ∧
      atTarget (some t) v = true := by
  unfold stepTo at hexec
  rw [exec_drive_single hf.unfinished hsingle, driveRound_upTo] at hexec
  rcases loop_upTo_inv hexec with ⟨n, x, hx, hpassing, hleft⟩
  rcases hleft with ⟨hstop, -, rfl⟩ | ⟨-, ⟨outcome, hend, heq⟩ | ⟨e, -, heq⟩⟩
  · exact ⟨n, hx, hpassing, hstop⟩
  · -- a target that ends is not running
    rcases (hf.onRun laws hx).twin with ⟨j, htwin⟩
    rcases follow_end laws htwin hend with ⟨-, -, -, hended⟩
    rcases Except.ok.inj heq with rfl
    exact absurd rfl hended.gone
  · cases heq

end Mirrorscope.Replay
