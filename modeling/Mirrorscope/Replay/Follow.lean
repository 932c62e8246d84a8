import Mirrorscope.Replay.Straight
import Mirrorscope.Replay.Twin

/-! # The single-tracee driver, twice

Twins driven by the single-tracee driver stay twins, round by round, whether or
not either of them takes snapshots on the way.

A round begins with twins at a `Stance` and is taken apart:
* `Bound`, `Steady`: what a round leaves alone in the session.
* `Solo`, `Coupled`: the twins, and the twins between two rounds.
* `onEntry_sim`, `onSyscallStop_sim`, `onStopped_sim`: the stops. `AtBoundary`: the image after
  one.
* `Taken`, `Moved`: a snapshot on the way, which the other side need not take.
* `Followed`, `driveRound_sim`: a round of both.
-/

namespace Mirrorscope.Replay

open Capture Linux Run
open Trace (Record)

variable {arch : Arch} {M : Machine arch} {K K' : Image M → Prop} {i j : Nat} {q : Pid}
  {w₀ w w' u u' : World (Os M)} {laws : ForkLaws M}

/-! ## What a round leaves alone -/

/-- What a session is bound to while it drives. -/
structure Bound (s₀ s : ReplaySession) : Prop where
  pid : s.pid = s₀.pid
  cmdline : s.cmdline = s₀.cmdline
  records : s.records = s₀.records
  multithreaded : s.multithreaded = s₀.multithreaded
  watchpoint : s.watchpoint = s₀.watchpoint
  mt : s.mt = s₀.mt

/-- What a round also leaves alone until it ends. -/
structure Steady (s₀ s : ReplaySession) : Prop extends Bound s₀ s where
  checkpoints : s.checkpoints = s₀.checkpoints
  finished : s.finished = s₀.finished

theorem Steady.refl (s : ReplaySession) : Steady s s := by
  constructor
  · constructor <;> rfl
  · rfl
  · rfl

theorem Bound.trans {s₀ s s' : ReplaySession} (h : Bound s₀ s) (h' : Bound s s') :
    Bound s₀ s' where
  pid := h'.pid.trans h.pid
  cmdline := h'.cmdline.trans h.cmdline
  records := h'.records.trans h.records
  multithreaded := h'.multithreaded.trans h.multithreaded
  watchpoint := h'.watchpoint.trans h.watchpoint
  mt := h'.mt.trans h.mt

theorem Steady.trans {s₀ s s' : ReplaySession} (h : Steady s₀ s) (h' : Steady s s') :
    Steady s₀ s' where
  toBound := h.toBound.trans h'.toBound
  checkpoints := h'.checkpoints.trans h.checkpoints
  finished := h'.finished.trans h.finished

/-- A tracee between two stops: it can be resumed. -/
structure Ready (img : Image M) : Prop where
  collected : img.stops 0 = none
  options : img.options 0 = setupOptions

theorem Held.ready {laws : ForkLaws M} {img : Image M} (h : Held laws img 0) : Ready img :=
  ⟨h.collected, h.options⟩

/-- The same, and whether the tracee is inside a call. -/
structure Stance (laws : ForkLaws M) (entered : Bool) (img : Image M) : Prop extends Ready img where
  inside : laws.inside img.group 0 ↔ entered = true

theorem Held.stance {img : Image M} (h : Held laws img 0) : Stance laws false img where
  toReady := h.ready
  inside := by
    have hout := laws.outside img.group 0 h.boundary
    simpa using hout

/-- A round that began in `w₀` has only worked on image `i`. -/
structure Kept (i : Nat) (w₀ w : World (Os M)) : Prop where
  seat : w.os.procs[w₀.session.pid]? = some (i, 0)
  image : ∃ img, Ready img ∧ w.os.images[i]? = some img
  others : Others i w₀.os w.os
  steady : Steady w₀.session w.session

/-- Twins in a round that the first began in `w₀`. -/
abbrev Solo (w₀ : World (Os M)) (K : Image M → Prop) (i j : Nat) (q : Pid) :
    World (Os M) → World (Os M) → Prop :=
  TwinAt w₀.os K i j 0 w₀.session.pid q fun s s' => Steady w₀.session s ∧ s'.pid = q

theorem solo_kept (hK : ∀ img, K img → Ready img) (w u : World (Os M))
    (h : Solo w₀ K i j q w u) : Kept i w₀ w := by
  rcases h.twin.image with ⟨img, hk, hi, -⟩
  exact ⟨h.seat.1, ⟨img, hK img hk, hi⟩, h.others, h.sessions.1⟩

/-- Twins whose tracee is inside a call just when one is pending. -/
abbrev Coupled (laws : ForkLaws M) (i j : Nat) (w u : World (Os M)) : Prop :=
  Twin (Stance laws w.session.pending.isSome) i j w u

/-- How a round may fail. -/
abbrev Failed (i : Nat) (w₀ : World (Os M)) : ReplayError → World (Os M) → Prop :=
  fun _ => Kept i w₀

/-! ## Reading and updating the sessions -/

theorem self_sim {R : World (Os M) → World (Os M) → Prop} {E : ReplayError → World (Os M) → Prop} :
    Sim R (self : Method (Os M) ReplaySession) self
      (fun s s' w u => (w.session = s ∧ u.session = s') ∧ R w u) E := by
  intro w u h r w' hexec
  rcases Prod.mk.inj (Option.some.inj hexec) with ⟨rfl, rfl⟩
  exact ⟨u.session, u, rfl, ⟨rfl, rfl⟩, h⟩

theorem orFail_sim {α ε : Type} {R : World (Os M) → World (Os M) → Prop} {err : ε → ReplayError}
    {x : Except ε α} {E : ReplayError → World (Os M) → Prop} (hE : ∀ e w u, R w u → E e w) :
    Sim R (orFail err x : Method (Os M) α) (orFail err x) (fun a b w u => a = b ∧ R w u) E := by
  cases x with
  | ok a => exact Sim.pure fun _ _ h => ⟨rfl, h⟩
  | error e => exact Sim.fail fun w u h => hE _ w u h

/-- An update of what the sessions show of their position. -/
structure ViewUpdate (f : ReplaySession → ReplaySession) : Prop where
  view : ∀ s s', SameView s s' → SameView (f s) (f s')
  steady : ∀ s, Steady s (f s)

/-- Both sessions change what they show in the same way. -/
theorem modify_sim {base : Os M} {task : Nat} {p : Pid}
    {X : ReplaySession → ReplaySession → Prop} {f : ReplaySession → ReplaySession}
    {E : ReplayError → World (Os M) → Prop} (hf : ViewUpdate f)
    (hX : ∀ s s', X s s' → X (f s) (f s')) :
    Sim (TwinAt base K i j task p q X) (modifySelf f) (modifySelf f)
      (fun _ _ => TwinAt base K i j task p q X) E := by
  apply Sim.update
  rintro w u ⟨htwin, hseat, hothers, hx⟩
  have hl := hf.steady w.session
  have hr := hf.steady u.session
  refine ⟨?_, hseat, hothers, hX _ _ hx⟩
  exact htwin.withView (hf.view _ _ htwin.view) ⟨hl.pid, hr.pid⟩
    ⟨hl.watchpoint, hr.watchpoint⟩ ⟨hl.mt, hr.mt⟩

theorem modifyView_sim {f : ReplaySession → ReplaySession} (hf : ViewUpdate f)
    {E : ReplayError → World (Os M) → Prop} :
    Sim (Solo w₀ K i j q) (modifySelf f) (modifySelf f) (fun _ _ => Solo w₀ K i j q) E := by
  apply modify_sim hf
  rintro s s' ⟨hsteady, hpid⟩
  exact ⟨hsteady.trans (hf.steady s), (hf.steady s').pid.trans hpid⟩

/-- A branch on what both sessions show. -/
theorem view_sim {α : Type} {m : ReplaySession → Method (Os M) α}
    {S : α → α → World (Os M) → World (Os M) → Prop} {E : ReplayError → World (Os M) → Prop}
    (hsame : ∀ s s', SameView s s' → s'.pid = q → s.pid = w₀.session.pid →
      Sim (Solo w₀ K i j q) (m s) (m s') S E) :
    Sim (Solo w₀ K i j q) (do let s ← self; m s) (do let s ← self; m s) S E := by
  refine Sim.bind self_sim fun s s' => ?_
  rintro w u ⟨⟨rfl, rfl⟩, h⟩
  exact hsame _ _ h.twin.view h.sessions.2 h.sessions.1.pid w u h

/-- The same, where something is known of the first session. -/
theorem viewOf_sim {α : Type} {P : ReplaySession → Prop} {m : ReplaySession → Method (Os M) α}
    {S : α → α → World (Os M) → World (Os M) → Prop} {E : ReplayError → World (Os M) → Prop}
    (hsame : ∀ s s', P s → SameView s s' → s'.pid = q → s.pid = w₀.session.pid →
      Sim (fun w u => P w.session ∧ Solo w₀ K i j q w u) (m s) (m s') S E) :
    Sim (fun w u => P w.session ∧ Solo w₀ K i j q w u) (do let s ← self; m s)
      (do let s ← self; m s) S E := by
  refine Sim.bind self_sim fun s s' => ?_
  rintro w u ⟨⟨rfl, rfl⟩, hs, h⟩
  exact hsame _ _ hs h.twin.view h.sessions.2 h.sessions.1.pid w u ⟨hs, h⟩

/-! ## Consuming records -/

theorem skipCheckpoints_update : ViewUpdate fun s =>
    { s with cursor := s.cursor + skipFrom (s.records.drop s.cursor) } where
  view s s' h :=
    { h with cursor := by
              show s.cursor + skipFrom (s.records.drop s.cursor) =
                s'.cursor + skipFrom (s'.records.drop s'.cursor)
              rw [h.cursor, h.records] }
  steady s := { Steady.refl s with }

/-- The same record, or none on both sides. -/
theorem nextRecord_sim {E : ReplayError → World (Os M) → Prop}
    (hE : ∀ e w u, Solo w₀ K i j q w u → E e w) :
    Sim (Solo w₀ K i j q) (nextRecord : Method (Os M) Record) nextRecord
      (fun r r' w u => r = r' ∧ Solo w₀ K i j q w u) E := by
  refine Sim.bind (modifyView_sim skipCheckpoints_update) fun _ _ => ?_
  apply view_sim
  intro s s' hview _ _
  rw [← hview.records, ← hview.cursor]
  have hnext : ViewUpdate fun s => { s with cursor := s.cursor + 1 } :=
    { view := fun _ _ h => { h with cursor := congrArg (· + 1) h.cursor }
      steady := fun s => { Steady.refl s with } }
  split
  · exact Sim.fail fun w u h => hE _ w u h
  · exact Sim.bind (modifyView_sim hnext) fun _ _ => Sim.pure fun _ _ h => ⟨rfl, h⟩

theorem current_update (seq : UInt64) : ViewUpdate fun s => { s with currentSeq := some seq } where
  view _ _ h := { h with currentSeq := rfl }
  steady s := { Steady.refl s with }

/-- A syscall entry leaves the call pending, cancelled or not. -/
theorem onEntry_sim (hK : ∀ img, K img → Ready img) (hcancel : CancelLaws K K 0)
    (regs : Registers) :
    Sim (Solo w₀ K i j q) (onEntry arch regs) (onEntry arch regs)
      (fun _ _ w u => Solo w₀ K i j q w u ∧ w.session.pending.isSome) (Failed i w₀) := by
  refine Sim.bind (nextRecord_sim fun _ => solo_kept hK) fun record record' => Sim.assume fun hrec => ?_
  subst hrec
  -- The record is the entry of a call, or neither side goes on.
  split
  · refine Sim.bind (orFail_sim fun _ => solo_kept hK) fun enter enter' => Sim.assume fun henter => ?_
    subst henter
    split
    · exact Sim.fail (solo_kept hK)
    · refine Sim.bind (modifyView_sim (current_update record.seq)) fun _ _ => ?_
      apply view_sim
      intro s s' _ hpid' hpid
      rw [hpid', hpid]
      refine Sim.bind (S := fun _ _ => Solo w₀ K i j q) (Sim.when ?_ ?_) fun _ _ => ?_
      · intro _
        exact suppressSyscall_sim hcancel fun _ => solo_kept hK
      · intro _ w u h
        exact h
      · have hpending : ViewUpdate fun s =>
            { s with pending := some { injectAddr := injectionAddr arch regs.nr regs.args } } :=
          { view := fun _ _ h => { h with pending := rfl }
            steady := fun s => { Steady.refl s with } }
        intro w u h r w' hexec
        have hpost := modifyView_sim (E := Failed i w₀) hpending w u h r w' hexec
        rcases Prod.mk.inj (Option.some.inj hexec) with ⟨rfl, rfl⟩
        rcases hpost with ⟨a', u', hexec', hsolo⟩
        exact ⟨a', u', hexec', hsolo, rfl⟩
  · exact Sim.fail (solo_kept hK)

/-- Feeding the result of a syscall back keeps the tracee at its boundary. -/
theorem onExit_sim (hK : ∀ img, K img → Ready img) (haccess : AccessLaws K 0)
    (pending : Pending) :
    Sim (Solo w₀ K i j q) (onExit arch pending) (onExit arch pending)
      (fun _ _ => Solo w₀ K i j q) (Failed i w₀) := by
  refine Sim.bind (nextRecord_sim fun _ => solo_kept hK) fun record record' => Sim.assume fun hrec => ?_
  subst hrec
  split
  · refine Sim.bind (orFail_sim fun _ => solo_kept hK) fun exit exit' => Sim.assume fun hexit => ?_
    subst hexit
    refine Sim.bind (modifyView_sim (current_update record.seq)) fun _ _ => ?_
    split
    · apply view_sim
      intro s s' _ hpid' hpid
      rw [hpid', hpid]
      refine Sim.bind (writeMemory_sim (fun _ => solo_kept hK) haccess _ _) fun _ _ => ?_
      exact setReturn_sim haccess _
    · exact Sim.pure fun _ _ h => h
  · exact Sim.fail (solo_kept hK)

theorem held_access (laws : ForkLaws M) : AccessLaws (fun img => Held laws img 0) 0 where
  setReturn img ret h := ⟨h.collected, h.options, laws.setReturn img.group 0 ret h.boundary⟩
  write img addr data h := ⟨h.collected, h.options, laws.write img.group 0 addr data h.boundary⟩

/-- Cancelling the call of a tracee at its entry. -/
theorem stance_cancel (laws : ForkLaws M) : CancelLaws (Stance laws true) (Stance laws true) 0 where
  regs img h :=
    { collected := h.collected
      options := h.options
      inside := iff_of_true (laws.suppress img.group 0 (h.inside.mpr rfl)) rfl }
  nr img h :=
    { collected := h.collected
      options := h.options
      inside := iff_of_true (laws.setNr img.group 0 (-1) (h.inside.mpr rfl)) rfl }

theorem ready_cancel : CancelLaws (M := M) Ready Ready 0 where
  regs _ h := ⟨h.collected, h.options⟩
  nr _ h := ⟨h.collected, h.options⟩

theorem ready_access : AccessLaws (M := M) Ready 0 where
  setReturn _ _ h := ⟨h.collected, h.options⟩
  write _ _ _ h := ⟨h.collected, h.options⟩

/-- A syscall stop is the entry of a call if none is pending, else its exit. -/
theorem onSyscallStop_sim {P : ReplaySession → Prop}
    {S : Unit → Unit → World (Os M) → World (Os M) → Prop} (hK : ∀ img, K img → Ready img)
    (hentry : ∀ s regs, P s → s.pending = none →
      Sim (Solo w₀ K i j q) (onEntry arch regs) (onEntry arch regs) S (Failed i w₀))
    (hexit : ∀ s pending, P s → s.pending = some pending →
      Sim (fun w u => w.session.pending = none ∧ Solo w₀ K i j q w u) (onExit arch pending)
        (onExit arch pending) S (Failed i w₀)) :
    Sim (fun w u => P w.session ∧ Solo w₀ K i j q w u) (onSyscallStop arch) (onSyscallStop arch) S
      (Failed i w₀) := by
  have hregs (regs : Registers) : ViewUpdate fun s =>
      { s with lastRegs := some regs, pending := none } :=
    { view := fun _ _ h => { h with lastRegs := rfl, pending := rfl }
      steady := fun s => { Steady.refl s with } }
  have hcleared (regs : Registers) : Spec (fun _ : World (Os M) => True)
      (modifySelf fun s => { s with lastRegs := some regs, pending := none })
      (fun _ w => w.session.pending = none) (fun _ _ => True) := by
    intro w _ r w' hexec
    rcases Prod.mk.inj (Option.some.inj hexec) with ⟨rfl, rfl⟩
    rfl
  apply viewOf_sim
  intro s s' hs hview hpid' hpid
  rw [hpid', hpid, ← hview.pending]
  refine Sim.pre (R := Solo w₀ K i j q) ?_ fun _ _ h => h.2
  refine Sim.bind (read_sim fun _ => solo_kept hK) fun regs regs' => Sim.assume fun hsame => ?_
  subst hsame
  refine Sim.bind (((modifyView_sim (hregs regs)).also (hcleared regs)).pre
    fun _ _ h => ⟨trivial, h⟩) fun _ _ => ?_
  cases hpending : s.pending with
  | none => exact (hentry s regs hs hpending).pre fun _ _ h => h.2
  | some pending => exact hexit s pending hs hpending

/-- Whether a call is pending does not depend on the records consumed. -/
theorem pending_ignores (p : Option Pending → Prop) : IgnoresRecords fun s => p s.pending where
  unwinder _ _ h := h
  hits _ _ _ h := h
  consume _ _ _ _ h := h

/-- Twins after a syscall stop: a tracee with no syscall pending can be forked. -/
structure AtBoundary (laws : ForkLaws M) (w₀ : World (Os M)) (i j : Nat) (q : Pid)
    (w u : World (Os M)) : Prop where
  solo : Solo w₀ (Stance laws w.session.pending.isSome) i j q w u
  held : w.session.pending = none → Solo w₀ (fun img => Held laws img 0) i j q w u

/-- The tracee stands at the entry of a call. -/
theorem entryStop_sim (laws : ForkLaws M) :
    Sim (fun w u => w.session.pending.isSome = false ∧ Solo w₀ (Stance laws true) i j q w u)
      (onSyscallStop arch) (onSyscallStop arch) (fun _ _ => AtBoundary laws w₀ i j q)
      (Failed i w₀) := by
  refine onSyscallStop_sim (P := fun s => s.pending.isSome = false) (fun _ h => h.toReady) ?_ ?_
  · intro s regs _ _
    refine (onEntry_sim (fun _ h => h.toReady) (stance_cancel laws) regs).post ?_
    rintro _ _ w u ⟨hsolo, hsome⟩
    refine ⟨hsome.symm ▸ hsolo, fun hnone => ?_⟩
    rw [hnone] at hsome
    cases hsome
  · intro s pending hnone hsome
    rw [hsome] at hnone
    cases hnone

/-- The tracee stands at the exit of a call. -/
theorem exitStop_sim (laws : ForkLaws M) :
    Sim (fun w u => w.session.pending.isSome = true ∧
        Solo w₀ (fun img => Held laws img 0) i j q w u)
      (onSyscallStop arch) (onSyscallStop arch) (fun _ _ => AtBoundary laws w₀ i j q)
      (Failed i w₀) := by
  have hheld (img : Image M) (h : Held laws img 0) : Ready img := h.ready
  refine onSyscallStop_sim (P := fun s => s.pending.isSome = true) hheld ?_ ?_
  · intro s regs hsome hnone
    rw [hnone] at hsome
    cases hsome
  · intro s pending _ _
    have hkeeps : KeepsSession (fun s => s.pending = none)
        (onExit arch pending : Method (Os M) Unit) :=
      (pending_ignores (· = none)).onExit arch pending
    refine ((onExit_sim hheld (held_access laws) pending).also hkeeps).post ?_
    rintro _ _ w u ⟨hnone, hsolo⟩
    replace hnone : w.session.pending = none := hnone
    refine ⟨?_, fun _ => hsolo⟩
    rw [hnone]
    exact hsolo.mono fun _ h => h.stance

/-- All records have been consumed but checkpoints. -/
def Spent (s : ReplaySession) : Prop :=
  ∀ r ∈ s.records.drop s.cursor, r.event.kind = .checkpoint

theorem Spent.not_next {s : ReplaySession} (h : Spent s) {m : Nat} {r : Record}
    (hnext : Next s.records s.cursor m r) : False := by
  refine hnext.kind (h r ?_)
  have hle := hnext.skips.1
  refine List.mem_of_getElem? (i := m - s.cursor) ?_
  rw [List.getElem?_drop, show s.cursor + (m - s.cursor) = m by omega]
  exact hnext.here

/-- With no record left, a syscall stop fails, whichever it is. -/
theorem spentStop_sim :
    Sim (fun w u => Spent w.session ∧ Solo w₀ Ready i j q w u)
      (onSyscallStop arch) (onSyscallStop arch) (fun _ _ _ _ => False) (Failed i w₀) := by
  have hready (img : Image M) (h : Ready img) : Ready img := h
  have hfails : Spec (fun w : World (Os M) => Spent w.session) (onSyscallStop arch)
      (fun _ _ => False) (fun _ _ => True) := by
    intro w hspent r w' hexec
    have hany : IgnoresStop fun _ => True :=
      ⟨fun _ _ h => h, fun _ _ h => h, fun _ _ h => h, fun _ _ h => h⟩
    cases r with
    | ok _ =>
      rcases (onSyscallStop_spec hany).ok ⟨atPos_self w.session, trivial⟩ hexec with
        ⟨⟨-, m, record, hnext, -⟩, -⟩
      exact hspent.not_next hnext
    | error _ => trivial
  have hstop : Sim (fun w u => True ∧ Solo w₀ Ready i j q w u) (onSyscallStop arch)
      (onSyscallStop arch) (fun _ _ _ _ => True) (Failed i w₀) := by
    refine onSyscallStop_sim (P := fun _ => True) hready ?_ ?_
    · intro _ regs _ _
      exact (onEntry_sim hready ready_cancel regs).post fun _ _ _ _ _ => trivial
    · intro _ pending _ _
      exact ((onExit_sim hready ready_access pending).pre fun _ _ h => h.2).post
        fun _ _ _ _ _ => trivial
  exact ((hstop.pre fun _ _ h => ⟨trivial, h⟩).also hfails).post fun _ _ _ _ h => h.1

/-! ## Signals -/

/-- The signal is matched with the next record on both sides, or on neither. -/
theorem matchSignal_sim (hK : ∀ img, K img → Ready img) (signal : Signal) :
    Sim (Solo w₀ K i j q) (matchSignal signal : Method (Os M) Unit) (matchSignal signal)
      (fun _ _ => Solo w₀ K i j q) (Failed i w₀) := by
  have hkept (w u : World (Os M)) (h : Solo w₀ K i j q w u) : Kept i w₀ w := solo_kept hK w u h
  have hconsume (seq : UInt64) : ViewUpdate fun s =>
      { s with currentSeq := some seq, cursor := s.cursor + 1 } :=
    { view := fun _ _ h => { h with currentSeq := rfl, cursor := congrArg (· + 1) h.cursor }
      steady := fun s => { Steady.refl s with } }
  apply view_sim
  intro s s' hview _ _
  rw [← hview.records, ← hview.cursor]
  split
  · split
    · refine Sim.bind (orFail_sim fun _ => hkept) fun recorded recorded' => Sim.assume fun hsame => ?_
      subst hsame
      split
      · exact Sim.fail hkept
      · exact modifyView_sim (hconsume _)
    · exact Sim.pure fun _ _ h => h
  · exact Sim.pure fun _ _ h => h

theorem onSignalStop_sim (hK : ∀ img, K img → Ready img) (signal : Signal) :
    Sim (Solo w₀ K i j q) (onSignalStop signal : Method (Os M) Unit) (onSignalStop signal)
      (fun _ _ => Solo w₀ K i j q) (Failed i w₀) := by
  have hqueue : ViewUpdate fun s => { s with resumeSignal := some signal } :=
    { view := fun _ _ h => { h with resumeSignal := rfl }
      steady := fun s => { Steady.refl s with } }
  refine Sim.bind (modifyView_sim skipCheckpoints_update) fun _ _ => ?_
  exact Sim.bind (matchSignal_sim hK signal) fun _ _ => modifyView_sim hqueue

/-- A trap of a session that sees no watchpoint hit is none. -/
theorem exec_isWatchHit {p : Pid} {task : Nat} {img : Image M} (h : w.os.At p i task img)
    (hunwatched : Unwatched M w.session) :
    exec (isWatchHit arch p) w = some (.ok false, w) := by
  unfold isWatchHit
  rw [bind_ok (exec_self w)]
  cases hwatch : w.session.watchpoint with
  | none => rfl
  | some wp =>
    have hquiet : Quiet M := by
      rcases hunwatched with hnone | hquiet
      · rw [hnone] at hwatch
        cases hwatch
      · exact hquiet
    have hcall : Os.getsiginfo p w.os = (.ok (M.siCode img.group task), w.os) := by
      rw [Os.getsiginfo, h.onImage, Os.setImage_self h.image]
    have hno : (M.siCode img.group task == WatchHw.trapHwbkpt) = false := by
      simpa using hquiet img.group task
    have hsi : exec (os (Ptrace.getsiginfo arch p)) w =
        some (.ok (M.siCode img.group task), w) := exec_os hcall
    show exec (WatchHw.isWatchHit arch p) w = _
    unfold WatchHw.isWatchHit
    rw [bind_ok hsi, hno]
    rfl

/-- Without a watchpoint a trap is a signal. -/
theorem onStopped_sim (hK : ∀ img, K img → Ready img) (signal : Signal) :
    Sim (Solo w₀ K i j q) (onStopped arch w₀.session.pid signal) (onStopped arch q signal)
      (fun _ _ => Solo w₀ K i j q) (Failed i w₀) := by
  unfold onStopped
  split
  · intro w u h r w' hexec
    rcases h.twin.image with ⟨img, -, hi, hj⟩
    have hl := exec_isWatchHit (w := w) ⟨h.seat.1, hi⟩ h.twin.unwatched.1
    have hr := exec_isWatchHit (w := u) ⟨h.seat.2, hj⟩ h.twin.unwatched.2
    rw [bind_ok hl] at hexec
    rw [bind_ok hr]
    exact onSignalStop_sim hK signal w u h r w' hexec
  · exact onSignalStop_sim hK signal

/-! ## Snapshots on the way -/

/-- A checkpoint that holds a copy of the tracee of `w`, which is image `i`, at a boundary. -/
structure Snapshot (laws : ForkLaws M) (i : Nat) (w : World (Os M)) (c : CheckpointInfo) :
    Prop where
  seq : w.session.currentSeq = some c.seq
  cursor : c.cursor = w.session.cursor
  currentSeq : c.currentSeq = w.session.currentSeq
  lastRegs : c.lastRegs = w.session.lastRegs
  idle : w.session.pending = none
  copy : ∃ k img, k ≠ i ∧ Held laws img 0 ∧ w.os.images[i]? = some img ∧
    w.os.images[k]? = some img ∧ w.os.procs[c.snapshot]? = some (k, 0)

/-- At most one snapshot was taken, of where the round ended. -/
def Taken (laws : ForkLaws M) (i : Nat) (w₀ w : World (Os M)) : Prop :=
  w.session.checkpoints = w₀.session.checkpoints ∨
    ∃ c, w.session.checkpoints = w₀.session.checkpoints ++ [c] ∧ Snapshot laws i w c

theorem keepsPids_forked (os : Os M) (p : Pid) (task : Nat) (img : Image M) :
    KeepsPids os (forked os p task img) := by
  intro x v hx
  show (os.procs.insert os.nextPid (os.images.length, task))[x]? = some v
  rw [KeyMap.get_insert, if_neg (Os.nextPid_ne hx), hx]

theorem images_forked {os : Os M} {k : Nat} {img' : Image M} (h : os.images[k]? = some img')
    (p : Pid) (task : Nat) (img : Image M) : (forked os p task img).images[k]? = some img' := by
  have hlt : k < os.images.length := (List.getElem?_eq_some_iff.mp h).1
  show (os.images ++ [img])[k]? = some img'
  rw [List.getElem?_append_left hlt, h]

theorem others_forked (i : Nat) (os : Os M) (p : Pid) (task : Nat) (img : Image M) :
    Others i os (forked os p task img) where
  images _ _ _ h := images_forked h p task img
  procs x _ _ _ h := keepsPids_forked os p task img x _ h

/-- A session with one more checkpoint, in a system with one more copy. -/
def withCheckpoint (w : World (Os M)) (img : Image M) (seq : UInt64) : World (Os M) :=
  ⟨{ w.session with
      checkpoints := w.session.checkpoints ++
        [{ seq, cursor := w.session.cursor, currentSeq := w.session.currentSeq,
           lastRegs := w.session.lastRegs, snapshot := w.os.nextPid }] },
    forked w.os w.session.pid 0 img⟩

/-- At a boundary the check for a due checkpoint takes one or does nothing. -/
theorem exec_maybeCheckpoint (laws : ForkLaws M) {img : Image M}
    (h : w.os.At w.session.pid i 0 img) (hheld : w.session.pending = none → Held laws img 0) :
    exec (maybeCheckpoint arch) w = some (.ok (), w) ∨
      ∃ seq, w.session.currentSeq = some seq ∧ w.session.pending = none ∧
        exec (maybeCheckpoint arch) w = some (.ok (), withCheckpoint w img seq) := by
  unfold maybeCheckpoint
  rw [bind_ok (exec_self w)]
  split
  · exact .inl rfl
  split
  · exact .inl rfl
  rename_i _ hpending
  have hidle : w.session.pending = none := by simpa using hpending
  split
  · exact .inl rfl
  rename_i seq hseq
  split
  · exact .inl rfl
  · refine .inr ⟨seq, hseq, hidle, ?_⟩
    have hfork := exec_forkSnapshot laws h (hheld hidle)
    rw [bind_ok hfork]
    rfl

/-- What a round that goes on has done to a session. -/
structure Moved (laws : ForkLaws M) (i : Nat) (w₀ w : World (Os M)) : Prop where
  others : Others i w₀.os w.os
  bound : Bound w₀.session w.session
  finished : w.session.finished = w₀.session.finished
  taken : Taken laws i w₀ w

theorem Moved.ofSolo {laws : ForkLaws M} (h : Solo w₀ K i j q w u) : Moved laws i w₀ w where
  others := h.others
  bound := h.sessions.1.toBound
  finished := h.sessions.1.finished
  taken := .inl h.sessions.1.checkpoints

/-- The checkpoint taken is a snapshot of where the tracee is. -/
theorem snapshot_withCheckpoint {laws : ForkLaws M} {img : Image M} {seq : UInt64}
    (h : w.os.At w.session.pid i 0 img) (hheld : Held laws img 0)
    (hseq : w.session.currentSeq = some seq) (hidle : w.session.pending = none) :
    Snapshot laws i (withCheckpoint w img seq)
      { seq, cursor := w.session.cursor, currentSeq := w.session.currentSeq,
        lastRegs := w.session.lastRegs, snapshot := w.os.nextPid } where
  seq := hseq
  cursor := rfl
  currentSeq := rfl
  lastRegs := rfl
  idle := hidle
  copy := by
    have hlt : i < w.os.images.length := (List.getElem?_eq_some_iff.mp h.image).1
    have hchild : (pair w.os w.session.pid i 0 img img).At w.os.nextPid w.os.images.length 0 img :=
      pair_child
    rw [pair_self h] at hchild
    exact ⟨w.os.images.length, img, by omega, hheld, images_forked h.image _ _ _, hchild.image,
      hchild.proc⟩

/-- A snapshot, taken or not, is not seen by the twin. -/
theorem maybeCheckpoint_sim (laws : ForkLaws M) :
    Sim (AtBoundary laws w₀ i j q) (maybeCheckpoint arch) (maybeCheckpoint arch)
      (fun _ _ w u => Coupled laws i j w u ∧ Moved laws i w₀ w) (Failed i w₀) := by
  rintro w u ⟨hsolo, hboundary⟩ r w' hexec
  rcases hsolo.twin.image with ⟨img, hstance, hi, hj⟩
  have hpid := hsolo.sessions.1.pid
  have hpid' := hsolo.sessions.2
  have hl : w.os.At w.session.pid i 0 img := ⟨hpid ▸ hsolo.seat.1, hi⟩
  have hr : u.os.At u.session.pid j 0 img := ⟨hpid' ▸ hsolo.seat.2, hj⟩
  have hheld (hidle : w.session.pending = none) : Held laws img 0 := by
    rcases (hboundary hidle).twin.image with ⟨img', hheld, hi', -⟩
    rw [hi] at hi'
    rcases Option.some.inj hi' with rfl
    exact hheld
  have hheld' (hidle : u.session.pending = none) : Held laws img 0 :=
    hheld (hsolo.twin.view.pending.trans hidle)
  -- the second session first: its world changes by a copy at most
  have hright : ∃ u', exec (maybeCheckpoint arch) u = some (.ok (), u') ∧
      Coupled laws i j w u' := by
    rcases exec_maybeCheckpoint laws hr hheld' with hskip | ⟨seq, -, -, htake⟩
    · exact ⟨u, hskip, hsolo.twin⟩
    · have htwin := hsolo.twin.withOs hstance (fun _ _ h => h)
        (keepsPids_forked u.os u.session.pid 0 img) hi (images_forked hj u.session.pid 0 img)
      have hview : SameView w.session (withCheckpoint u img seq).session :=
        { hsolo.twin.view with }
      exact ⟨_, htake, htwin.withView hview ⟨rfl, rfl⟩ ⟨rfl, rfl⟩ ⟨rfl, rfl⟩⟩
  rcases hright with ⟨u', hexec', htwin⟩
  rcases exec_maybeCheckpoint laws hl hheld with hskip | ⟨seq, hseq, hidle, htake⟩
  · rw [hskip] at hexec
    rcases Prod.mk.inj (Option.some.inj hexec) with ⟨rfl, rfl⟩
    exact ⟨(), u', hexec', htwin, Moved.ofSolo hsolo⟩
  · rw [htake] at hexec
    rcases Prod.mk.inj (Option.some.inj hexec) with ⟨rfl, rfl⟩
    have hfork := htwin.withOs hstance (keepsPids_forked w.os w.session.pid 0 img)
      (fun _ _ h => h) (images_forked hi w.session.pid 0 img) (by
        rcases htwin.image with ⟨img', -, hi', hj'⟩
        rw [hi] at hi'
        rcases Option.some.inj hi' with rfl
        exact hj')
    refine ⟨(), u', hexec', ?_, ?_⟩
    · have hview : SameView (withCheckpoint w img seq).session u'.session := { htwin.view with }
      exact hfork.withView hview ⟨rfl, rfl⟩ ⟨rfl, rfl⟩ ⟨rfl, rfl⟩
    · exact
        { others := hsolo.others.trans (others_forked i w.os _ 0 img)
          bound := { hsolo.sessions.1.toBound with }
          finished := hsolo.sessions.1.finished
          taken := .inr ⟨_, congrArg (· ++ _) hsolo.sessions.1.checkpoints,
            snapshot_withCheckpoint hl (hheld hidle) hseq hidle⟩ }

/-! ## One round -/

/-- The tracee runs on under its options, and leaves no stop to be waited for. -/
theorem Ready.resumed {img : Image M} (h : Ready img) (sig : Option Signal) :
    Ready ((img.resume 0 sig).2.collect 0) where
  collected := by simp [Image.collect]
  options := by
    have hoptions := h.options
    unfold Image.resume
    dsimp only
    split
    · -- a new task runs under the options of this one
      by_cases hnext : 0 = img.next
      · simp [Image.collect, ← hnext, hoptions]
      · simp [Image.collect, hnext, hoptions]
    · exact hoptions

/-- What resuming the tracee makes of its state, and how it stops. -/
theorem Ready.resume_eq {img : Image M} (h : Ready img) (sig : Option Signal) :
    (img.resume 0 sig).2.group = (M.resume img.group 0 setupOptions sig).1 ∧
      (img.resume 0 sig).1 = (M.resume img.group 0 setupOptions sig).2 := by
  rw [← h.options]
  unfold Image.resume
  dsimp only
  split
  · exact ⟨rfl, rfl⟩
  · exact ⟨rfl, rfl⟩

/-- A tracee outside a call next stops at the entry of one. -/
theorem Stance.entered {img : Image M} (h : Stance laws false img) {sig : Option Signal}
    (hstop : (img.resume 0 sig).1 = .syscall) :
    Stance laws true ((img.resume 0 sig).2.collect 0) where
  toReady := h.resumed sig
  inside := by
    rcases h.toReady.resume_eq sig with ⟨hgroup, hstop'⟩
    have hout : ¬ laws.inside img.group 0 := by simp [h.inside]
    have hin := laws.entry img.group 0 sig hout (hstop'.symm.trans hstop)
    rw [← hgroup] at hin
    exact iff_of_true hin rfl

/-- A tracee inside a call next stops at the exit of it, where it can be forked. -/
theorem Stance.held {img : Image M} (h : Stance laws true img) {sig : Option Signal}
    (hstop : (img.resume 0 sig).1 = .syscall) :
    Held laws ((img.resume 0 sig).2.collect 0) 0 where
  collected := (h.resumed sig).collected
  options := (h.resumed sig).options
  boundary := by
    rcases h.toReady.resume_eq sig with ⟨hgroup, hstop'⟩
    have hat := laws.exit img.group 0 sig (h.inside.mpr rfl) (hstop'.symm.trans hstop)
    rwa [← hgroup] at hat

/-- Any other stop does not change whether the tracee is inside a call. -/
theorem Stance.stays {entered : Bool} {img : Image M} (h : Stance laws entered img)
    {sig : Option Signal} (hstop : (img.resume 0 sig).1 ≠ .syscall)
    (hlive : (img.resume 0 sig).1.isExit = false) :
    Stance laws entered ((img.resume 0 sig).2.collect 0) where
  toReady := h.resumed sig
  inside := by
    rcases h.toReady.resume_eq sig with ⟨hgroup, hstop'⟩
    rw [hstop'] at hstop hlive
    have hsame := laws.other img.group 0 sig hstop hlive
    rw [← hgroup] at hsame
    exact hsame.trans h.inside

/-- What the last round of a session has done to it. -/
structure Ended (i : Nat) (outcome : ExitOutcome) (w₀ w : World (Os M)) : Prop where
  others : Others i w₀.os w.os
  finished : w.session.finished = some outcome
  gone : outcome ≠ .running
  checkpoints : w.session.checkpoints = w₀.session.checkpoints
  bound : Bound w₀.session w.session

/-- How the twins leave a round: both go on, as `T`, or both are over. -/
inductive Followed (laws : ForkLaws M) (T : World (Os M) → World (Os M) → Prop) (i : Nat)
    (w₀ : World (Os M)) :
    Option ExitOutcome → Option ExitOutcome → World (Os M) → World (Os M) → Prop where
  | again {w u : World (Os M)} (twin : T w u) (moved : Moved laws i w₀ w) :
      Followed laws T i w₀ none none w u
  | leave {outcome : ExitOutcome} {w u : World (Os M)}
      (view : SameView w.session u.session) (ended : Ended i outcome w₀ w) :
      Followed laws T i w₀ (some outcome) (some outcome) w u

/-- A stop after which the tracee is alive leaves the twins in the round. -/
theorem Solo.resumed {img : Image M} {sig : Option Signal} (h : Solo w₀ K i j q w u)
    (hl : w.os.At w₀.session.pid i 0 img) (hr : u.os.At q j 0 img)
    (hexit : (img.resume 0 sig).1.isExit = false) (hK : K' ((img.resume 0 sig).2.collect 0)) :
    Solo w₀ K' i j q ⟨w.session, w.os.resumed w₀.session.pid i 0 img sig⟩
      ⟨u.session, u.os.resumed q j 0 img sig⟩ :=
  TwinAt.resumed h hl hr hexit hK

variable {T : World (Os M) → World (Os M) → Prop}

/-- Both tracees have ended. -/
theorem finish_sim {outcome : ExitOutcome} (hgone : outcome ≠ .running) :
    Sim (fun w u => SameView w.session u.session ∧ Steady w₀.session w.session ∧
        Others i w₀.os w.os)
      (finish outcome : Method (Os M) (Option ExitOutcome)) (finish outcome)
      (Followed laws T i w₀) (Failed i w₀) := by
  refine Sim.bind (S := fun _ _ w u => SameView w.session u.session ∧ Ended i outcome w₀ w)
    (Sim.update ?_) fun _ _ => Sim.pure fun w u h => .leave h.1 h.2
  rintro w u ⟨hview, hsteady, hothers⟩
  exact ⟨{ hview with finished := rfl },
    { others := hothers
      finished := rfl
      gone := hgone
      checkpoints := hsteady.checkpoints
      bound := { hsteady.toBound with } }⟩

/-- The syscall stop of a round, and the check for a due checkpoint. -/
def syscallStop : Method (Os M) (Option ExitOutcome) := do
  onSyscallStop arch
  maybeCheckpoint arch
  pure none

/-- A round of twins, of whose tracee `K` and of whose sessions `P` is known; `K'` says what
a syscall stop makes of the tracee. They end in the same way, or go on as `T` says. -/
theorem round_sim {P P' : ReplaySession → Prop} (hK : ∀ img, K img → Ready img)
    (hsignal : ∀ s, P s → P { s with resumeSignal := none })
    (hlive : ∀ img sig, K img → (img.resume 0 sig).1 ≠ .syscall →
      (img.resume 0 sig).1.isExit = false → K ((img.resume 0 sig).2.collect 0))
    (hstop : ∀ img sig, K img → (img.resume 0 sig).1 = .syscall →
      K' ((img.resume 0 sig).2.collect 0))
    (hsyscall : Sim (fun w u => P w.session ∧ Solo w₀ K' i j q w u) syscallStop syscallStop
      (Followed laws T i w₀) (Failed i w₀))
    (hstopped : ∀ p sig, Spec (On P) (onStopped arch p sig : Method (Os M) Unit)
      (fun _ => On P') fun _ _ => True)
    (hP : ∀ s, P s → P' s) (hT : ∀ w u, P' w.session → Solo w₀ K i j q w u → T w u) :
    Sim (fun w u => P w.session ∧ Solo w₀ K i j q w u) (driveRound arch none)
      (driveRound arch none) (Followed laws T i w₀) (Failed i w₀) := by
  have hupdate : ViewUpdate fun s => { s with resumeSignal := none } :=
    { view := fun _ _ h => { h with resumeSignal := rfl }
      steady := fun s => { Steady.refl s with } }
  have hagain (w u : World (Os M)) (h : P' w.session ∧ Solo w₀ K i j q w u) :
      Followed laws T i w₀ none none w u := .again (hT w u h.1 h.2) (Moved.ofSolo h.2)
  have hquiet : Spec (fun w : World (Os M) => P w.session)
      (modifySelf fun s => { s with resumeSignal := none }) (fun _ w => P w.session)
      (fun _ w => P w.session) := modifySelf_keeps hsignal
  apply viewOf_sim
  intro s s' hs hview hpid' hpid
  rw [hpid', hpid, ← hview.resumeSignal]
  simp only [reached, Bool.false_eq_true, if_false]
  refine Sim.bind ((modifyView_sim hupdate).also hquiet) fun _ _ => ?_
  rintro w u ⟨hp, htwin, hseat, hothers, hsessions⟩
  -- what is known of the first session is still known when the tracee has stopped
  let X (s s' : ReplaySession) : Prop := (Steady w₀.session s ∧ s'.pid = q) ∧ P s
  have hsolo (w u : World (Os M)) (h : TwinAt w₀.os K i j 0 w₀.session.pid q X w u) :
      P w.session ∧ Solo w₀ K i j q w u :=
    ⟨h.sessions.2, h.twin, h.seat, h.others, h.sessions.1⟩
  refine resume_sim (X := X) (fun _ w u h => solo_kept hK w u (hsolo w u h).2)
    (fun w u img h hk _ hl hr => ?_) w u ⟨htwin, hseat, hothers, hsessions, hp⟩
  rcases hsolo w u h with ⟨hp, hround⟩
  have halive {K' : Image M → Prop} (hexit : (img.resume 0 s.resumeSignal).1.isExit = false)
      (hK' : K' ((img.resume 0 s.resumeSignal).2.collect 0)) :=
    Solo.resumed hround hl hr hexit hK'
  have hover {outcome : ExitOutcome} (hgone : outcome ≠ .running) :
      Sim (fun w' u' => w' = (⟨w.session, w.os.resumed w₀.session.pid i 0 img s.resumeSignal⟩ :
            World (Os M)) ∧
          u' = (⟨u.session, u.os.resumed q j 0 img s.resumeSignal⟩ : World (Os M)))
        (finish outcome : Method (Os M) (Option ExitOutcome)) (finish outcome)
        (Followed laws T i w₀) (Failed i w₀) := by
    refine (finish_sim hgone).pre ?_
    rintro _ _ ⟨rfl, rfl⟩
    exact ⟨hround.twin.view, hround.sessions.1, hround.others.trans (Others.resumed hl)⟩
  -- the same stop on both sides decides the branch
  cases hcase : (img.resume 0 s.resumeSignal).1 with
  | syscall =>
    refine hsyscall.pre ?_
    rintro _ _ ⟨rfl, rfl⟩
    exact ⟨hp, halive (by rw [hcase]; rfl) (hstop img _ hk hcase)⟩
  | signal sig =>
    refine (Sim.bind ((onStopped_sim hK sig).also (hstopped _ sig)) fun _ _ =>
      Sim.pure hagain).pre ?_
    rintro _ _ ⟨rfl, rfl⟩
    exact ⟨hp, halive (by rw [hcase]; rfl) (hlive img _ hk (by simp [hcase]) (by rw [hcase]; rfl))⟩
  | event code =>
    refine (Sim.pure hagain).pre ?_
    rintro _ _ ⟨rfl, rfl⟩
    exact ⟨hP _ hp,
      halive (by rw [hcase]; rfl) (hlive img _ hk (by simp [hcase]) (by rw [hcase]; rfl))⟩
  | exited code => exact hover (by simp)
  | signaled sig core => exact hover (by simp)

/-- A round of twins: they stay twins, or both end in the same way. -/
theorem driveRound_sim (laws : ForkLaws M) :
    Sim (fun w u => Solo w₀ (Stance laws w.session.pending.isSome) i j q w u)
      (driveRound arch none) (driveRound arch none) (Followed laws (Coupled laws i j) i w₀)
      (Failed i w₀) := by
  have hrest {R : World (Os M) → World (Os M) → Prop}
      (h : Sim R (onSyscallStop arch) (onSyscallStop arch) (fun _ _ => AtBoundary laws w₀ i j q)
        (Failed i w₀)) :
      Sim R syscallStop syscallStop (Followed laws (Coupled laws i j) i w₀) (Failed i w₀) :=
    Sim.bind h fun _ _ => Sim.bind (maybeCheckpoint_sim laws) fun _ _ =>
      Sim.pure fun _ _ h => .again h.1 h.2
  have hkeeps (b : Bool) (p : Pid) (sig : Signal) :
      Spec (On fun s => s.pending.isSome = b) (onStopped arch p sig : Method (Os M) Unit)
        (fun _ => On fun s => s.pending.isSome = b) fun _ _ => True :=
    ((pending_ignores fun p => p.isSome = b).onStopped arch p sig).answers
  have hcoupled (b : Bool) (w u : World (Os M)) (hb : w.session.pending.isSome = b)
      (h : Solo w₀ (Stance laws b) i j q w u) : Coupled laws i j w u := by
    subst hb
    exact h.twin
  intro w u h
  cases hb : w.session.pending.isSome with
  | true =>
    rw [hb] at h
    exact round_sim (P := fun s => s.pending.isSome = true) (fun _ h => h.toReady) (fun _ h => h)
      (fun _ _ h => h.stays) (fun _ _ h => h.held) (hrest (exitStop_sim laws))
      (hkeeps true) (fun _ h => h) (hcoupled true) w u ⟨hb, h⟩
  | false =>
    rw [hb] at h
    exact round_sim (P := fun s => s.pending.isSome = false) (fun _ h => h.toReady) (fun _ h => h)
      (fun _ _ h => h.stays) (fun _ _ h => h.entered) (hrest (entryStop_sim laws))
      (hkeeps false) (fun _ h => h) (hcoupled false) w u ⟨hb, h⟩

/-- A round of twins that have no record left, wherever their tracee is. -/
theorem spentRound_sim (laws : ForkLaws M) :
    Sim (fun w u => Spent w.session ∧ Solo w₀ Ready i j q w u)
      (driveRound arch none) (driveRound arch none) (Followed laws (Twin Ready i j) i w₀)
      (Failed i w₀) := by
  have hstop (img : Image M) (sig : Option Signal) (h : Ready img)
      (_ : (img.resume 0 sig).1 = .syscall) : Ready ((img.resume 0 sig).2.collect 0) :=
    h.resumed sig
  have hstopped (p : Pid) (sig : Signal) :
      Spec (On Spent) (onStopped arch p sig : Method (Os M) Unit) (fun _ => On fun _ => True)
        fun _ _ => True := Spec.top _
  refine round_sim (fun _ h => h) (fun _ h => h) (fun _ sig h _ _ => h.resumed sig) hstop ?_
    hstopped (fun _ _ => trivial) fun _ _ _ h => h.twin
  exact Sim.bind spentStop_sim fun _ _ _ _ h => h.elim

end Mirrorscope.Replay
