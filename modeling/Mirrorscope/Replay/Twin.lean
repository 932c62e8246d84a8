import Mirrorscope.Lib.Sim
import Mirrorscope.Replay.Session
import Mirrorscope.Replay.Snapshot

/-! # Sessions in the same state

Two sessions on the same trace are twins when they agree on everything but the
names of their processes: position, pending syscalls, queued signals and
registers, the state of the tracee, and for every recorded tid the thread it is
bound to. A drive on one is then followed step by step by a drive on the other.
-/

namespace Mirrorscope.Replay

open Capture Linux Run
open Trace (Record)

variable {arch : Arch} {M : Machine arch}

instance : Unwind (Os M) where
  forPid _ os := (.ok (), os)
  registers _ os := (.ok 0, os)
  backtrace _ _ os := (.ok [], os)

/-! ## The relation -/

/-- What two sessions show of their position. -/
structure SameView (s s' : ReplaySession) : Prop where
  records : s.records = s'.records
  multithreaded : s.multithreaded = s'.multithreaded
  cursor : s.cursor = s'.cursor
  currentSeq : s.currentSeq = s'.currentSeq
  pending : s.pending = s'.pending
  resumeSignal : s.resumeSignal = s'.resumeSignal
  lastRegs : s.lastRegs = s'.lastRegs
  finished : s.finished = s'.finished

/-- Two pids that name task `task` of image `i` here and of image `j` there. -/
def Seat (i j task : Nat) (os os' : Os M) (p q : Pid) : Prop :=
  os.procs[p]? = some (i, task) ∧ os'.procs[q]? = some (j, task)

/-- Two live threads with the same task and the same bookkeeping. -/
structure ThreadTwin (i j : Nat) (os os' : Os M) (mt mt' : MtState) (p q : Pid) : Prop where
  seat : ∃ task, Seat i j task os os' p q
  bookkeeping : mt.threads[p]? = mt'.threads[q]?
  leader : p = mt.leader ↔ q = mt'.leader

/-- Thread states that agree on every recorded tid. -/
structure ThreadsTwin (i j : Nat) (os os' : Os M) (mt mt' : MtState) : Prop where
  expected : mt.expectedTid = mt'.expectedTid
  leader : ThreadTwin i j os os' mt mt' mt.leader mt'.leader
  unbound : ∀ r, mt.tidmap.liveOf r = none ↔ mt'.tidmap.liveOf r = none
  bound : ∀ r p q, mt.tidmap.liveOf r = some p → mt'.tidmap.liveOf r = some q →
    ThreadTwin i j os os' mt mt' p q

/-- The same, where there may be no thread state yet. -/
inductive OptThreadsTwin (i j : Nat) (os os' : Os M) : Option MtState → Option MtState → Prop where
  | none : OptThreadsTwin i j os os' none none
  | some {mt mt' : MtState} (h : ThreadsTwin i j os os' mt mt') :
      OptThreadsTwin i j os os' (some mt) (some mt')

/-- No stop of the program is a watchpoint hit: it never touches a watched location. -/
def Quiet (M : Machine arch) : Prop :=
  ∀ group task, M.siCode group task ≠ WatchHw.trapHwbkpt

/-- The session sees no watchpoint hit. -/
def Unwatched (M : Machine arch) (s : ReplaySession) : Prop := s.watchpoint = none ∨ Quiet M

/-- Sessions in the same state, their tracees being images `i` and `j`, one and the
same image with `K`. -/
structure Twin (K : Image M → Prop) (i j : Nat) (w u : World (Os M)) : Prop where
  view : SameView w.session u.session
  unwatched : Unwatched M w.session ∧ Unwatched M u.session
  image : ∃ img, K img ∧ w.os.images[i]? = some img ∧ u.os.images[j]? = some img
  leader : Seat i j 0 w.os u.os w.session.pid u.session.pid
  threads : OptThreadsTwin i j w.os u.os w.session.mt u.session.mt

variable {K K' : Image M → Prop} {i j task : Nat} {w u : World (Os M)} {p q : Pid} {base : Os M}

/-- Every pid still names what it named. -/
def KeepsPids (os os₁ : Os M) : Prop :=
  ∀ (x : Pid) (v : Nat × Nat), os.procs[x]? = some v → os₁.procs[x]? = some v

/-- Every image but `i` is as it was, and under the same pids. -/
structure Others (i : Nat) (os os₁ : Os M) : Prop where
  images : ∀ (k : Nat) (img : Image M), k ≠ i → os.images[k]? = some img →
    os₁.images[k]? = some img
  procs : ∀ (x : Pid) (k task : Nat), k ≠ i → os.procs[x]? = some (k, task) →
    os₁.procs[x]? = some (k, task)

theorem Others.refl (i : Nat) (os : Os M) : Others i os os where
  images _ _ _ h := h
  procs _ _ _ _ h := h

theorem Others.trans {os os₁ os₂ : Os M} (h : Others i os os₁) (h' : Others i os₁ os₂) :
    Others i os os₂ where
  images k img hk himg := h'.images k img hk (h.images k img hk himg)
  procs x k task hk hx := h'.procs x k task hk (h.procs x k task hk hx)

theorem Others.setImage (os : Os M) (i : Nat) (img : Image M) : Others i os (os.setImage i img) where
  images k img' hk himg := by
    change (os.images.set i img)[k]? = some img'
    rw [List.getElem?_set_ne (Ne.symm hk), himg]
  procs _ _ _ _ h := h

theorem Others.resumed {sig : Option Signal} {img : Image M} {os : Os M}
    (h : os.At p i task img) : Others i os (os.resumed p i task img sig) where
  images k img' hk himg := by
    rw [Os.images_resumed h, if_neg (Ne.symm hk), himg]
  procs x k task' hk hx := by
    rw [Os.procs_resumed, if_neg, if_neg, hx]
    · rintro ⟨-, rfl⟩
      rw [h.proc] at hx
      exact hk (Prod.mk.inj (Option.some.inj hx)).1.symm
    · rintro ⟨-, heq⟩
      exact Os.nextPid_ne hx heq

theorem Seat.keeps {os os' os₁ os₁' : Os M} (h : Seat i j task os os' p q)
    (hl : KeepsPids os os₁) (hr : KeepsPids os' os₁') : Seat i j task os₁ os₁' p q :=
  ⟨hl p _ h.1, hr q _ h.2⟩

theorem ThreadTwin.keeps {os os' os₁ os₁' : Os M} {mt mt' : MtState}
    (h : ThreadTwin i j os os' mt mt' p q) (hl : KeepsPids os os₁) (hr : KeepsPids os' os₁') :
    ThreadTwin i j os₁ os₁' mt mt' p q where
  seat := h.seat.imp fun _ hseat => hseat.keeps hl hr
  bookkeeping := h.bookkeeping
  leader := h.leader

theorem ThreadsTwin.keeps {os os' os₁ os₁' : Os M} {mt mt' : MtState}
    (h : ThreadsTwin i j os os' mt mt') (hl : KeepsPids os os₁) (hr : KeepsPids os' os₁') :
    ThreadsTwin i j os₁ os₁' mt mt' where
  expected := h.expected
  leader := h.leader.keeps hl hr
  unbound := h.unbound
  bound r p q hp hq := (h.bound r p q hp hq).keeps hl hr

theorem OptThreadsTwin.keeps {os os' os₁ os₁' : Os M} {mt mt' : Option MtState}
    (h : OptThreadsTwin i j os os' mt mt') (hl : KeepsPids os os₁) (hr : KeepsPids os' os₁') :
    OptThreadsTwin i j os₁ os₁' mt mt' := by
  cases h with
  | none => exact .none
  | some h => exact .some (h.keeps hl hr)

/-- Twins stay twins when both systems change the image in the same way and keep their pids. -/
theorem Twin.withOs {os os' : Os M} {img : Image M} (h : Twin K i j w u) (hK : K' img)
    (hl : KeepsPids w.os os) (hr : KeepsPids u.os os') (hi : os.images[i]? = some img)
    (hj : os'.images[j]? = some img) : Twin K' i j ⟨w.session, os⟩ ⟨u.session, os'⟩ where
  view := h.view
  unwatched := h.unwatched
  image := ⟨img, hK, hi, hj⟩
  leader := h.leader.keeps hl hr
  threads := h.threads.keeps hl hr

/-- Twins stay twins when both sessions change their view in the same way. -/
theorem Twin.withView {s s' : ReplaySession} (h : Twin K i j w u) (hview : SameView s s')
    (hpid : s.pid = w.session.pid ∧ s'.pid = u.session.pid)
    (hwatch : s.watchpoint = w.session.watchpoint ∧ s'.watchpoint = u.session.watchpoint)
    (hmt : s.mt = w.session.mt ∧ s'.mt = u.session.mt) :
    Twin K i j ⟨s, w.os⟩ ⟨s', u.os⟩ where
  view := hview
  unwatched := by
    unfold Unwatched
    rw [hwatch.1, hwatch.2]
    exact h.unwatched
  image := h.image
  leader := by
    change Seat i j 0 w.os u.os s.pid s'.pid
    rw [hpid.1, hpid.2]
    exact h.leader
  threads := by
    change OptThreadsTwin i j w.os u.os s.mt s'.mt
    rw [hmt.1, hmt.2]
    exact h.threads

theorem Twin.mono (h : Twin K i j w u) (hK : ∀ img, K img → K' img) : Twin K' i j w u := by
  rcases h.image with ⟨img, hk, hi, hj⟩
  exact { h with image := ⟨img, hK img hk, hi, hj⟩ }

theorem SameView.refl (s : ReplaySession) : SameView s s := by
  constructor <;> rfl

theorem SameView.symm {s s' : ReplaySession} (h : SameView s s') : SameView s' s where
  records := h.records.symm
  multithreaded := h.multithreaded.symm
  cursor := h.cursor.symm
  currentSeq := h.currentSeq.symm
  pending := h.pending.symm
  resumeSignal := h.resumeSignal.symm
  lastRegs := h.lastRegs.symm
  finished := h.finished.symm

theorem ThreadTwin.symm {os os' : Os M} {mt mt' : MtState}
    (h : ThreadTwin i j os os' mt mt' p q) : ThreadTwin j i os' os mt' mt q p where
  seat := h.seat.imp fun _ hseat => ⟨hseat.2, hseat.1⟩
  bookkeeping := h.bookkeeping.symm
  leader := h.leader.symm

theorem OptThreadsTwin.symm {os os' : Os M} {mt mt' : Option MtState}
    (h : OptThreadsTwin i j os os' mt mt') : OptThreadsTwin j i os' os mt' mt := by
  cases h with
  | none => exact .none
  | some h =>
    exact .some
      { expected := h.expected.symm
        leader := h.leader.symm
        unbound := fun r => (h.unbound r).symm
        bound := fun r p q hp hq => (h.bound r q p hq hp).symm }

theorem Twin.symm (h : Twin K i j w u) : Twin K j i u w where
  view := h.view.symm
  unwatched := ⟨h.unwatched.2, h.unwatched.1⟩
  image := by
    rcases h.image with ⟨img, hk, hi, hj⟩
    exact ⟨img, hk, hj, hi⟩
  leader := ⟨h.leader.2, h.leader.1⟩
  threads := h.threads.symm

/-! ## Access to the tracee

The calls between two waits act on one image, and leave alone what else there
was in the first system, `base`, and what else is known of the two sessions, `X`.
-/

/-- Twins, and pids of the same task. -/
structure TwinAt (base : Os M) (K : Image M → Prop) (i j task : Nat) (p q : Pid)
    (X : ReplaySession → ReplaySession → Prop) (w u : World (Os M)) : Prop where
  twin : Twin K i j w u
  seat : Seat i j task w.os u.os p q
  others : Others i base w.os
  sessions : X w.session u.session

theorem TwinAt.mono {X : ReplaySession → ReplaySession → Prop}
    (h : TwinAt base K i j task p q X w u) (hK : ∀ img, K img → K' img) :
    TwinAt base K' i j task p q X w u :=
  { h with twin := h.twin.mono hK }

variable {X : ReplaySession → ReplaySession → Prop} {α : Type}
  {E : ReplayError → World (Os M) → Prop}

/-- The same call on the same image. -/
theorem onImage_sim {err : Errno → ReplayError}
    {f : Image M → Nat → Except Errno α × Image M} (hK : ∀ img, K img → K' (f img task).2)
    (hE : ∀ e w u, TwinAt base K' i j task p q X w u → E e w) :
    Sim (TwinAt base K i j task p q X) (osOr err (Os.onImage p f)) (osOr err (Os.onImage q f))
      (fun a b w u => a = b ∧ TwinAt base K' i j task p q X w u) E := by
  rintro w u ⟨htwin, ⟨hp, hq⟩, hothers, hx⟩ r w' hexec
  rcases htwin.image with ⟨img, hk, hi, hj⟩
  have hl : w.os.At p i task img := ⟨hp, hi⟩
  have hr : u.os.At q j task img := ⟨hq, hj⟩
  rcases hf : f img task with ⟨answer, img'⟩
  have hk' : K' img' := by
    have := hK img hk
    rwa [hf] at this
  have hcall : Os.onImage p f w.os = (answer, w.os.setImage i img') := by rw [hl.onImage, hf]
  have hcall' : Os.onImage q f u.os = (answer, u.os.setImage j img') := by rw [hr.onImage, hf]
  have hpost : TwinAt base K' i j task p q X ⟨w.session, w.os.setImage i img'⟩
      ⟨u.session, u.os.setImage j img'⟩ :=
    { twin := htwin.withOs hk' (fun _ _ h => h) (fun _ _ h => h) hl.setImage.image
        hr.setImage.image
      seat := ⟨hp, hq⟩
      others := hothers.trans (Others.setImage w.os i img')
      sessions := hx }
  cases answer with
  | error e =>
    rw [exec_osOr_error hcall] at hexec
    rcases Prod.mk.inj (Option.some.inj hexec) with ⟨rfl, rfl⟩
    exact hE _ _ _ hpost
  | ok b =>
    rw [exec_osOr_ok hcall] at hexec
    rcases Prod.mk.inj (Option.some.inj hexec) with ⟨rfl, rfl⟩
    exact ⟨_, _, exec_osOr_ok hcall', rfl, hpost⟩

/-- A condition on images that feeding a result back to a task keeps. -/
structure AccessLaws (K : Image M → Prop) (task : Nat) : Prop where
  setReturn : ∀ img ret, K img → K { img with
    group := M.setRegs img.group task (Regs.withReturn arch ret (M.regs img.group task)) }
  write : ∀ img addr data, K img → K { img with group := (M.write img.group task addr data).2 }

/-- Conditions on an image before and after a call of a task is cancelled at its entry. -/
structure CancelLaws (K K' : Image M → Prop) (task : Nat) : Prop where
  regs : ∀ img, K img → K' { img with
    group := M.setRegs img.group task (Regs.withSuppressed arch (M.regs img.group task)) }
  nr : ∀ img, K img → K' { img with group := M.setNr img.group task (-1) }

section Access

variable (hE : ∀ e w u, TwinAt base K i j task p q X w u → E e w)
include hE

theorem saveFull_sim :
    Sim (TwinAt base K i j task p q X) (Regs.saveFull arch p) (Regs.saveFull arch q)
      (fun a b w u => a = b ∧ TwinAt base K i j task p q X w u) E :=
  onImage_sim (f := fun img task => (.ok (M.regs img.group task), img)) (fun _ hk => hk) hE

theorem read_sim :
    Sim (TwinAt base K i j task p q X) (Regs.read arch p) (Regs.read arch q)
      (fun a b w u => a = b ∧ TwinAt base K i j task p q X w u) E := by
  refine Sim.bind (saveFull_sim hE) fun a b => Sim.assume fun hab => ?_
  subst hab
  exact Sim.pure fun _ _ h => ⟨rfl, h⟩

omit hE in
/-- Setting the registers to a function of what they are. -/
theorem modifyRegs_sim {f : FullRegs arch → FullRegs arch}
    (hK : ∀ img, K img →
      K' { img with group := M.setRegs img.group task (f (M.regs img.group task)) }) :
    Sim (TwinAt base K i j task p q X)
      (do
        let regs ← Regs.saveFull arch p
        Regs.restoreFull arch p (f regs))
      (do
        let regs ← Regs.saveFull arch q
        Regs.restoreFull arch q (f regs))
      (fun _ _ => TwinAt base K' i j task p q X) E := by
  rintro w u ⟨htwin, ⟨hp, hq⟩, hothers, hx⟩ r w' hexec
  rcases htwin.image with ⟨img, hk, hi, hj⟩
  have hl : w.os.At p i task img := ⟨hp, hi⟩
  have hr : u.os.At q j task img := ⟨hq, hj⟩
  rw [bind_ok (exec_saveFull hl), exec_restoreFull hl] at hexec
  rcases Prod.mk.inj (Option.some.inj hexec) with ⟨rfl, rfl⟩
  refine ⟨(), _, (bind_ok (exec_saveFull hr)).trans (exec_restoreFull hr _), ?_, ⟨hp, hq⟩,
    hothers.trans (Others.setImage _ _ _), hx⟩
  exact htwin.withOs (hK img hk) (fun _ _ h => h) (fun _ _ h => h) hl.setImage.image
    hr.setImage.image

omit hE in
theorem setReturn_sim (hK : AccessLaws K task) (ret : Int64) :
    Sim (TwinAt base K i j task p q X) (Regs.setReturn arch p ret) (Regs.setReturn arch q ret)
      (fun _ _ => TwinAt base K i j task p q X) E :=
  modifyRegs_sim fun img hk => hK.setReturn img ret hk

omit hE in
theorem suppressSyscall_sim (hK : CancelLaws K K' task)
    (hE : ∀ e w u, TwinAt base K' i j task p q X w u → E e w) :
    Sim (TwinAt base K i j task p q X) (Regs.suppressSyscall arch p)
      (Regs.suppressSyscall arch q) (fun _ _ => TwinAt base K' i j task p q X) E := by
  cases arch with
  | x86_64 => exact modifyRegs_sim hK.regs
  | aarch64 =>
    have hcall : Sim (TwinAt base K i j task p q X) (Regs.suppressSyscall .aarch64 p)
        (Regs.suppressSyscall .aarch64 q)
        (fun a b w u => a = b ∧ TwinAt base K' i j task p q X w u) E :=
      onImage_sim (f := fun img task =>
        (.ok (), { img with group := M.setNr img.group task (-1) })) hK.nr hE
    exact hcall.post fun _ _ _ _ h => h.2

theorem writeMemory_sim (hK : AccessLaws K task) (addr : UInt64) (data : Bytes) :
    Sim (TwinAt base K i j task p q X) (writeMemory arch p addr data)
      (writeMemory arch q addr data) (fun _ _ => TwinAt base K i j task p q X) E := by
  unfold writeMemory
  split
  · exact Sim.pure fun _ _ h => h
  · refine Sim.bind (onImage_sim (f := fun img task =>
      ((M.write img.group task addr data).1,
        { img with group := (M.write img.group task addr data).2 }))
          (fun img hk => hK.write img addr data hk) hE) fun a b => Sim.assume fun hab => ?_
    subst hab
    split
    · exact Sim.fail fun w u h => hE _ w u h
    · exact Sim.pure fun _ _ h => h

end Access

/-! ## Waiting for the next stop -/

/-- A task that is resumed here and there stops in the same way. -/
theorem resume_sim {β : Type} {sig : Option Signal} {flags : WaitFlags}
    {f f' : WaitStatus → Method (Os M) β} {T : β → β → World (Os M) → World (Os M) → Prop}
    (hE : ∀ e w u, TwinAt base K i j task p q X w u → E e w)
    (hf : ∀ w u img, TwinAt base K i j task p q X w u → K img → img.stops task = none →
      w.os.At p i task img → u.os.At q j task img →
      Sim (fun w' u' => w' = ⟨w.session, w.os.resumed p i task img sig⟩ ∧
          u' = ⟨u.session, u.os.resumed q j task img sig⟩)
        (f ((img.resume task sig).1.status p)) (f' ((img.resume task sig).1.status q)) T E) :
    Sim (TwinAt base K i j task p q X)
      (do
        os (Ptrace.syscall arch p sig)
        let status ← os (Ptrace.waitpid arch p flags)
        f status)
      (do
        os (Ptrace.syscall arch q sig)
        let status ← os (Ptrace.waitpid arch q flags)
        f' status) T E := by
  intro w u h r w' hexec
  rcases h.twin.image with ⟨img, hk, hi, hj⟩
  have hl : w.os.At p i task img := ⟨h.seat.1, hi⟩
  have hr : u.os.At q j task img := ⟨h.seat.2, hj⟩
  cases hstop : img.stops task with
  | some stop =>
    -- its last stop was not waited for, so it cannot be resumed
    have herror : exec (os (Ptrace.syscall arch p sig)) w = some (.error _, w) :=
      exec_osOr_error (Os.syscall_error hl (by rw [hstop]; rfl) sig)
    rw [bind_error herror] at hexec
    rcases Prod.mk.inj (Option.some.inj hexec) with ⟨rfl, rfl⟩
    exact hE _ w u h
  | none =>
    rcases Os.syscall_waitpid hl hstop sig flags with ⟨os₁, hs₁, hw₁⟩
    rcases Os.syscall_waitpid hr hstop sig flags with ⟨os₂, hs₂, hw₂⟩
    have hs₁' : exec (os (Ptrace.syscall arch p sig)) w = some (.ok (), ⟨w.session, os₁⟩) :=
      exec_os hs₁
    have hw₁' : exec (os (Ptrace.waitpid arch p flags)) ⟨w.session, os₁⟩ =
        some (.ok ((img.resume task sig).1.status p),
          ⟨w.session, w.os.resumed p i task img sig⟩) := exec_os hw₁
    have hs₂' : exec (os (Ptrace.syscall arch q sig)) u = some (.ok (), ⟨u.session, os₂⟩) :=
      exec_os hs₂
    have hw₂' : exec (os (Ptrace.waitpid arch q flags)) ⟨u.session, os₂⟩ =
        some (.ok ((img.resume task sig).1.status q),
          ⟨u.session, u.os.resumed q j task img sig⟩) := exec_os hw₂
    rw [bind_ok hs₁', bind_ok hw₁'] at hexec
    rw [bind_ok hs₂', bind_ok hw₂']
    exact hf w u img h hk hstop hl hr _ _ ⟨rfl, rfl⟩ r w' hexec

/-- Twins are twins again after a stop that leaves the task alive. -/
theorem Twin.resumed {sig : Option Signal} {img : Image M} (h : Twin K i j w u)
    (hl : w.os.At p i task img) (hr : u.os.At q j task img)
    (hexit : (img.resume task sig).1.isExit = false)
    (hK : K' ((img.resume task sig).2.collect task)) :
    Twin K' i j ⟨w.session, w.os.resumed p i task img sig⟩
      ⟨u.session, u.os.resumed q j task img sig⟩ := by
  refine h.withOs hK (fun x v => Os.procs_resumed_of_some hexit)
    (fun x v => Os.procs_resumed_of_some hexit) ?_ ?_
  · rw [Os.images_resumed hl, if_pos rfl]
  · rw [Os.images_resumed hr, if_pos rfl]

theorem TwinAt.resumed {sig : Option Signal} {img : Image M}
    (h : TwinAt base K i j task p q X w u) (hl : w.os.At p i task img)
    (hr : u.os.At q j task img) (hexit : (img.resume task sig).1.isExit = false)
    (hK : K' ((img.resume task sig).2.collect task)) :
    TwinAt base K' i j task p q X ⟨w.session, w.os.resumed p i task img sig⟩
      ⟨u.session, u.os.resumed q j task img sig⟩ where
  twin := h.twin.resumed hl hr hexit hK
  seat := ⟨Os.procs_resumed_of_some hexit hl.proc, Os.procs_resumed_of_some hexit hr.proc⟩
  others := h.others.trans (Others.resumed hl)
  sessions := h.sessions

end Mirrorscope.Replay
