import Mirrorscope.Linux.Machine
import Mirrorscope.Replay.Checkpoint

/-! # Snapshots of a deterministic program

What the kernel's `fork` and `ptrace` promise about the injected `clone`, and
what follows for the snapshot: the parent is left exactly as it was, and the
child is another copy of it under a new pid.
-/

namespace Mirrorscope.Replay

open Linux Run

variable {arch : Arch}

/-- What the kernel promises of syscall stops, and of a `clone` injected at one. A stop
reached from outside a call is the entry of one, a stop reached from inside is its exit;
only at an exit does an injected call give back what was there, for at an entry it would
take the place of the call that is under way. At a boundary, the instruction before the
program counter is the one that enters the kernel. -/
structure ForkLaws (M : Machine arch) where
  /-- The task has entered a call and has not come to the exit of it. -/
  inside : M.Group → Nat → Prop
  /-- The task stands at the exit of a call. -/
  boundary : M.Group → Nat → Prop
  outside : ∀ group task, boundary group task → ¬ inside group task
  start : ∀ cmdline, ¬ inside (M.start cmdline) 0
  entry : ∀ group task sig, ¬ inside group task →
    (M.resume group task setupOptions sig).2 = .syscall →
    inside (M.resume group task setupOptions sig).1 task
  exit : ∀ group task sig, inside group task →
    (M.resume group task setupOptions sig).2 = .syscall →
    boundary (M.resume group task setupOptions sig).1 task
  /-- Any other stop of a live task leaves it inside the call, or outside of one. -/
  other : ∀ group task sig, (M.resume group task setupOptions sig).2 ≠ .syscall →
    (M.resume group task setupOptions sig).2.isExit = false →
    (inside (M.resume group task setupOptions sig).1 task ↔ inside group task)
  /-- A call that is cancelled at its entry still has its exit to come. -/
  suppress : ∀ group task, inside group task →
    inside (M.setRegs group task (Regs.withSuppressed arch (M.regs group task))) task
  setNr : ∀ group task nr, inside group task → inside (M.setNr group task nr) task
  /-- Feeding a result back does not move the program counter or rewrite the code. -/
  write : ∀ group task addr data, boundary group task →
    boundary (M.write group task addr data).2 task
  setReturn : ∀ group task ret, boundary group task →
    boundary (M.setRegs group task (Regs.withReturn arch ret (M.regs group task))) task
  /-- Stepping over the rewound instruction forks; the parent then stops at the exit of
  the call; and but for their registers both are what the parent was. -/
  fork : ∀ group task, boundary group task → ∃ parent event child,
    M.step (M.setRegs group task (Regs.prepareFork arch (M.regs group task))) task setupOptions =
        (parent, .forked event child) ∧
      isForkEvent event = true ∧
      (∃ parent', M.resume parent task setupOptions none = (parent', .syscall) ∧
        M.setRegs parent' task (M.regs group task) = group) ∧
      M.setRegs child task (M.regs group task) = group

variable {M : Machine arch} {w : World (Os M)} {pid : Pid} {i task : Nat} {img : Image M}

/-! ## Calls on a tracee -/

theorem exec_os {α : Type} {call : Call (Os M) Errno α} {a : α} {os' : Os M}
    (h : call w.os = (.ok a, os')) : exec (os call) w = some (.ok a, ⟨w.session, os'⟩) :=
  exec_osOr_ok h

theorem exec_saveFull (h : w.os.At pid i task img) :
    exec (Regs.saveFull arch pid) w = some (.ok (M.regs img.group task), w) := by
  have hcall : Os.getregs pid w.os = (.ok (M.regs img.group task), w.os) := by
    rw [Os.getregs, h.onImage, Os.setImage_self h.image]
  exact exec_os hcall

theorem exec_restoreFull (h : w.os.At pid i task img) (regs : FullRegs arch) :
    exec (Regs.restoreFull arch pid regs) w =
      some (.ok (), ⟨w.session,
        w.os.setImage i { img with group := M.setRegs img.group task regs }⟩) := by
  have hcall : Os.setregs pid regs w.os =
      (.ok (), w.os.setImage i { img with group := M.setRegs img.group task regs }) := by
    rw [Os.setregs, h.onImage]
  exact exec_os hcall

theorem exec_setoptions (h : w.os.At pid i task img) (options : Options) :
    exec (os (Ptrace.setoptions arch pid options)) w =
      some (.ok (), ⟨w.session,
        w.os.setImage i { img with options := Function.update img.options task options }⟩) := by
  have hcall : Os.setoptions pid options w.os =
      (.ok (), w.os.setImage i
        { img with options := Function.update img.options task options }) := by
    rw [Os.setoptions, h.onImage]
  exact exec_os hcall

/-- A stop that is not the end of the task is waited for. -/
theorem exec_waitpid {stop : Stop} (h : w.os.At pid i task img)
    (hstop : img.stops task = some stop) (hexit : stop.isExit = false) (flags : WaitFlags) :
    exec (os (Ptrace.waitpid arch pid flags)) w =
      some (.ok (stop.status pid), ⟨w.session, w.os.setImage i (img.collect task)⟩) := by
  have hcall : Os.waitpid pid flags w.os =
      (.ok (stop.status pid), w.os.setImage i (img.collect task)) := by
    rw [Os.waitpid, h.find]
    simp [hstop, hexit]
  exact exec_os hcall

/-! ## The snapshot -/

/-- The system with a second copy of an image, under the next pid. -/
def forked (os : Os M) (pid : Pid) (task : Nat) (img : Image M) : Os M :=
  { os with
    images := os.images ++ [img]
    procs := os.procs.insert os.nextPid (os.images.length, task)
    messages := os.messages.insert pid os.nextPid
    count := os.count + 1 }

/-- An image that a snapshot can be taken of. -/
structure Held (laws : ForkLaws M) (img : Image M) (task : Nat) : Prop where
  collected : img.stops task = none
  options : img.options task = setupOptions
  boundary : laws.boundary img.group task

/-- A system with a parent and the child forked from it, on the way to a snapshot. -/
def pair (os : Os M) (pid : Pid) (i task : Nat) (parent child : Image M) : Os M :=
  { forked os pid task child with images := os.images.set i parent ++ [child] }

section Pair

variable {os : Os M} {a b : Image M} (h : os.At pid i task img)
include h

theorem pair_parent : (pair os pid i task a b).At pid i task a where
  proc := by
    change (os.procs.insert os.nextPid (os.images.length, task))[pid]? = _
    rw [KeyMap.get_insert, if_neg (Os.nextPid_ne h.proc), h.proc]
  image := by
    have hlt : i < os.images.length := (List.getElem?_eq_some_iff.mp h.image).1
    change (os.images.set i a ++ [b])[i]? = some a
    rw [List.getElem?_append_left (by simpa using hlt)]
    simp [hlt]

omit h in
theorem pair_child : (pair os pid i task a b).At os.nextPid os.images.length task b where
  proc := by
    change (os.procs.insert os.nextPid (os.images.length, task))[os.nextPid]? = _
    rw [KeyMap.get_insert, if_pos rfl]
  image := by simp [pair]

theorem pair_setParent (a' : Image M) :
    (pair os pid i task a b).setImage i a' = pair os pid i task a' b := by
  have hlt : i < os.images.length := (List.getElem?_eq_some_iff.mp h.image).1
  simp [pair, forked, Os.setImage, hlt]

omit h in
theorem pair_setChild (b' : Image M) :
    (pair os pid i task a b).setImage os.images.length b' = pair os pid i task a b' := by
  simp [pair, forked, Os.setImage]

omit h in
theorem pair_setImage (img' : Image M) :
    pair (os.setImage i img') pid i task a b = pair os pid i task a b := by
  simp [pair, forked, Os.setImage, Os.nextPid]

theorem pair_self : pair os pid i task img img = forked os pid task img := by
  rcases List.getElem?_eq_some_iff.mp h.image with ⟨hlt, rfl⟩
  simp [pair, forked]

/-- Stepping over the injected call forks the image. -/
theorem step_forked {parent child : M.Group} {event : EventCode} (hstop : img.stops task = none)
    (hstep : M.step img.group task (img.options task) = (parent, .forked event child)) :
    Os.step pid os =
      (.ok (), pair os pid i task
        { img with
          group := parent, stops := Function.update img.stops task (some (.event event)) }
        { img with
          group := child, stops := Function.update img.stops task (some (.signal .stop)) }) := by
  rw [Os.step, h.find]
  simp [hstop, hstep, pair, forked, Os.register, Os.setImage, Os.nextPid]

end Pair

/-- After the fork the parent is in an event stop and the child in its first one. -/
theorem exec_waitForForkChild {event : EventCode} {a b : Image M} {s : ReplaySession} {os : Os M}
    (h : os.At pid i task img) (hevent : isForkEvent event = true)
    (ha : a.stops task = some (.event event)) :
    exec (waitForForkChild arch pid) ⟨s, pair os pid i task a b⟩ =
      some (.ok os.nextPid, ⟨s, pair os pid i task (a.collect task) b⟩) := by
  have hwait := exec_waitpid (w := ⟨s, pair os pid i task a b⟩) (pair_parent h) ha rfl .none
  rw [waitForForkChild, bind_ok hwait, pair_setParent h]
  simp only [Stop.status, hevent, if_true]
  have hmessage : (pair os pid i task (a.collect task) b).messages[pid]? = some os.nextPid := by
    change (os.messages.insert pid os.nextPid)[pid]? = _
    rw [KeyMap.get_insert, if_pos rfl]
  have hcall : Os.getevent pid (pair os pid i task (a.collect task) b) =
      (.ok os.nextPid, pair os pid i task (a.collect task) b) := by
    rw [Os.getevent, hmessage]
  exact exec_os hcall

theorem exec_reapForkChild {a b : Image M} {s : ReplaySession} {os : Os M}
    (hb : b.stops task = some (.signal .stop)) :
    exec (reapForkChild arch os.nextPid) ⟨s, pair os pid i task a b⟩ =
      some (.ok (), ⟨s, pair os pid i task a (b.collect task)⟩) := by
  have hwait := exec_waitpid (w := ⟨s, pair os pid i task a b⟩) pair_child hb rfl .none
  rw [reapForkChild, bind_ok hwait, pair_setChild]
  rfl

/-- The parent's next stop is the exit of the injected call. -/
theorem exec_reapCloneExit {a b : Image M} {s : ReplaySession} {os : Os M} {group : M.Group}
    (h : os.At pid i task img) (ha : a.stops task = none)
    (hresume : M.resume a.group task (a.options task) none = (group, .syscall)) :
    exec (reapCloneExit arch pid) ⟨s, pair os pid i task a b⟩ =
      some (.ok (), ⟨s, pair os pid i task { a with group } b⟩) := by
  have himg : a.resume task none =
      (.syscall, { a with group, stops := Function.update a.stops task (some .syscall) }) := by
    simp [Image.resume, hresume, Stop.isSpawn]
  rcases Os.syscall_waitpid (pair_parent (a := a) (b := b) h) ha none .none with
    ⟨os', hsyscall, hwait⟩
  have hstops : Function.update (Function.update a.stops task (some .syscall)) task none =
      a.stops := by
    rw [Function.update_idem, ← ha, Function.update_eq_self]
  have hres : (pair os pid i task a b).resumed pid i task a none =
      pair os pid i task { a with group } b := by
    simp only [Os.resumed, himg, Stop.isSpawn, Stop.isExit, Image.collect, hstops]
    exact pair_setParent h _
  rw [himg, hres] at hwait
  rw [reapCloneExit, bind_ok (exec_os hsyscall), bind_ok (exec_os hwait)]
  rfl

/-- A snapshot changes nothing but that there is another copy. -/
theorem exec_forkSnapshot (laws : ForkLaws M) (h : w.os.At pid i task img)
    (hheld : Held laws img task) :
    exec (forkSnapshot arch pid) w =
      some (.ok w.os.nextPid, ⟨w.session, forked w.os pid task img⟩) := by
  rcases laws.fork img.group task hheld.boundary with
    ⟨parent, event, child, hstep, hevent, ⟨parent', hresume, hparent⟩, hchild⟩
  -- the image with the registers of the call, and the two that come of it
  let img₁ : Image M :=
    { img with
      group := M.setRegs img.group task (Regs.prepareFork arch (M.regs img.group task)) }
  let a : Image M :=
    { img with group := parent, stops := Function.update img.stops task (some (.event event)) }
  let b : Image M :=
    { img with group := child, stops := Function.update img.stops task (some (.signal .stop)) }
  have hcollect (group : M.Group) (stop : Stop) :
      Image.collect { img with group, stops := Function.update img.stops task (some stop) } task =
        { img with group } := by
    simp only [Image.collect, Function.update_idem]
    rw [← hheld.collected, Function.update_eq_self]
  have hstep₁ : Os.step pid (w.os.setImage i img₁) = (.ok (), pair w.os pid i task a b) := by
    have hset : (w.os.setImage i img₁).At pid i task img₁ := h.setImage
    have hforked := step_forked hset hheld.collected
      (by rw [show img₁.options task = setupOptions from hheld.options]; exact hstep)
    rwa [pair_setImage] at hforked
  have hoptions : Function.update img.options task setupOptions = img.options := by
    rw [← hheld.options, Function.update_eq_self]
  have hexec : exec (os (Ptrace.step arch pid)) ⟨w.session, w.os.setImage i img₁⟩ =
      some (.ok (), ⟨w.session, pair w.os pid i task a b⟩) := exec_os hstep₁
  refine (bind_ok (exec_saveFull h)).trans ?_
  refine (bind_ok (exec_restoreFull h _)).trans ?_
  refine (bind_ok hexec).trans ?_
  refine (bind_ok (exec_waitForForkChild h hevent (by simp [a]))).trans ?_
  refine (bind_ok (exec_reapForkChild (by simp [b]))).trans ?_
  rw [hcollect, hcollect]
  refine (bind_ok (exec_setoptions pair_child _)).trans ?_
  rw [pair_setChild]
  simp only [hoptions]
  refine (bind_ok (exec_reapCloneExit (a := { img with group := parent }) h hheld.collected
    (by rw [hheld.options]; exact hresume))).trans ?_
  refine (bind_ok (exec_restoreFull (pair_parent h) _)).trans ?_
  rw [pair_setParent h, hparent]
  refine (bind_ok (exec_restoreFull pair_child _)).trans ?_
  rw [pair_setChild, hchild]
  rw [← pair_self h]
  rfl

end Mirrorscope.Replay
