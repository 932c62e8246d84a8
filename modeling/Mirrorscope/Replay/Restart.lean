import Mirrorscope.Replay.Follow
import Mirrorscope.Replay.Straight

/-! # Going back

A session goes back by forking a snapshot or by spawning the target again. What
comes of it is a session in the state in which the snapshot was taken, or in the
state in which a session is launched; nothing else in the system changes but that
the old tracee is gone.
-/

namespace Mirrorscope.Replay

open Capture Linux Run
open Trace (Cmdline Record)

variable {arch : Arch} {M : Machine arch} {i j : Nat} {w w' : World (Os M)} {laws : ForkLaws M}

/-! ## A new process -/

/-- The image of a target that has been spawned and is ready to be driven. -/
def entryImage (M : Machine arch) (cmdline : Cmdline) : Image M :=
  { (Image.spawned M cmdline).collect 0 with
    options := Function.update (fun _ => {}) 0 setupOptions }

theorem entryImage_ready (M : Machine arch) (cmdline : Cmdline) : Ready (entryImage M cmdline) where
  collected := by simp [entryImage, Image.collect]
  options := by simp [entryImage]

/-- A target that was spawned has entered no call. -/
theorem entryImage_stance (laws : ForkLaws M) (cmdline : Cmdline) :
    Stance laws false (entryImage M cmdline) where
  toReady := entryImage_ready M cmdline
  inside := by
    have hout := laws.start cmdline
    simpa [entryImage, Image.collect, Image.spawned] using hout

/-- The system with one more image, under the next pid. -/
def entered (os : Os M) (img : Image M) : Os M :=
  { os with
    images := os.images ++ [img]
    procs := os.procs.insert os.nextPid (os.images.length, 0)
    count := os.count + 1 }

theorem entered_at (os : Os M) (img : Image M) :
    (entered os img).At os.nextPid os.images.length 0 img where
  proc := by
    show (os.procs.insert os.nextPid (os.images.length, 0))[os.nextPid]? = _
    rw [KeyMap.get_insert, if_pos rfl]
  image := by simp [entered]

theorem entered_setImage (os : Os M) (img img' : Image M) :
    (entered os img).setImage os.images.length img' = entered os img' := by
  simp [entered, Os.setImage]

theorem keepsPids_entered (os : Os M) (img : Image M) : KeepsPids os (entered os img) := by
  intro x v hx
  show (os.procs.insert os.nextPid (os.images.length, 0))[x]? = some v
  rw [KeyMap.get_insert, if_neg (Os.nextPid_ne hx), hx]

theorem others_entered (os : Os M) (img : Image M) : Others i os (entered os img) where
  images k img' _ h := by
    have hlt : k < os.images.length := (List.getElem?_eq_some_iff.mp h).1
    show (os.images ++ [img])[k]? = some img'
    rw [List.getElem?_append_left hlt, h]
  procs x _ _ _ h := keepsPids_entered os img x _ h

/-- The target is spawned and taken through its first stop. -/
theorem exec_spawnStopped (w : World (Os M)) (cmdline : Cmdline) :
    exec (spawnStopped arch cmdline) w =
      some (.ok w.os.nextPid, ⟨w.session, entered w.os (entryImage M cmdline)⟩) := by
  let img := Image.spawned M cmdline
  have hspawn : exec (osOr .spawn (Ptrace.spawnTraced arch cmdline)) w =
      some (.ok w.os.nextPid, ⟨w.session, entered w.os img⟩) := exec_osOr_ok rfl
  have hwait := exec_waitpid (w := ⟨w.session, entered w.os img⟩) (entered_at w.os img)
    (show img.stops 0 = some (.signal .trap) by simp [img, Image.spawned]) rfl .none
  unfold spawnStopped
  rw [bind_ok hspawn, bind_ok hwait, entered_setImage]
  rw [bind_ok (exec_setoptions (entered_at w.os (img.collect 0)) setupOptions), entered_setImage]
  rfl

/-! ## The old process -/

/-- The active tracee is gone, and nothing else has changed. -/
theorem exec_killActive (hlive : w.session.finished = none →
    ∃ img : Image M, w.os.At w.session.pid i 0 img) :
    ∃ os', exec (killActive arch) w = some (.ok (), ⟨w.session, os'⟩) ∧ Others i w.os os' ∧
      os'.images.length = w.os.images.length ∧
      (w.session.finished ≠ none → os' = w.os) := by
  unfold killActive
  rw [bind_ok (exec_self w)]
  cases hfinished : w.session.finished with
  | some outcome => exact ⟨w.os, rfl, Others.refl i w.os, rfl, fun _ => rfl⟩
  | none =>
    rcases hlive hfinished with ⟨img, hat⟩
    let dead : Image M :=
      { img with stops := Function.update img.stops 0 (some (.signaled .kill false)) }
    let gone : Os M :=
      { (w.os.setImage i dead).setImage i (dead.collect 0) with
        procs := w.os.procs.erase w.session.pid }
    have hkill : Os.kill w.session.pid w.os = (.ok (), w.os.setImage i dead) := by
      rw [Os.kill, hat.onImage]
    have hdead : (w.os.setImage i dead).At w.session.pid i 0 dead := hat.setImage
    have hwait : Os.waitpid w.session.pid .none (w.os.setImage i dead) =
        (.ok (.signaled w.session.pid .kill false), gone) := by
      rw [Os.waitpid, hdead.find]
      simp [dead, gone, Stop.isExit, Stop.status, Os.setImage]
    have hkill' : exec (attempt (os (Ptrace.kill arch w.session.pid))) w =
        some (.ok (), ⟨w.session, w.os.setImage i dead⟩) := by
      rw [exec_attempt, show exec (os (Ptrace.kill arch w.session.pid)) w = _ from exec_os hkill]
    have hwait' : exec (attempt (os (Ptrace.waitpid arch w.session.pid .none)))
        ⟨w.session, w.os.setImage i dead⟩ = some (.ok (), ⟨w.session, gone⟩) := by
      rw [exec_attempt, show exec (os (Ptrace.waitpid arch w.session.pid .none))
        ⟨w.session, w.os.setImage i dead⟩ = _ from exec_os hwait]
    refine ⟨gone, (bind_ok hkill').trans hwait', ?_, by simp [gone, Os.setImage],
      fun h => absurd rfl h⟩
    have hothers := (Others.setImage w.os i dead).trans
      (Others.setImage (w.os.setImage i dead) i (dead.collect 0))
    refine ⟨hothers.images, ?_⟩
    intro x k task hk hx
    show (w.os.procs.erase w.session.pid)[x]? = some (k, task)
    rw [KeyMap.get_erase, if_neg, hx]
    rintro rfl
    rw [hat.proc] at hx
    exact hk (Prod.mk.inj (Option.some.inj hx)).1.symm

/-! ## Watchpoints -/

/-- The watchpoint of a session is one the hardware supports. -/
def Armed (s : ReplaySession) : Prop := ∀ wp, s.watchpoint = some wp → isValidLen wp.len = true

/-- Arming a supported watchpoint always works here. -/
theorem exec_arm (w : World (Os M)) (pid : Pid) (addr : UInt64) {len : UInt8} (kind : WatchKind)
    (hlen : isValidLen len = true) :
    exec (WatchHw.arm arch pid addr len kind) w = some (.ok (), w) := by
  cases arch with
  | x86_64 =>
    have hbits : ∃ bits, x86LenBits len = .ok bits := by
      unfold isValidLen at hlen
      unfold x86LenBits
      simp only [Bool.or_eq_true, beq_iff_eq] at hlen
      rcases hlen with ((rfl | rfl) | rfl) | rfl
      · exact ⟨0, rfl⟩
      · exact ⟨1, rfl⟩
      · exact ⟨3, rfl⟩
      · exact ⟨2, rfl⟩
    rcases hbits with ⟨bits, hbits⟩
    have hdr7 : ∃ dr7, x86Dr7 kind len = .ok dr7 := by
      unfold x86Dr7
      rw [hbits]
      exact ⟨_, rfl⟩
    rcases hdr7 with ⟨dr7, hdr7⟩
    unfold WatchHw.arm
    rw [hdr7]
    rfl
  | aarch64 =>
    have hcontrol : aarch64Control addr len kind = .ok (addr &&& ~~~ 7,
        (1 : UInt32) ||| ((2 : UInt32) <<< 1) ||| (aarch64Lsc kind <<< 3) |||
          (aarch64Bas addr len <<< 5)) := by
      simp [aarch64Control, hlen]
    unfold WatchHw.arm
    rw [hcontrol]
    rfl

theorem exec_disarm (w : World (Os M)) (pid : Pid) :
    exec (WatchHw.disarm arch pid) w = some (.ok (), w) := by
  cases arch with
  | x86_64 => rfl
  | aarch64 => rfl

/-- Calls that change nothing, one after the other. -/
theorem exec_forEach {α : Type} {g : α → Method (Os M) Unit} (as : List α)
    (h : ∀ a, exec (g a) w = some (.ok (), w)) : exec (forEach g as) w = some (.ok (), w) := by
  induction as with
  | nil => rfl
  | cons a as ih =>
    unfold forEach
    rw [bind_ok (h a), ih]

theorem exec_rearmWatchpoint (h : Armed w.session) :
    exec (rearmWatchpoint arch) w = some (.ok (), ⟨{ w.session with unwinder := none }, w.os⟩) := by
  have hdrop : exec (modifySelf fun s => { s with unwinder := none }) w =
      some (.ok (), ⟨{ w.session with unwinder := none }, w.os⟩) := rfl
  unfold rearmWatchpoint
  rw [bind_ok hdrop, bind_ok (exec_self _)]
  cases hwatch : w.session.watchpoint with
  | none => rfl
  | some wp => exact exec_arm _ _ _ _ (h wp hwatch)

/-! ## Restarts -/

/-- A session at process entry. -/
def ReplaySession.atEntry (s : ReplaySession) (pid : Pid) : ReplaySession :=
  { s with
    pid
    cursor := 0
    currentSeq := none
    pending := none
    resumeSignal := none
    lastRegs := none
    finished := none
    mt := none
    unwinder := none }

/-- A session at the boundary of a checkpoint. -/
def ReplaySession.atCheckpoint (s : ReplaySession) (c : CheckpointInfo) (pid : Pid) :
    ReplaySession :=
  { s with
    pid
    cursor := c.cursor
    currentSeq := c.currentSeq
    lastRegs := c.lastRegs
    pending := none
    resumeSignal := none
    finished := none
    mt := none
    unwinder := none }

/-- The system after a restart: a new image under a new pid, and the old tracee gone. -/
structure Restarted (i i' : Nat) (pid : Pid) (img : Image M) (os os' : Os M) : Prop where
  seat : os'.At pid i' 0 img
  fresh : os.images[i']? = none
  others : Others i os os'

theorem exec_respawn (hlive : w.session.finished = none →
      ∃ img : Image M, w.os.At w.session.pid i 0 img) (harmed : Armed w.session) :
    ∃ pid i' os', exec (respawn arch) w = some (.ok (), ⟨w.session.atEntry pid, os'⟩) ∧
      Restarted i i' pid (entryImage M w.session.cmdline) w.os os' := by
  rcases exec_killActive hlive with ⟨os₁, hkill, hothers, hlength, -⟩
  let img := entryImage M w.session.cmdline
  have hspawn := exec_spawnStopped ⟨w.session, os₁⟩ w.session.cmdline
  have hreset : exec (modifySelf fun s =>
      { s with
        pid := os₁.nextPid
        cursor := 0
        currentSeq := none
        pending := none
        resumeSignal := none
        lastRegs := none
        finished := none
        mt := none }) ⟨w.session, entered os₁ img⟩ =
      some (.ok (), ⟨_, entered os₁ img⟩) := rfl
  refine ⟨os₁.nextPid, os₁.images.length, entered os₁ img, ?_, ?_⟩
  · unfold respawn
    rw [bind_ok hkill, bind_ok (exec_self _), bind_ok hspawn, bind_ok hreset]
    exact exec_rearmWatchpoint harmed
  · constructor
    · exact entered_at os₁ img
    · rw [hlength]
      exact List.getElem?_eq_none (Nat.le_refl _)
    · exact hothers.trans (others_entered os₁ img)

theorem exec_restoreToCheckpoint {index k : Nat} {c : CheckpointInfo} {img : Image M}
    (hindex : w.session.checkpoints[index]? = some c) (hcopy : w.os.At c.snapshot k 0 img)
    (hheld : Held laws img 0) (hlive : w.session.finished = none →
      ∃ img : Image M, w.os.At w.session.pid i 0 img) (harmed : Armed w.session) :
    ∃ pid i' os', exec (restoreToCheckpoint arch index) w =
        some (.ok (), ⟨w.session.atCheckpoint c pid, os'⟩) ∧
      Restarted i i' pid img w.os os' := by
  have hfork := exec_forkSnapshot laws hcopy hheld
  have hchild : (forked w.os c.snapshot 0 img).At w.os.nextPid w.os.images.length 0 img := by
    rw [← pair_self hcopy]
    exact pair_child
  have hlive' : w.session.finished = none → ∃ img' : Image M,
      (forked w.os c.snapshot 0 img).At w.session.pid i 0 img' := by
    intro hnone
    rcases hlive hnone with ⟨img', hat⟩
    exact ⟨img', keepsPids_forked w.os c.snapshot 0 img _ _ hat.proc,
      images_forked hat.image c.snapshot 0 img⟩
  rcases exec_killActive (w := ⟨w.session, forked w.os c.snapshot 0 img⟩) hlive' with
    ⟨os₁, hkill, hothers, -, hsame⟩
  refine ⟨w.os.nextPid, w.os.images.length, os₁, ?_, ?_⟩
  · have hself : exec (restoreToCheckpoint arch index) w =
        exec (do
          let fresh ← forkSnapshot arch c.snapshot
          killActive arch
          modifySelf fun s =>
            { s with
              pid := fresh
              cursor := c.cursor
              currentSeq := c.currentSeq
              lastRegs := c.lastRegs
              pending := none
              resumeSignal := none
              finished := none
              mt := none }
          rearmWatchpoint arch) w := by
      unfold restoreToCheckpoint
      rw [bind_ok (exec_self w), hindex]
    rw [hself, bind_ok hfork, bind_ok hkill]
    exact exec_rearmWatchpoint (w := ⟨_, os₁⟩) harmed
  · constructor
    · -- the old tracee is another image, if there is one
      cases hfinished : w.session.finished with
      | some outcome =>
        rw [hsame (by simp [hfinished])]
        exact hchild
      | none =>
        rcases hlive hfinished with ⟨img', hat⟩
        have hlt : i < w.os.images.length := (List.getElem?_eq_some_iff.mp hat.image).1
        have hne : w.os.images.length ≠ i := by omega
        exact ⟨hothers.procs _ _ _ hne hchild.proc, hothers.images _ _ hne hchild.image⟩
    · exact List.getElem?_eq_none (Nat.le_refl _)
    · exact (others_forked i w.os c.snapshot 0 img).trans hothers

theorem exec_runTo_drive {target : UInt64}
    (h : shouldRestart w.session.currentSeq (planStart w.session target).seq target = false) :
    exec (runTo arch target) w = exec (drive arch (some target)) w := by
  unfold runTo
  rw [bind_ok (exec_self w)]
  dsimp only
  rw [h, when_false]
  rfl

theorem exec_runTo_restart {target : UInt64}
    (h : shouldRestart w.session.currentSeq (planStart w.session target).seq target = true)
    (hexec : exec (restart arch (planStart w.session target)) w = some (.ok (), w')) :
    exec (runTo arch target) w = exec (drive arch (some target)) w' := by
  unfold runTo
  rw [bind_ok (exec_self w)]
  dsimp only
  rw [h, when_true, bind_ok hexec]

/-- A session as it is launched: at process entry, on a target of its own. -/
structure Launched (cmdline : Cmdline) (records : List Record) (f : World (Os M)) : Prop where
  session : ∃ pid, f.session = { ReplaySession.ofTrace cmdline records with pid }
  seat : ∃ j, f.os.At f.session.pid j 0 (entryImage M cmdline)

theorem launch_launched {cmdline : Cmdline} {records : List Record} {os : Os M}
    (h : exec (launch arch) ⟨ReplaySession.ofTrace cmdline records, os⟩ = some (.ok (), w)) :
    Launched cmdline records w := by
  have hspawn := exec_spawnStopped ⟨ReplaySession.ofTrace cmdline records, os⟩ cmdline
  have hseat := (bind_ok (f := fun pid => modifySelf fun s => { s with pid }) hspawn).symm.trans h
  rcases Prod.mk.inj (Option.some.inj hseat) with ⟨-, rfl⟩
  exact ⟨⟨os.nextPid, rfl⟩, ⟨os.images.length, entered_at os (entryImage M cmdline)⟩⟩

end Mirrorscope.Replay
