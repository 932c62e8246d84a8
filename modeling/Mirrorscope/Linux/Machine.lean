import Mirrorscope.Lib.KeyMap
import Mirrorscope.Linux.Ptrace

/-! # A system of deterministic programs

A program whose next stop is a function of its state and of the signal it is
resumed with, and a system that runs copies of it. Each copy is an image with
its own memory; its tasks are numbered in the order of their creation. Pids are
handed out by an arbitrary policy that never gives out one in use, and the pid
of a task that has exited may come back.
-/

namespace Mirrorscope.Linux

open Trace (Cmdline)

/-- How a task that was resumed stops. -/
inductive Stop where
  | syscall
  | signal (sig : Signal)
  | event (code : EventCode)
  | exited (code : Int32)
  | signaled (sig : Signal) (core : Bool)
deriving DecidableEq, Repr

namespace Stop

/-- What `waitpid` reports of a stop. -/
def status (pid : Pid) : Stop → WaitStatus
  | syscall => .ptraceSyscall pid
  | signal sig => .stopped pid sig
  | event code => .ptraceEvent pid .trap code
  | exited code => .exited pid code
  | signaled sig core => .signaled pid sig core

/-- The task is gone. -/
def isExit : Stop → Bool
  | exited _ | signaled .. => true
  | _ => false

/-- The task has created another one. -/
def isSpawn : Stop → Bool
  | event code => isSpawnEvent code
  | _ => false

end Stop

/-- What stepping one instruction does. -/
inductive Stepped (Group : Type) where
  | stop (stop : Stop)
  | forked (event : EventCode) (child : Group)

/-- A deterministic program. A `Group` is the state of all its tasks and of the
memory they share. -/
structure Machine (arch : Arch) where
  Group : Type
  /-- The state at the first stop after the exec. -/
  start : Cmdline → Group
  resume : Group → Nat → Options → Option Signal → Group × Stop
  step : Group → Nat → Options → Group × Stepped Group
  regs : Group → Nat → FullRegs arch
  setRegs : Group → Nat → FullRegs arch → Group
  setNr : Group → Nat → Int32 → Group
  read : Group → Nat → UInt64 → Nat → Except Errno Bytes
  write : Group → Nat → UInt64 → Bytes → Except Errno Nat × Group
  siCode : Group → Nat → Int32

variable {arch : Arch}

/-- A running copy of a program, its tasks named by their numbers. -/
@[ext] structure Image (M : Machine arch) where
  group : M.Group
  /-- The number of the next task. -/
  next : Nat
  /-- The stops not yet waited for. -/
  stops : Nat → Option Stop
  options : Nat → Options

namespace Image

variable {M : Machine arch}

/-- A fresh copy, stopped after its exec. -/
def spawned (M : Machine arch) (cmdline : Cmdline) : Image M where
  group := M.start cmdline
  next := 1
  stops task := if task = 0 then some (.signal .trap) else none
  options _ := {}

/-- The copy after task `task` was resumed. A new task starts in a `SIGSTOP`, under
its parent's options. -/
def resume (img : Image M) (task : Nat) (sig : Option Signal) : Stop × Image M :=
  let (group, stop) := M.resume img.group task (img.options task) sig
  if stop.isSpawn then
    let stops := Function.update img.stops img.next (some (.signal .stop))
    (stop,
      { group
        next := img.next + 1
        stops := Function.update stops task (some stop)
        options := Function.update img.options img.next (img.options task) })
  else (stop, { img with group, stops := Function.update img.stops task (some stop) })

/-- The stop of a task is waited for. -/
def collect (img : Image M) (task : Nat) : Image M :=
  { img with stops := Function.update img.stops task none }

end Image

/-- How new pids are chosen. -/
structure PidPolicy where
  pick : Nat → List Pid → Pid
  fresh : ∀ n used, pick n used ∉ used

/-- A system that runs copies of a program. -/
structure Os (M : Machine arch) where
  images : List (Image M)
  /-- The image and the task a pid names. -/
  procs : KeyMap Pid (Nat × Nat)
  /-- The child of a task's last creation event. -/
  messages : KeyMap Pid Pid
  policy : PidPolicy
  /-- How many pids were handed out. -/
  count : Nat

namespace Os

variable {M : Machine arch}

/-- The pid the next process or task gets. -/
def nextPid (os : Os M) : Pid := os.policy.pick os.count os.procs.keys

/-- Enter a task under the next pid. -/
def register (os : Os M) (image task : Nat) : Os M :=
  { os with procs := os.procs.insert os.nextPid (image, task), count := os.count + 1 }

def setImage (os : Os M) (i : Nat) (img : Image M) : Os M :=
  { os with images := os.images.set i img }

/-- The image and the task of a pid. -/
def find (os : Os M) (pid : Pid) : Option (Nat × Nat × Image M) :=
  match os.procs[pid]? with
  | some (i, task) => os.images[i]?.map fun img => (i, task, img)
  | none => none

/-- A call on the image of a pid. -/
def onImage {α : Type} (pid : Pid) (f : Image M → Nat → Except Errno α × Image M) :
    Call (Os M) Errno α := fun os =>
  match os.find pid with
  | none => (.error Errno.ESRCH, os)
  | some (i, task, img) =>
    let (answer, img) := f img task
    (answer, os.setImage i img)

def spawnTraced (cmdline : Cmdline) : Call (Os M) ByteIO.IoError Pid := fun os =>
  let os' := { os with images := os.images ++ [Image.spawned M cmdline] }
  (.ok os.nextPid, os'.register os.images.length 0)

/-- Resume a stopped task. A task whose stop was not waited for is not stopped. -/
def syscall (pid : Pid) (sig : Option Signal) : Call (Os M) Errno Unit := fun os =>
  match os.find pid with
  | none => (.error Errno.ESRCH, os)
  | some (i, task, img) =>
    if (img.stops task).isSome then (.error Errno.ESRCH, os)
    else
      let (stop, img') := img.resume task sig
      if stop.isSpawn then
        (.ok (),
          { (os.setImage i img').register i img.next with
            messages := os.messages.insert pid os.nextPid })
      else (.ok (), os.setImage i img')

/-- Step a stopped task over one instruction. A fork makes a new image with one
task, stopped in a `SIGSTOP`. -/
def step (pid : Pid) : Call (Os M) Errno Unit := fun os =>
  match os.find pid with
  | none => (.error Errno.ESRCH, os)
  | some (i, task, img) =>
    if (img.stops task).isSome then (.error Errno.ESRCH, os)
    else
      match M.step img.group task (img.options task) with
      | (group, .stop stop) =>
        (.ok (),
          os.setImage i { img with group, stops := Function.update img.stops task (some stop) })
      -- the event names the next pid, which is the copy's
      | (group, .forked event child) =>
        let parent : Image M :=
          { img with group, stops := Function.update img.stops task (some (.event event)) }
        let copy : Image M :=
          { img with
            group := child, stops := Function.update img.stops task (some (.signal .stop)) }
        let os' := { os.setImage i parent with images := os.images.set i parent ++ [copy] }
        (.ok (),
          { os'.register os.images.length task with
            messages := os.messages.insert pid os.nextPid })

/-- A killed task still has its end to be waited for. -/
def kill (pid : Pid) : Call (Os M) Errno Unit :=
  onImage pid fun img task =>
    (.ok (), { img with stops := Function.update img.stops task (some (.signaled .kill false)) })

/-- Wait for the stop of a task; a task that has ended frees its pid. A wait that
would block has no child to wait for here. -/
def waitpid (pid : Pid) (_ : WaitFlags) : Call (Os M) Errno WaitStatus := fun os =>
  match os.find pid with
  | none => (.error Errno.ECHILD, os)
  | some (i, task, img) =>
    match img.stops task with
    | none => (.error Errno.ECHILD, os)
    | some stop =>
      let os' := os.setImage i (img.collect task)
      (.ok (stop.status pid),
        if stop.isExit then { os' with procs := os'.procs.erase pid } else os')

def setoptions (pid : Pid) (options : Options) : Call (Os M) Errno Unit :=
  onImage pid fun img task =>
    (.ok (), { img with options := Function.update img.options task options })

def getevent (pid : Pid) : Call (Os M) Errno Pid := fun os =>
  match os.messages[pid]? with
  | none => (.error Errno.ESRCH, os)
  | some child => (.ok child, os)

def getregs (pid : Pid) : Call (Os M) Errno (FullRegs arch) :=
  onImage pid fun img task => (.ok (M.regs img.group task), img)

def setregs (pid : Pid) (regs : FullRegs arch) : Call (Os M) Errno Unit :=
  onImage pid fun img task => (.ok (), { img with group := M.setRegs img.group task regs })

def setSyscallNr (pid : Pid) (nr : Int32) : Call (Os M) Errno Unit :=
  onImage pid fun img task => (.ok (), { img with group := M.setNr img.group task nr })

def processVmReadv (pid : Pid) (addr : UInt64) (len : Nat) : Call (Os M) Errno Bytes :=
  onImage pid fun img task => (M.read img.group task addr len, img)

def processVmWritev (pid : Pid) (addr : UInt64) (data : Bytes) : Call (Os M) Errno Nat :=
  onImage pid fun img task =>
    let (answer, group) := M.write img.group task addr data
    (answer, { img with group })

def getsiginfo (pid : Pid) : Call (Os M) Errno Int32 :=
  onImage pid fun img task => (.ok (M.siCode img.group task), img)

end Os

instance (M : Machine arch) : Ptrace arch (Os M) where
  spawnTraced := Os.spawnTraced
  syscall := Os.syscall
  step := Os.step
  kill := Os.kill
  waitpid := Os.waitpid
  setoptions := Os.setoptions
  getevent := Os.getevent
  getregs := Os.getregs
  setregs := Os.setregs
  setSyscallNr := Os.setSyscallNr
  processVmReadv := Os.processVmReadv
  processVmWritev := Os.processVmWritev
  -- no access is watched here: the debug registers are inert
  pokeUser _ _ _ os := (.ok (), os)
  setHwWatch _ _ _ os := (.ok (), os)
  getsiginfo := Os.getsiginfo

/-! ## What the calls do -/

@[simp] theorem Image.stops_resume (M : Machine arch) (img : Image M) (task : Nat)
    (sig : Option Signal) :
    (img.resume task sig).2.stops task = some (img.resume task sig).1 := by
  unfold Image.resume
  dsimp only
  split
  · simp
  · simp

namespace Os

variable {M : Machine arch} {os : Os M} {pid : Pid} {i task : Nat} {img : Image M} {α : Type}

/-- A pid names task `task` of image `i`, which is `img`. -/
structure At (os : Os M) (pid : Pid) (i task : Nat) (img : Image M) : Prop where
  proc : os.procs[pid]? = some (i, task)
  image : os.images[i]? = some img

theorem At.find (h : os.At pid i task img) : os.find pid = some (i, task, img) := by
  simp [Os.find, h.proc, h.image]

theorem at_of_find (h : os.find pid = some (i, task, img)) : os.At pid i task img := by
  unfold Os.find at h
  split at h
  · rename_i i' task' hproc
    rcases Option.map_eq_some_iff.mp h with ⟨img', himg, heq⟩
    rcases Prod.mk.inj heq with ⟨rfl, htask⟩
    rcases Prod.mk.inj htask with ⟨rfl, rfl⟩
    exact ⟨hproc, himg⟩
  · cases h

theorem At.unique {i' task' : Nat} {img' : Image M} (h : os.At pid i task img)
    (h' : os.At pid i' task' img') : i = i' ∧ task = task' ∧ img = img' := by
  have heq := h'.find
  rw [h.find] at heq
  rcases Prod.mk.inj (Option.some.inj heq) with ⟨rfl, hrest⟩
  exact ⟨rfl, Prod.mk.inj hrest⟩

/-- A pid in use is not handed out. -/
theorem procs_nextPid (os : Os M) : os.procs[os.nextPid]? = none := by
  have hfresh := os.policy.fresh os.count os.procs.keys
  apply Std.ExtTreeMap.getElem?_eq_none
  intro hmem
  exact hfresh (Std.ExtTreeMap.mem_keys.mpr hmem)

theorem nextPid_ne {v : Nat × Nat} (h : os.procs[pid]? = some v) : os.nextPid ≠ pid := by
  intro heq
  have hnone := procs_nextPid os
  rw [heq, h] at hnone
  cases hnone

theorem procs_register (os : Os M) (k t : Nat) (q : Pid) :
    (os.register k t).procs[q]? = if os.nextPid = q then some (k, t) else os.procs[q]? :=
  KeyMap.get_insert _ _ _ _

theorem images_setImage (os : Os M) {img' : Image M} (h : os.images[i]? = some img) (k : Nat) :
    (os.setImage i img').images[k]? = if i = k then some img' else os.images[k]? := by
  have hlt : i < os.images.length := (List.getElem?_eq_some_iff.mp h).1
  by_cases hk : i = k
  · subst hk
    simp [setImage, hlt]
  · simp [setImage, hk]

theorem setImage_self (h : os.images[i]? = some img) : os.setImage i img = os := by
  rcases List.getElem?_eq_some_iff.mp h with ⟨hlt, rfl⟩
  simp [setImage]

theorem At.setImage {img' : Image M} (h : os.At pid i task img) :
    (os.setImage i img').At pid i task img' where
  proc := h.proc
  image := by rw [images_setImage os h.image, if_pos rfl]

/-- A call on the image of a pid changes that image only. -/
theorem At.onImage (h : os.At pid i task img) (f : Image M → Nat → Except Errno α × Image M) :
    Os.onImage pid f os = ((f img task).1, os.setImage i (f img task).2) := by
  rw [Os.onImage, h.find]

/-- The system after a task was resumed and its next stop waited for. -/
def resumed (os : Os M) (pid : Pid) (i task : Nat) (img : Image M) (sig : Option Signal) : Os M :=
  let (stop, img') := img.resume task sig
  let os' := os.setImage i (img'.collect task)
  if stop.isSpawn then
    { os'.register i img.next with messages := os.messages.insert pid os.nextPid }
  else if stop.isExit then { os' with procs := os'.procs.erase pid }
  else os'

theorem syscall_error (h : os.At pid i task img) (hstop : (img.stops task).isSome)
    (sig : Option Signal) : Os.syscall pid sig os = (.error Errno.ESRCH, os) := by
  rw [Os.syscall, h.find]
  simp [hstop]

theorem Stop.isExit_of_isSpawn {stop : Stop} (h : stop.isSpawn = true) : stop.isExit = false := by
  cases stop <;> simp_all [Stop.isSpawn, Stop.isExit]

/-- Resuming a stopped task and waiting for it. -/
theorem syscall_waitpid (h : os.At pid i task img) (hstop : img.stops task = none)
    (sig : Option Signal) (flags : WaitFlags) :
    ∃ os', Os.syscall pid sig os = (.ok (), os') ∧
      Os.waitpid pid flags os' =
        (.ok ((img.resume task sig).1.status pid), os.resumed pid i task img sig) := by
  have hstops := Image.stops_resume M img task sig
  rcases hres : img.resume task sig with ⟨stop, img'⟩
  rw [hres] at hstops
  change img'.stops task = some stop at hstops
  have hset (k : Nat) (a b : Image M) : (os.images.set k a).set k b = os.images.set k b :=
    List.set_set ..
  cases hspawn : stop.isSpawn with
  | true =>
    refine ⟨_, by rw [Os.syscall, h.find]; simp [hstop, hres, hspawn]; rfl, ?_⟩
    have hat : Os.At { (os.setImage i img').register i img.next with
        messages := os.messages.insert pid os.nextPid } pid i task img' := by
      refine ⟨?_, (h.setImage).image⟩
      change ((os.setImage i img').register i img.next).procs[pid]? = _
      rw [procs_register, if_neg (nextPid_ne h.setImage.proc)]
      exact h.proc
    rw [Os.waitpid, hat.find]
    simp [hstops, Stop.isExit_of_isSpawn hspawn, resumed, hres, hspawn, setImage, register, hset,
      nextPid]
  | false =>
    refine ⟨_, by rw [Os.syscall, h.find]; simp [hstop, hres, hspawn]; rfl, ?_⟩
    rw [Os.waitpid, (h.setImage).find]
    simp [hstops, resumed, hres, hspawn, setImage, hset]

theorem images_resumed (h : os.At pid i task img) (sig : Option Signal) (k : Nat) :
    (os.resumed pid i task img sig).images[k]? =
      if i = k then some ((img.resume task sig).2.collect task) else os.images[k]? := by
  rw [← images_setImage os h.image]
  unfold resumed
  dsimp only
  split
  · rfl
  · split
    · rfl
    · rfl

/-- Only the pid of a task that ended is gone, and only a new task has a new one. -/
theorem procs_resumed (sig : Option Signal) (x : Pid) :
    (os.resumed pid i task img sig).procs[x]? =
      if (img.resume task sig).1.isSpawn ∧ os.nextPid = x then some (i, img.next)
      else if (img.resume task sig).1.isExit ∧ pid = x then none
      else os.procs[x]? := by
  unfold resumed
  dsimp only
  cases hspawn : (img.resume task sig).1.isSpawn with
  | true =>
    simp only [Stop.isExit_of_isSpawn hspawn, if_true, true_and, Bool.false_eq_true, false_and,
      if_false]
    exact procs_register _ _ _ _
  | false =>
    cases hexit : (img.resume task sig).1.isExit with
    | true =>
      simp only [Bool.false_eq_true, if_false, if_true, false_and, true_and]
      exact KeyMap.get_erase _ _ _
    | false => simp [setImage]

theorem procs_resumed_of_some {sig : Option Signal} (hexit : (img.resume task sig).1.isExit = false)
    {x : Pid} {v : Nat × Nat} (hx : os.procs[x]? = some v) :
    (os.resumed pid i task img sig).procs[x]? = some v := by
  rw [procs_resumed, if_neg, if_neg, hx]
  · simp [hexit]
  · rintro ⟨-, heq⟩
    exact nextPid_ne hx heq

/-- The child of a creation event. -/
theorem resumed_child {sig : Option Signal} (hspawn : (img.resume task sig).1.isSpawn = true) :
    (os.resumed pid i task img sig).messages[pid]? = some os.nextPid ∧
      (os.resumed pid i task img sig).procs[os.nextPid]? = some (i, img.next) := by
  constructor
  · simp only [resumed, hspawn, if_true]
    rw [KeyMap.get_insert, if_pos rfl]
  · rw [procs_resumed, if_pos ⟨hspawn, rfl⟩]

end Os

end Mirrorscope.Linux
