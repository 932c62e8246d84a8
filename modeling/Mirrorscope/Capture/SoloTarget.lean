import Mirrorscope.Capture.Kernel
import Mirrorscope.Linux.Machine

/-! # Single-threaded targets

A target of one thread as a finite script: syscalls that return, signals, successful
execs, and an end. What it stops for depends on the options of its tracer in one place:
an exec is an event stop under `PTRACE_O_TRACEEXEC`; without it the program gets a
`SIGTRAP` once the exec has returned, which has no handler and kills when it is
delivered.
-/

namespace Mirrorscope.Capture

open Linux

variable {arch : Arch}

/-! ## Scripts -/

/-- A syscall that returns: the registers at its entry and at its exit, and the memory it
leaves behind. No transfer is longer than the kernel allows. -/
structure Crossing (arch : Arch) where
  entry : FullRegs arch
  exit : FullRegs arch
  memory : ByteMemory
  fits : ∀ addr len, kernelWrittenRegion arch (normalize arch entry).nr (normalize arch entry).args
    (normalize arch exit).ret = some (addr, len) → len ≤ maxRwCount

/-- How many bytes of the kernel the tracer captures at the exit. -/
def Crossing.captured (c : Crossing arch) : Nat :=
  ((kernelWrittenRegion arch (normalize arch c.entry).nr (normalize arch c.entry).args
    (normalize arch c.exit).ret).map Prod.snd).getD 0

theorem Crossing.captured_le (c : Crossing arch) : c.captured ≤ maxRwCount := by
  unfold captured
  cases hregion : kernelWrittenRegion arch (normalize arch c.entry).nr
    (normalize arch c.entry).args (normalize arch c.exit).ret with
  | none => exact Nat.zero_le _
  | some region => exact c.fits region.1 region.2 hregion

/-- What a target does next. -/
inductive Act (arch : Arch) where
  | call (c : Crossing arch)
  | signal (sig : Signal) (genuine : sig ≠ .stop)
  | exec (c : Crossing arch)

/-- How a target ends. -/
inductive Fate where
  | exited (code : Int32)
  | signaled (sig : Signal) (core : Bool)
deriving DecidableEq, Repr

namespace Fate

def stop : Fate → Stop
  | exited code => .exited code
  | signaled sig core => .signaled sig core

/-- The exit code of an ordinary end. -/
def code : Fate → Option Int32
  | exited code => some code
  | signaled .. => none

end Fate

/-- A single-threaded target. It may end inside of a syscall, as every `exit_group` does;
one that dies of a signal that stopped it first has that signal as its last act. -/
structure SoloTarget (arch : Arch) where
  start : FullRegs arch
  memory : ByteMemory
  acts : List (Act arch)
  last : Option (FullRegs arch)
  fate : Fate

/-! ## Stops -/

/-- Where a target may stop. -/
inductive Item (arch : Arch) where
  | entry (regs : FullRegs arch)
  | exit (c : Crossing arch) (ofExec : Bool)
  | signal (sig : Signal)
  | execed
  | execTrap
  | ended (fate : Fate)

def Act.items : Act arch → List (Item arch)
  | call c => [.entry c.entry, .exit c false]
  | signal sig _ => [.signal sig]
  | exec c => [.entry c.entry, .execed, .exit c true]

/-- The end of a target. -/
def SoloTarget.ending (target : SoloTarget arch) : List (Item arch) :=
  (target.last.map Item.entry).toList ++ [.ended target.fate]

def SoloTarget.items (target : SoloTarget arch) : List (Item arch) :=
  target.acts.flatMap Act.items ++ target.ending

/-- A target at a stop. -/
structure Playing (arch : Arch) where
  todo : List (Item arch)
  regs : FullRegs arch
  memory : ByteMemory
  /-- The tracer has cancelled the syscall that was entered. -/
  suppressed : Bool := false
  /-- The target stands at the `SIGTRAP` of its exec. -/
  trapped : Bool := false

namespace Playing

/-- On to the next stop. A cancelled syscall leaves the memory alone; an exec that has
returned has left a `SIGTRAP` pending, unless its event is traced. -/
def advance (options : Options) (g : Playing arch) : List (Item arch) → Playing arch × Stop
  | [] => ({ g with todo := [] }, .exited 0)
  | .entry regs :: todo => ({ g with todo, regs, suppressed := false }, .syscall)
  | .exit c ofExec :: todo =>
    ({ g with
        todo := if ofExec && !options.traceexec then .execTrap :: todo else todo
        regs := c.exit
        memory := if g.suppressed then g.memory else c.memory },
      .syscall)
  | .signal sig :: todo => ({ g with todo }, .signal sig)
  | .execed :: todo =>
    if options.traceexec then ({ g with todo }, .event EventCode.exec) else advance options g todo
  | .execTrap :: todo => ({ g with todo, trapped := true }, .signal .trap)
  | .ended fate :: todo => ({ g with todo }, fate.stop)

/-- A `SIGTRAP` that is delivered at the stop of an exec kills: no handler survives an
exec. -/
def resume (options : Options) (g : Playing arch) (sig : Option Signal) : Playing arch × Stop :=
  if g.trapped ∧ sig = some .trap then ({ g with todo := [] }, .signaled .trap true)
  else advance options { g with trapped := false } g.todo

/-- Whether a register file cancels the syscall it is set for. -/
def cancels : (arch : Arch) → FullRegs arch → Bool
  | .x86_64, (r : X86Regs) => r.origRax = 0xFFFFFFFFFFFFFFFF
  | .aarch64, _ => false

end Playing

/-- The program of a target: its one task goes through the script. -/
def SoloTarget.machine (target : SoloTarget arch) : Machine arch where
  Group := Playing arch
  start _ := { todo := target.items, regs := target.start, memory := target.memory }
  resume g _ options sig := g.resume options sig
  step g _ _ := (g, .stop (.signal .trap))
  regs g _ := g.regs
  setRegs g _ regs := { g with regs, suppressed := g.suppressed || Playing.cancels arch regs }
  setNr g _ nr := { g with suppressed := g.suppressed || nr == -1 }
  read g _ addr len := .ok (g.memory.range addr len)
  write g _ addr data := (.ok data.length, { g with memory := g.memory.write addr data })
  siCode _ _ := 0

/-! ## One thread stays one thread -/

theorem Playing.advance_isSpawn (options : Options) (g : Playing arch) (items : List (Item arch)) :
    (g.advance options items).2.isSpawn = false := by
  induction items with
  | nil => rfl
  | cons item items ih =>
    cases item with
    | entry _ => rfl
    | exit _ _ => rfl
    | signal _ => rfl
    | execed =>
      unfold advance
      split
      · rfl
      · exact ih
    | execTrap => rfl
    | ended fate => cases fate <;> rfl

/-- The program has these stops ahead. -/
def Ahead (todo : List (Item arch)) (g : Playing arch) : Prop := g.todo = todo ∧ g.trapped = false

theorem Playing.resume_of_ahead {todo : List (Item arch)} {g : Playing arch} (h : Ahead todo g)
    (options : Options) (sig : Option Signal) : g.resume options sig = g.advance options todo := by
  obtain ⟨rfl, htrapped⟩ := h
  have hsame : { g with trapped := false } = g := by
    cases g
    cases htrapped
    rfl
  unfold resume
  rw [if_neg (by simp [htrapped]), hsame]

variable (target : SoloTarget arch) (img : Image target.machine) (task : Nat) (sig : Option Signal)

theorem SoloTarget.machine_resume_isSpawn :
    (target.machine.resume img.group task (img.options task) sig).2.isSpawn = false := by
  change (Playing.resume _ _ _).2.isSpawn = false
  unfold Playing.resume
  split
  · rfl
  · exact Playing.advance_isSpawn _ _ _

/-- How a copy of a target goes on: it never makes another thread. -/
theorem SoloTarget.image_resume :
    img.resume task sig =
      let (group, stop) := target.machine.resume img.group task (img.options task) sig
      (stop, { img with group, stops := Function.update img.stops task (some stop) }) :=
  if_neg (by rw [target.machine_resume_isSpawn img task sig]; decide)

theorem SoloTarget.resume_isSpawn : (img.resume task sig).1.isSpawn = false := by
  rw [target.image_resume]
  exact target.machine_resume_isSpawn img task sig

/-- Towards the stops that are ahead. -/
theorem SoloTarget.resume_of_ahead {todo : List (Item arch)} (h : Ahead todo img.group) :
    img.resume task sig =
      let (group, stop) := Playing.advance (img.options task) img.group todo
      (stop, { img with group, stops := Function.update img.stops task (some stop) }) := by
  have hresume : target.machine.resume img.group task (img.options task) sig =
      Playing.advance (img.options task) img.group todo := Playing.resume_of_ahead h _ _
  rw [target.image_resume, hresume]

end Mirrorscope.Capture
