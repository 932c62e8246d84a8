import Mirrorscope.Linux.Ptrace

/-! # A system that keeps a journal

Any system, with a list of what its tracer did to its tasks: which were resumed,
what a wait for which answered, and whose registers were read. The journal only
adds to the system, so what holds of it holds of the system.
-/

namespace Mirrorscope.Linux

/-- What a tracer did. A resume is noted whether or not it succeeded. -/
inductive Entry where
  | resumed (pid : Pid)
  | waited (pid : Pid) (status : WaitStatus)
  | registers (pid : Pid) (regs : Registers)
deriving DecidableEq, Repr

namespace Entry

/-- The entry is not a resume. -/
def Rests (e : Entry) : Prop := ∀ q, e ≠ .resumed q

/-- The entry is about this task. -/
def Of (p : Pid) : Entry → Prop
  | resumed q | waited q _ | registers q _ => q = p

end Entry

/-- A system and what was done in it so far. -/
structure Journal (ω : Type) where
  os : ω
  entries : List Entry

namespace Journal

variable {ω ε α : Type}

/-- A call that is not noted. -/
def silent (call : Call ω ε α) : Call (Journal ω) ε α := fun j =>
  let (answer, os) := call j.os
  (answer, { j with os })

/-- A call that is noted with its answer. -/
def noting (note : Except ε α → List Entry) (call : Call ω ε α) : Call (Journal ω) ε α := fun j =>
  let (answer, os) := call j.os
  (answer, { os, entries := j.entries ++ note answer })

theorem noting_inv {note : Except ε α → List Entry} {call : Call ω ε α} {j j' : Journal ω}
    {answer : Except ε α} (h : noting note call j = (answer, j')) :
    j'.entries = j.entries ++ note answer := by
  obtain ⟨hanswer, hj⟩ := Prod.mk.inj h
  rw [← hj, ← hanswer]

theorem silent_inv {call : Call ω ε α} {j j' : Journal ω} {answer : Except ε α}
    (h : silent call j = (answer, j')) : j'.entries = j.entries := by
  rw [← (Prod.mk.inj h).2]

instance {arch : Arch} [Ptrace arch ω] : Ptrace arch (Journal ω) where
  spawnTraced cmdline := silent (Ptrace.spawnTraced arch cmdline)
  syscall pid sig := noting (fun _ => [.resumed pid]) (Ptrace.syscall arch pid sig)
  step pid := noting (fun _ => [.resumed pid]) (Ptrace.step arch pid)
  kill pid := silent (Ptrace.kill arch pid)
  waitpid pid flags :=
    noting (fun
      | .ok status => [.waited pid status]
      | .error _ => []) (Ptrace.waitpid arch pid flags)
  setoptions pid options := silent (Ptrace.setoptions arch pid options)
  getevent pid := silent (Ptrace.getevent arch pid)
  getregs pid :=
    noting (fun
      | .ok regs => [.registers pid (normalize arch regs)]
      | .error _ => []) (Ptrace.getregs pid)
  setregs pid regs := silent (Ptrace.setregs pid regs)
  setSyscallNr pid nr := silent (Ptrace.setSyscallNr arch pid nr)
  processVmReadv pid addr len := silent (Ptrace.processVmReadv arch pid addr len)
  processVmWritev pid addr data := silent (Ptrace.processVmWritev arch pid addr data)
  pokeUser pid offset data := silent (Ptrace.pokeUser arch pid offset data)
  setHwWatch pid addr ctrl := silent (Ptrace.setHwWatch arch pid addr ctrl)
  getsiginfo pid := silent (Ptrace.getsiginfo arch pid)

end Journal

end Mirrorscope.Linux
