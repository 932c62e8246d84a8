import Mirrorscope.Trace.Format

/-! # The kernel interface

Process ids, signals, wait statuses and register files as the `nix` crate has
them, and the calls through which recorder and replayer drive a tracee. Every
call is a step on the state of the operating system that answers or fails; which
system it is stays a parameter.
-/

namespace Mirrorscope.Linux

open Trace (Cmdline)

/-- `nix::unistd::Pid`. -/
abbrev Pid := Int

/-- `pid.as_raw() as u32`: the tid a record is tagged with. -/
def tidOf (pid : Pid) : UInt32 := UInt32.ofInt pid

/-- `nix::Error`: the number of an OS error. -/
structure Errno where
  code : Nat
deriving DecidableEq, Repr

namespace Errno

def ESRCH : Errno := ⟨3⟩
def EINTR : Errno := ⟨4⟩
def ECHILD : Errno := ⟨10⟩
def EAGAIN : Errno := ⟨11⟩
def EFAULT : Errno := ⟨14⟩

end Errno

/-- `nix::sys::signal::Signal`: the standard signals, in numeric order. -/
inductive Signal where
  | hup | int | quit | ill | trap | abrt | bus | fpe | kill | usr1 | segv | usr2 | pipe | alrm
  | term | stkflt | chld | cont | stop | tstp | ttin | ttou | urg | xcpu | xfsz | vtalrm | prof
  | winch | io | pwr | sys
deriving DecidableEq, Repr

namespace Signal

/-- `signal as i32`. -/
def num : Signal → Int32
  | hup => 1 | int => 2 | quit => 3 | ill => 4 | trap => 5 | abrt => 6 | bus => 7 | fpe => 8
  | kill => 9 | usr1 => 10 | segv => 11 | usr2 => 12 | pipe => 13 | alrm => 14 | term => 15
  | stkflt => 16 | chld => 17 | cont => 18 | stop => 19 | tstp => 20 | ttin => 21 | ttou => 22
  | urg => 23 | xcpu => 24 | xfsz => 25 | vtalrm => 26 | prof => 27 | winch => 28 | io => 29
  | pwr => 30 | sys => 31

/-- All signals. -/
def all : List Signal :=
  [hup, int, quit, ill, trap, abrt, bus, fpe, kill, usr1, segv, usr2, pipe, alrm, term, stkflt,
   chld, cont, stop, tstp, ttin, ttou, urg, xcpu, xfsz, vtalrm, prof, winch, io, pwr, sys]

/-- The signal of a number, if there is one. -/
def ofNum (n : Int32) : Option Signal := all.find? fun s => s.num = n

theorem ofNum_num (s : Signal) : ofNum s.num = some s := by
  cases s <;> decide

theorem num_of_ofNum {n : Int32} {s : Signal} (h : ofNum n = some s) : s.num = n := by
  simpa using List.find?_some h

theorem num_injective {s t : Signal} (h : s.num = t.num) : s = t := by
  have hs := ofNum_num s
  rw [h, ofNum_num] at hs
  exact (Option.some.inj hs).symm

/-- The name `{:?}` prints. -/
def name : Signal → String
  | hup => "SIGHUP" | int => "SIGINT" | quit => "SIGQUIT" | ill => "SIGILL" | trap => "SIGTRAP"
  | abrt => "SIGABRT" | bus => "SIGBUS" | fpe => "SIGFPE" | kill => "SIGKILL"
  | usr1 => "SIGUSR1" | segv => "SIGSEGV" | usr2 => "SIGUSR2" | pipe => "SIGPIPE"
  | alrm => "SIGALRM" | term => "SIGTERM" | stkflt => "SIGSTKFLT" | chld => "SIGCHLD"
  | cont => "SIGCONT" | stop => "SIGSTOP" | tstp => "SIGTSTP" | ttin => "SIGTTIN"
  | ttou => "SIGTTOU" | urg => "SIGURG" | xcpu => "SIGXCPU" | xfsz => "SIGXFSZ"
  | vtalrm => "SIGVTALRM" | prof => "SIGPROF" | winch => "SIGWINCH" | io => "SIGIO"
  | pwr => "SIGPWR" | sys => "SIGSYS"

end Signal

/-! ## Stops -/

/-- `PTRACE_EVENT_*`. -/
abbrev EventCode := Int32

namespace EventCode

def fork : EventCode := 1
def vfork : EventCode := 2
def clone : EventCode := 3
def exec : EventCode := 4

end EventCode

/-- Whether a `PTRACE_EVENT_*` code is a thread or process creation. -/
def isSpawnEvent (event : EventCode) : Bool :=
  event == EventCode.clone || event == EventCode.fork || event == EventCode.vfork

/-- `nix::sys::wait::WaitStatus`. -/
inductive WaitStatus where
  | exited (pid : Pid) (code : Int32)
  | signaled (pid : Pid) (sig : Signal) (core : Bool)
  | stopped (pid : Pid) (sig : Signal)
  | ptraceEvent (pid : Pid) (sig : Signal) (event : EventCode)
  | ptraceSyscall (pid : Pid)
  | continued (pid : Pid)
  | stillAlive
deriving DecidableEq, Repr

/-- What `{:?}` prints of a wait status. -/
def WaitStatus.debug : WaitStatus → String
  | exited pid code => s!"Exited(Pid({pid}), {code})"
  | signaled pid sig core => "Signaled(Pid(" ++ toString pid ++ "), " ++ sig.name ++ ", " ++
      toString core ++ ")"
  | stopped pid sig => "Stopped(Pid(" ++ toString pid ++ "), " ++ sig.name ++ ")"
  | ptraceEvent pid sig event => "PtraceEvent(Pid(" ++ toString pid ++ "), " ++ sig.name ++ ", " ++
      toString event ++ ")"
  | ptraceSyscall pid => s!"PtraceSyscall(Pid({pid}))"
  | continued pid => s!"Continued(Pid({pid}))"
  | stillAlive => "StillAlive"

/-- The flags the code passes to `waitpid`. -/
inductive WaitFlags where
  | none
  | wall
  | wallNoThread
deriving DecidableEq, Repr

/-- `nix::sys::ptrace::Options`, the bits in use. -/
structure Options where
  tracesysgood : Bool := false
  exitkill : Bool := false
  traceclone : Bool := false
  tracefork : Bool := false
  tracevfork : Bool := false
  traceexec : Bool := false
deriving DecidableEq, Repr

/-! ## Registers -/

/-- The two supported architectures. -/
inductive Arch where
  | x86_64
  | aarch64
deriving DecidableEq, Repr

/-- `[u64; 6]`: the raw arguments of a syscall. -/
abbrev Args := Vector UInt64 6

/-- Syscall registers, normalized across architectures. -/
structure Registers where
  nr : UInt64
  ret : Int64
  args : Args
deriving DecidableEq, Repr

/-- The x86-64 `user_regs_struct`: the registers the code names, and the others. -/
structure X86Regs where
  rax : UInt64
  origRax : UInt64
  rdi : UInt64
  rsi : UInt64
  rdx : UInt64
  r10 : UInt64
  r8 : UInt64
  r9 : UInt64
  rip : UInt64
  others : List UInt64
deriving DecidableEq, Repr

/-- The aarch64 `user_regs_struct`. -/
structure Aarch64Regs where
  regs : Vector UInt64 31
  sp : UInt64
  pc : UInt64
  pstate : UInt64
deriving DecidableEq, Repr

/-- `FullRegs`: the register file of an architecture. -/
def FullRegs : Arch → Type
  | .x86_64 => X86Regs
  | .aarch64 => Aarch64Regs

/-- The syscall registers in a register file. -/
def normalize : (arch : Arch) → FullRegs arch → Registers
  | .x86_64, (r : X86Regs) =>
    { nr := r.origRax
      ret := r.rax.toInt64
      args := #v[r.rdi, r.rsi, r.rdx, r.r10, r.r8, r.r9] }
  | .aarch64, (r : Aarch64Regs) =>
    { nr := r.regs[8]!
      ret := r.regs[0]!.toInt64
      args := #v[r.regs[0]!, r.regs[1]!, r.regs[2]!, r.regs[3]!, r.regs[4]!, r.regs[5]!] }

/-- Syscall numbers that the code names. -/
inductive Syscall where
  | read
  | pread64
  | recvfrom
  | getrandom
  | clockGettime
  | clone
deriving DecidableEq, Repr

/-- `libc::SYS_*`. -/
def Syscall.num : Arch → Syscall → UInt64
  | .x86_64, read => 0
  | .x86_64, pread64 => 17
  | .x86_64, recvfrom => 45
  | .x86_64, getrandom => 318
  | .x86_64, clockGettime => 228
  | .x86_64, clone => 56
  | .aarch64, read => 63
  | .aarch64, pread64 => 67
  | .aarch64, recvfrom => 207
  | .aarch64, getrandom => 278
  | .aarch64, clockGettime => 113
  | .aarch64, clone => 220

/-! ## Calls -/

/-- One call into a system with state `ω`. -/
abbrev Call (ω ε α : Type) := ω → Except ε α × ω

/-- What the recorder and the replayer use of a Linux system. -/
class Ptrace (arch : Arch) (ω : Type) where
  /-- Spawn a command under `PTRACE_TRACEME`. -/
  spawnTraced : Cmdline → Call ω ByteIO.IoError Pid
  /-- `ptrace::syscall`: resume towards the next syscall stop. -/
  syscall : Pid → Option Signal → Call ω Errno Unit
  /-- `ptrace::step` without a signal. -/
  step : Pid → Call ω Errno Unit
  /-- `ptrace::kill`. -/
  kill : Pid → Call ω Errno Unit
  waitpid : Pid → WaitFlags → Call ω Errno WaitStatus
  setoptions : Pid → Options → Call ω Errno Unit
  /-- `ptrace::getevent`: the message of the last event stop, for a fork-family
  event the pid of the child. -/
  getevent : Pid → Call ω Errno Pid
  getregs : Pid → Call ω Errno (FullRegs arch)
  setregs : Pid → FullRegs arch → Call ω Errno Unit
  /-- Set the dispatched syscall number through `NT_ARM_SYSTEM_CALL`. -/
  setSyscallNr : Pid → Int32 → Call ω Errno Unit
  /-- The bytes `process_vm_readv` copied of the region. -/
  processVmReadv : Pid → UInt64 → Nat → Call ω Errno Bytes
  /-- How many bytes `process_vm_writev` copied. -/
  processVmWritev : Pid → UInt64 → Bytes → Call ω Errno Nat
  /-- `PTRACE_POKEUSER`, failing without an error number. -/
  pokeUser : Pid → Nat → UInt64 → Call ω Unit Unit
  /-- `PTRACE_SETREGSET` with `NT_ARM_HW_WATCH`: address and control word. -/
  setHwWatch : Pid → UInt64 → UInt32 → Call ω Unit Unit
  /-- The `si_code` of `ptrace::getsiginfo`. -/
  getsiginfo : Pid → Call ω Errno Int32

end Mirrorscope.Linux
