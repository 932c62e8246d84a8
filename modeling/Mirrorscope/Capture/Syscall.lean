import Mirrorscope.Capture.Payload
import Mirrorscope.Lib.Hosted

/-! # Capturing syscalls

What the recorder uses of its host besides `ptrace`, the errors of a recording, and
how the registers of a stopped thread become the events of its syscalls.
-/

namespace Mirrorscope.Capture

open Linux
open Run (Hosted)
open Trace (Event EventKind TraceError)

/-- Errors while recording a target. -/
inductive CaptureError where
  | spawn (error : ByteIO.IoError)
  | ptrace (error : Errno)
  | affinity (tid : Pid) (cpu : Nat) (source : Errno)
  | traceeRead (addr : UInt64) (len : Nat) (source : Errno)
  | trace (error : TraceError)
deriving DecidableEq, Repr

/-- Result of a completed recording. -/
structure RecordOutcome where
  exitCode : Option Int32
  eventsRecorded : Nat
  threadsFollowed : Nat
deriving DecidableEq, Repr

/-- What the recorder uses of its host: signals, CPU pinning, the one-shot timer, the
clock, and the sink of its trace writer. -/
class Host (ω : Type) where
  kill : Pid → Signal → Call ω Errno Unit
  schedSetaffinity : Pid → Nat → Call ω Errno Unit
  /-- Install the handler of the timer's signal and create the timer. -/
  timerCreate : Call ω Errno Unit
  /-- `timer_settime` to a duration in nanoseconds; zero disarms. -/
  setInterval : Nat → Call ω Errno Unit
  /-- Nanoseconds since the recording started. -/
  elapsed : ω → UInt64 × ω
  append : Event → Call ω TraceError Unit

/-! ## Events of a syscall -/

/-- A tid-tagged entry event for `regs`. -/
def enterEvent (timestampNs : UInt64) (tid : UInt32) (regs : Registers) : Event :=
  .newWithTid .syscallEnter timestampNs tid (SyscallEnter.encode { nr := regs.nr, args := regs.args })

/-- `TIMESPEC_LEN`. -/
def timespecLen : Nat := 16

/-- `ret as usize`. -/
def retLen (ret : Int64) : Nat := ret.toUInt64.toNat

/-- For a syscall whose result lives in tracee memory, the region the kernel wrote. -/
def kernelWrittenRegion (arch : Arch) (nr : UInt64) (args : Args) (ret : Int64) :
    Option (UInt64 × Nat) :=
  if (nr = Syscall.num arch .read ∨ nr = Syscall.num arch .pread64 ∨
      nr = Syscall.num arch .recvfrom) ∧ ret > 0 then some (args[1]!, retLen ret)
  else if nr = Syscall.num arch .getrandom ∧ ret > 0 then some (args[0]!, retLen ret)
  else if nr = Syscall.num arch .clockGettime ∧ ret = 0 then some (args[1]!, timespecLen)
  else none

/-- The payload of an exit carries the number its entry was recorded with. -/
def exitPayload (enter : Registers) (ret : Int64) (data : Bytes) : Bytes :=
  SyscallExit.encode { nr := enter.nr, ret, data }

section

variable {σ ω : Type} (arch : Arch) [Ptrace arch ω]

/-- Read `len` bytes of the tracee into a zeroed buffer. -/
def readTraceeMemory (pid : Pid) (addr : UInt64) (len : Nat) :
    Run CaptureError (Hosted σ ω) Bytes := do
  let copied ← Run.call (.traceeRead addr len) (Ptrace.processVmReadv arch pid addr len)
  pure (copied ++ List.replicate (len - copied.length) 0)

/-- The syscall registers of a stopped thread. -/
def readSyscallRegs (pid : Pid) : Run CaptureError (Hosted σ ω) Registers := do
  let regs ← Run.call .ptrace (Ptrace.getregs pid)
  pure (normalize arch regs)

/-- A tid-tagged exit event, with the region the kernel wrote. -/
def exitEvent (timestampNs : UInt64) (tid : UInt32) (pid : Pid) (enter : Registers) (ret : Int64) :
    Run CaptureError (Hosted σ ω) Event :=
  match kernelWrittenRegion arch enter.nr enter.args ret with
  | some (addr, len) => do
    let data ← readTraceeMemory arch pid addr len
    pure (.newWithTid .syscallExit timestampNs tid (exitPayload enter ret data))
  | none => pure (.newWithTid .syscallExit timestampNs tid (exitPayload enter ret []))

end

end Mirrorscope.Capture
