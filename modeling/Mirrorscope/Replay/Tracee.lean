import Mirrorscope.Replay.State

/-! # Access to a stopped tracee

Registers, memory and debug registers of the replay tracee: reading and
rewriting the syscall in flight, deciding which results are fed from the trace,
moving bytes, and arming the hardware watchpoint.
-/

namespace Mirrorscope.Replay

open Linux

variable {ω : Type} (arch : Arch) [Ptrace arch ω]

/-! ## Registers -/

namespace Regs

/-- The register file of a stopped tracee (`save_full`). -/
def saveFull (pid : Pid) : Method ω (FullRegs arch) :=
  os (Ptrace.getregs pid)

/-- Write a register file back (`restore_full`). -/
def restoreFull (pid : Pid) (regs : FullRegs arch) : Method ω Unit :=
  os (Ptrace.setregs pid regs)

/-- The syscall registers of a stopped tracee. -/
def read (pid : Pid) : Method ω Registers := do
  let regs ← saveFull arch pid
  pure (normalize arch regs)

/-- A register file with the dispatched syscall number rewritten to -1; aarch64
keeps that number elsewhere. -/
def withSuppressed : (arch : Arch) → FullRegs arch → FullRegs arch
  | .x86_64, (r : X86Regs) => { r with origRax := 0xFFFFFFFFFFFFFFFF }
  | .aarch64, (r : Aarch64Regs) => r

/-- Cancel the pending syscall at its entry stop. -/
def suppressSyscall (pid : Pid) : Method ω Unit :=
  match arch with
  | .x86_64 => do
    let regs ← saveFull arch pid
    restoreFull arch pid (withSuppressed arch regs)
  | .aarch64 => os (Ptrace.setSyscallNr arch pid (-1))

/-- A register file with another return value. -/
def withReturn : (arch : Arch) → Int64 → FullRegs arch → FullRegs arch
  | .x86_64, ret, (r : X86Regs) => { r with rax := ret.toUInt64 }
  | .aarch64, ret, (r : Aarch64Regs) => { r with regs := r.regs.set! 0 ret.toUInt64 }

/-- Overwrite the return-value register at a syscall exit stop. -/
def setReturn (pid : Pid) (ret : Int64) : Method ω Unit := do
  let regs ← saveFull arch pid
  restoreFull arch pid (withReturn arch ret regs)

/-- `libc::SIGCHLD`. -/
def sigchld : UInt64 := 17

/-- Rewind a register file to its syscall instruction and make that a
`clone(SIGCHLD)`. -/
def prepareFork : (arch : Arch) → FullRegs arch → FullRegs arch
  | .x86_64, (r : X86Regs) =>
    { r with
      rip := r.rip - 2
      rax := Syscall.num .x86_64 .clone
      origRax := Syscall.num .x86_64 .clone
      rdi := sigchld
      rsi := 0
      rdx := 0
      r10 := 0
      r8 := 0
      r9 := 0 }
  | .aarch64, (r : Aarch64Regs) =>
    { r with
      pc := r.pc - 4
      regs := ((((((r.regs.set! 8 (Syscall.num .aarch64 .clone)).set! 0 sigchld).set! 1 0).set! 2
        0).set! 3 0).set! 4 0) }

end Regs

/-! ## Injection -/

/-- For a syscall whose result the kernel wrote into tracee memory, where. -/
def injectionAddr (nr : UInt64) (args : Args) : Option UInt64 :=
  if nr = Syscall.num arch .read ∨ nr = Syscall.num arch .pread64 ∨
      nr = Syscall.num arch .recvfrom then some args[1]!
  else if nr = Syscall.num arch .getrandom then some args[0]!
  else if nr = Syscall.num arch .clockGettime then some args[1]!
  else none

/-- Write recorded bytes into the tracee; a short write is an error. -/
def writeMemory (pid : Pid) (addr : UInt64) (data : Bytes) : Method ω Unit :=
  if data.isEmpty then pure ()
  else do
    let written ← osOr (.memory addr data.length) (Ptrace.processVmWritev arch pid addr data)
    if written ≠ data.length then Run.fail (.memory addr data.length Errno.EFAULT)
    else pure ()

/-- Read `len` bytes of the tracee into a zeroed buffer. -/
def readMemory (pid : Pid) (addr : UInt64) (len : Nat) : Method ω Bytes := do
  let copied ← osOr (.memory addr len) (Ptrace.processVmReadv arch pid addr len)
  pure (copied ++ List.replicate (len - copied.length) 0)

/-! ## Watchpoints -/

/-- The lengths a hardware watchpoint supports. -/
def isValidLen (len : UInt8) : Bool := len == 1 || len == 2 || len == 4 || len == 8

/-- Whether the range lies in one aligned granule of eight bytes. -/
def fitsInGranule (addr : UInt64) (len : UInt8) : Bool := (addr &&& 7) + len.toUInt64 ≤ 8

def validate (addr : UInt64) (len : UInt8) : Except WatchpointError Unit :=
  if ¬ isValidLen len then .error (.invalidLen len)
  else if addr % len.toUInt64 ≠ 0 ∨ ¬ fitsInGranule addr len then .error (.misaligned addr len)
  else .ok ()

def x86LenBits (len : UInt8) : Except WatchpointError UInt64 :=
  if len = 1 then .ok 0
  else if len = 2 then .ok 1
  else if len = 8 then .ok 2
  else if len = 4 then .ok 3
  else .error (.invalidLen len)

def x86RwBits : WatchKind → UInt64
  | .write => 1
  | .readWrite => 3

/-- `DR7` for slot 0. -/
def x86Dr7 (kind : WatchKind) (len : UInt8) : Except WatchpointError UInt64 := do
  let lenBits ← x86LenBits len
  .ok ((1 : UInt64) ||| (x86RwBits kind <<< 16) ||| (lenBits <<< 18))

def aarch64Lsc : WatchKind → UInt32
  | .write => 2
  | .readWrite => 3

def aarch64Bas (addr : UInt64) (len : UInt8) : UInt32 :=
  (((1 <<< len.toUInt32) - 1) &&& 0xff) <<< (addr &&& 7).toUInt32

/-- Aligned address and control word for the `NT_ARM_HW_WATCH` regset. -/
def aarch64Control (addr : UInt64) (len : UInt8) (kind : WatchKind) :
    Except WatchpointError (UInt64 × UInt32) :=
  if ¬ isValidLen len then .error (.invalidLen len)
  else
    .ok (addr &&& ~~~ 7,
      (1 : UInt32) ||| ((2 : UInt32) <<< 1) ||| (aarch64Lsc kind <<< 3) ||| (aarch64Bas addr len <<< 5))

namespace WatchHw

/-- `USER_DEBUGREG_OFFSET` and the slots of `DR0`, `DR6` and `DR7`. -/
def dr0Offset : Nat := 848
def dr6Offset : Nat := dr0Offset + 6 * 8
def dr7Offset : Nat := dr0Offset + 7 * 8

def pokeUser (pid : Pid) (offset : Nat) (data : UInt64) : Method ω Unit :=
  osOr (fun _ => .watchpoint "PTRACE_POKEUSER on a debug register failed")
    (Ptrace.pokeUser arch pid offset data)

def setHwWatch (pid : Pid) (addr : UInt64) (ctrl : UInt32) : Method ω Unit :=
  osOr (fun _ => .watchpoint "PTRACE_SETREGSET on the watchpoint regset failed")
    (Ptrace.setHwWatch arch pid addr ctrl)

/-- Arm debug slot 0. -/
def arm (pid : Pid) (addr : UInt64) (len : UInt8) (kind : WatchKind) : Method ω Unit :=
  match arch with
  | .x86_64 => do
    let dr7 ← orFail .watchpointRequest (x86Dr7 kind len)
    pokeUser arch pid dr0Offset addr
    pokeUser arch pid dr7Offset dr7
  | .aarch64 => do
    let (aligned, ctrl) ← orFail .watchpointRequest (aarch64Control addr len kind)
    setHwWatch arch pid aligned ctrl

def disarm (pid : Pid) : Method ω Unit :=
  match arch with
  | .x86_64 => pokeUser arch pid dr7Offset 0
  | .aarch64 => setHwWatch arch pid 0 0

/-- `TRAP_HWBKPT`. -/
def trapHwbkpt : Int32 := 4

/-- Whether the current `SIGTRAP` stop is a watchpoint hit. -/
def isWatchHit (pid : Pid) : Method ω Bool := do
  let siCode ← os (Ptrace.getsiginfo arch pid)
  pure (siCode == trapHwbkpt)

end WatchHw

section Hits

variable [Unwind ω]

/-- Whether the current `SIGTRAP` stop is a hit of the session's watchpoint. -/
def isWatchHit (pid : Pid) : Method ω Bool := do
  let s ← self
  match s.watchpoint with
  | none => pure false
  | some _ => WatchHw.isWatchHit arch pid

/-- The cached unwinder, else one for `pid`. -/
def unwinderFor (pid : Pid) : Option RemoteUnwinder → Method ω RemoteUnwinder
  | some unwinder => pure unwinder
  | none => do
    osOr .unwind (Unwind.forPid pid)
    pure { pid }

/-- The pc and the symbolized stack, through the cached unwinder. A failing
unwinder is not put back. -/
def captureBacktrace (pid : Pid) : Method ω (UInt64 × List SymbolizedFrame) := do
  let s ← self
  modifySelf fun s => { s with unwinder := none }
  let unwinder ← unwinderFor pid s.unwinder
  let pc ← osOr .unwind (Unwind.registers unwinder.pid)
  let frames ← osOr .unwind (Unwind.backtrace unwinder.pid pc)
  modifySelf fun s => { s with unwinder := some unwinder }
  pure (pc, frames)

/-- x86-64 traps after the access: clear the sticky status. aarch64 traps before
it: disarm, step over it, re-arm. -/
def stepOverWatch (pid : Pid) : Method ω Unit :=
  match arch with
  | .x86_64 => WatchHw.pokeUser arch pid WatchHw.dr6Offset 0
  | .aarch64 => do
    let s ← self
    match s.watchpoint with
    | none => pure ()
    | some wp =>
      WatchHw.disarm arch pid
      os (Ptrace.step arch pid)
      match ← os (Ptrace.waitpid arch pid .wall) with
      | .stopped _ .trap => WatchHw.arm arch pid wp.addr wp.len wp.kind
      | _ => Run.fail (.watchpoint "unexpected stop while stepping over a watchpoint hit")

/-- Service a watchpoint hit; the `SIGTRAP` is swallowed. -/
def onWatchHit (pid : Pid) : Method ω Unit := do
  let s ← self
  match s.watchpoint with
  | none => pure ()
  | some wp =>
    let (pc, backtrace) ← captureBacktrace pid
    stepOverWatch arch pid
    let newValue ← readMemory arch pid wp.addr wp.len.toNat
    modifySelf fun s =>
      { s with
        lastValue := some newValue
        watchHits := s.watchHits ++
          [{ seq := s.currentSeq, pc, oldValue := s.lastValue, newValue, backtrace }] }

end Hits

end Mirrorscope.Replay
