import Mirrorscope.Capture.Syscall
import Mirrorscope.Lib.ByteMemory

/-! # What the kernel writes

The effect of the syscalls whose results are captured on the memory of their caller, and
what the recorder takes from that memory. `recvfrom` may answer with the length of a
datagram that did not fit its buffer, and reports the sender through two more pointers.
-/

namespace Mirrorscope.Capture

open ByteMemory (Within)
open Linux

/-- `MAX_RW_COUNT`: no transfer is longer. -/
def maxRwCount : Nat := 0x7ffff000

/-- `MSG_TRUNC`, the flag that makes `recvfrom` answer with a datagram's own length. -/
def msgTrunc : UInt64 := 0x20

/-- `sizeof(struct sockaddr_storage)`: no address is longer. -/
def sockaddrLen : Nat := 128

/-- The values a syscall may return: an error, or a length its buffer has room for. -/
def MayReturn (arch : Arch) (nr : UInt64) (args : Args) (ret : Int64) : Prop :=
  ret < 0 ∨ 0 ≤ ret ∧ retLen ret ≤ maxRwCount ∧
    ((nr = Syscall.num arch .read ∨ nr = Syscall.num arch .pread64) ∧
        retLen ret ≤ args[2]!.toNat ∨
      nr = Syscall.num arch .recvfrom ∧
        (retLen ret ≤ args[2]!.toNat ∨ args[3]! &&& msgTrunc ≠ 0) ∨
      nr = Syscall.num arch .getrandom ∧ retLen ret ≤ args[1]!.toNat ∨
      nr = Syscall.num arch .clockGettime ∧ ret = 0)

/-- How much room the caller of `recvfrom` left for the sender's address. -/
def sourceRoom (m : ByteMemory) (args : Args) : Nat := LittleEndian.decode (m.range args[5]! 4)

/-- Report the sender: as much of its address as there is room for, and its length. -/
def writeSource (m : ByteMemory) (args : Args) (source : Bytes) : ByteMemory :=
  (m.write args[4]! (source.take (sourceRoom m args))).write args[5]!
    (LittleEndian.encode 4 source.length)

/-- A syscall that returned `ret` took the memory of its caller from `before` to the
indexed one. -/
inductive KernelWrote (arch : Arch) (nr : UInt64) (args : Args) (ret : Int64)
    (before : ByteMemory) : ByteMemory → Prop where
  | failed (hret : ret < 0) : KernelWrote arch nr args ret before before
  | read (hnr : nr = Syscall.num arch .read ∨ nr = Syscall.num arch .pread64) (hret : 0 ≤ ret)
      (data : Bytes) (hlen : data.length = retLen ret) :
      KernelWrote arch nr args ret before (before.write args[1]! data)
  | recvfrom (hnr : nr = Syscall.num arch .recvfrom) (hret : 0 ≤ ret) (data : Bytes)
      (hlen : data.length = min (retLen ret) args[2]!.toNat) (hsource : args[4]! = 0) :
      KernelWrote arch nr args ret before (before.write args[1]! data)
  | recvfromSource (hnr : nr = Syscall.num arch .recvfrom) (hret : 0 ≤ ret) (data : Bytes)
      (hlen : data.length = min (retLen ret) args[2]!.toNat) (hsource : args[4]! ≠ 0)
      (hroom : sourceRoom (before.write args[1]! data) args < 2 ^ 31) (source : Bytes)
      (hlong : source.length ≤ sockaddrLen) :
      KernelWrote arch nr args ret before
        (writeSource (before.write args[1]! data) args source)
  | getrandom (hnr : nr = Syscall.num arch .getrandom) (hret : 0 ≤ ret) (data : Bytes)
      (hlen : data.length = retLen ret) :
      KernelWrote arch nr args ret before (before.write args[0]! data)
  | clockGettime (hnr : nr = Syscall.num arch .clockGettime) (hret : ret = 0) (data : Bytes)
      (hlen : data.length = timespecLen) :
      KernelWrote arch nr args ret before (before.write args[1]! data)

/-- The buffer the caller passed for the data. -/
def InBuffer (arch : Arch) (nr : UInt64) (args : Args) (x : UInt64) : Prop :=
  (nr = Syscall.num arch .read ∨ nr = Syscall.num arch .pread64 ∨
      nr = Syscall.num arch .recvfrom) ∧ Within args[1]! args[2]!.toNat x ∨
    nr = Syscall.num arch .getrandom ∧ Within args[0]! args[1]!.toNat x ∨
    nr = Syscall.num arch .clockGettime ∧ Within args[1]! timespecLen x

/-- The bytes the recorder takes from the memory of a syscall's caller. -/
def IsCaptured (arch : Arch) (nr : UInt64) (args : Args) (ret : Int64) (x : UInt64) : Prop :=
  ∃ addr len, kernelWrittenRegion arch nr args ret = some (addr, len) ∧ Within addr len x

/-- The captured bytes, as the memory has them. -/
def capturedData (arch : Arch) (nr : UInt64) (args : Args) (ret : Int64) (m : ByteMemory) : Bytes :=
  match kernelWrittenRegion arch nr args ret with
  | some (addr, len) => m.range addr len
  | none => []

/-! ## What is captured -/

section Captured

variable {arch : Arch} {nr : UInt64} {args : Args} {ret : Int64}

/-- The syscalls that fill the buffer of their second argument. -/
def FillsSecond (arch : Arch) (nr : UInt64) : Prop :=
  nr = Syscall.num arch .read ∨ nr = Syscall.num arch .pread64 ∨ nr = Syscall.num arch .recvfrom

theorem not_fillsSecond_getrandom : ¬ FillsSecond arch (Syscall.num arch .getrandom) := by
  cases arch <;> simp [FillsSecond, Syscall.num]

theorem not_fillsSecond_clockGettime : ¬ FillsSecond arch (Syscall.num arch .clockGettime) := by
  cases arch <;> simp [FillsSecond, Syscall.num]

theorem clockGettime_ne_getrandom :
    Syscall.num arch .clockGettime ≠ Syscall.num arch .getrandom := by
  cases arch <;> decide

theorem retLen_zero : retLen 0 = 0 := rfl

theorem nonneg_cases (h : 0 ≤ ret) : 0 < ret ∨ ret = 0 := by
  rcases Int64.lt_or_eq_of_le h with hlt | heq
  · exact .inl hlt
  · exact .inr heq.symm

/-- Nothing is captured of a syscall that failed. -/
theorem capturedData_failed (hret : ret < 0) (m : ByteMemory) :
    capturedData arch nr args ret m = [] := by
  have hpos : ¬ ret > 0 := fun h => Int64.lt_asymm h hret
  have hzero : ret ≠ 0 := Int64.ne_of_lt hret
  simp [capturedData, kernelWrittenRegion, hpos, hzero]

/-- As many bytes as were returned are captured of the second argument's buffer. -/
theorem capturedData_fills (hnr : FillsSecond arch nr) (hret : 0 ≤ ret) (m : ByteMemory) :
    capturedData arch nr args ret m = m.range args[1]! (retLen ret) := by
  have hclock : nr ≠ Syscall.num arch .clockGettime := by
    rintro rfl
    exact not_fillsSecond_clockGettime hnr
  rcases nonneg_cases hret with hpos | rfl
  · simp [capturedData, kernelWrittenRegion, show nr = _ ∨ nr = _ ∨ nr = _ from hnr, hpos]
  · simp [capturedData, kernelWrittenRegion, hclock, retLen_zero, ByteMemory.range]

/-- As many bytes as were returned are captured of the buffer of `getrandom`. -/
theorem capturedData_getrandom (hret : 0 ≤ ret) (m : ByteMemory) :
    capturedData arch (Syscall.num arch .getrandom) args ret m =
      m.range args[0]! (retLen ret) := by
  have hother : ¬ (_ ∨ _ ∨ _) := @not_fillsSecond_getrandom arch
  have hclock := (@clockGettime_ne_getrandom arch).symm
  rcases nonneg_cases hret with hpos | rfl
  · simp [capturedData, kernelWrittenRegion, hother, hpos]
  · simp [capturedData, kernelWrittenRegion, hclock, retLen_zero, ByteMemory.range]

/-- The whole of a `timespec` is captured. -/
theorem capturedData_clockGettime (m : ByteMemory) :
    capturedData arch (Syscall.num arch .clockGettime) args 0 m =
      m.range args[1]! timespecLen := by
  have hother : ¬ (_ ∨ _ ∨ _) := @not_fillsSecond_clockGettime arch
  simp [capturedData, kernelWrittenRegion, hother]

/-- The captured bytes are those the data has an address for. -/
theorem isCaptured_fills (hnr : FillsSecond arch nr) (hret : 0 ≤ ret) (x : UInt64) :
    IsCaptured arch nr args ret x ↔ Within args[1]! (retLen ret) x := by
  have hclock : nr ≠ Syscall.num arch .clockGettime := by
    rintro rfl
    exact not_fillsSecond_clockGettime hnr
  rcases nonneg_cases hret with hpos | rfl
  · simp [IsCaptured, kernelWrittenRegion, show nr = _ ∨ nr = _ ∨ nr = _ from hnr, hpos]
  · simp [IsCaptured, kernelWrittenRegion, hclock, retLen_zero, ByteMemory.not_within_zero]

end Captured

/-! ## The memory of a traced system -/

/-- The user memory of the processes of a system, as `process_vm_readv` and
`process_vm_writev` move it: a transfer of one buffer is whole or fails. -/
structure UserMemory (arch : Arch) (ω : Type) [Ptrace arch ω] where
  mem : ω → Pid → ByteMemory
  readv : ∀ {pid addr len os bytes os'}, Ptrace.processVmReadv arch pid addr len os =
    (.ok bytes, os') → bytes = (mem os pid).range addr len
  writev : ∀ {pid addr data os n os'}, Ptrace.processVmWritev arch pid addr data os =
    (.ok n, os') → mem os' pid = (mem os pid).write addr data
  getregs : ∀ pid os, mem (@Ptrace.getregs arch ω _ pid os).2 pid = mem os pid
  setregs : ∀ pid regs os, mem (@Ptrace.setregs arch ω _ pid regs os).2 pid = mem os pid
  setSyscallNr : ∀ pid nr os, mem (Ptrace.setSyscallNr arch pid nr os).2 pid = mem os pid

end Mirrorscope.Capture
