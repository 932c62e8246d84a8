import Mirrorscope.Lib.PartialMemory
import Mirrorscope.Linux.Monitored

/-! # Reads of remote memory

`process_vm_readv` fails or copies a prefix of the region. A reader that hands it a buffer
of zeros and does not look at the count has the rest of the buffer as it was. A system can
be made to film these reads, each with its state before the read.
-/

namespace Mirrorscope.Linux

variable {arch : Arch} {ω : Type}

/-- The memory of the processes of a system, as `process_vm_readv` copies it. -/
class RemoteMemory (arch : Arch) (ω : Type) [Ptrace arch ω] where
  mem : ω → Pid → PartialMemory
  readv : ∀ {pid addr len os copied os'}, Ptrace.processVmReadv arch pid addr len os =
    (.ok copied, os') → copied.length ≤ len ∧ (mem os pid).Holds addr copied

/-- A read: of whom, where, and of how many bytes. -/
structure RemoteRead where
  pid : Pid
  addr : UInt64
  len : Nat
deriving DecidableEq, Repr

/-- A buffer of `len` zeros into which the bytes were copied. -/
def buffer (len : Nat) (copied : Bytes) : Bytes := copied ++ List.replicate (len - copied.length) 0

section

variable [Ptrace arch ω]

/-- What a read copies, if the call succeeds. -/
def RemoteRead.copies (arch : Arch) [Ptrace arch ω] (r : RemoteRead) (os : ω) (copied : Bytes) :
    Prop :=
  (Ptrace.processVmReadv arch r.pid r.addr r.len os).1 = .ok copied

/-- The bytes are those that the process holds in the region, all of them. -/
def RemoteRead.HeldBy (arch : Arch) [Ptrace arch ω] [RemoteMemory arch ω] (r : RemoteRead) (os : ω)
    (bytes : Bytes) : Prop :=
  bytes.length = r.len ∧ (RemoteMemory.mem arch os r.pid).Holds r.addr bytes

/-- The read fails, or copies all of the region but zeros at its end. -/
def RemoteRead.Whole (arch : Arch) [Ptrace arch ω] [RemoteMemory arch ω] (r : RemoteRead) (os : ω) :
    Prop :=
  ∀ copied, r.copies arch os copied →
    (RemoteMemory.mem arch os r.pid).ZeroFrom r.addr copied.length r.len

variable [RemoteMemory arch ω] {r : RemoteRead} {os : ω} {copied : Bytes}

theorem RemoteRead.copies_held (h : r.copies arch os copied) :
    copied.length ≤ r.len ∧ (RemoteMemory.mem arch os r.pid).Holds r.addr copied :=
  RemoteMemory.readv (Prod.ext h rfl)

/-- The buffer is what the process holds just where the read is whole. -/
theorem RemoteRead.buffer_held_iff (h : r.copies arch os copied) :
    r.HeldBy arch os (buffer r.len copied) ↔ r.Whole arch os := by
  obtain ⟨hlen, hheld⟩ := r.copies_held h
  constructor
  · rintro ⟨-, hbuffer⟩ copied' h'
    rcases Except.ok.inj (h.symm.trans h') with rfl
    exact (PartialMemory.holds_padded hlen hheld).mp hbuffer
  · intro hwhole
    refine ⟨?_, (PartialMemory.holds_padded hlen hheld).mpr (hwhole copied h)⟩
    rw [buffer, List.length_append, List.length_replicate]
    omega

/-- A reader that answers with the buffer of its read answers with what the process holds
just where the read is whole. -/
theorem RemoteRead.all_or_error_iff {Answers : Bytes → Prop}
    (h : ∀ bytes, Answers bytes ↔ ∃ copied, r.copies arch os copied ∧ bytes = buffer r.len copied) :
    (∀ bytes, Answers bytes → r.HeldBy arch os bytes) ↔ r.Whole arch os := by
  constructor
  · intro hall copied hcopies
    have hheld := hall _ ((h _).mpr ⟨copied, hcopies, rfl⟩)
    exact (r.buffer_held_iff hcopies).mp hheld copied hcopies
  · intro hwhole bytes hbytes
    obtain ⟨copied, hcopies, rfl⟩ := (h bytes).mp hbytes
    exact (r.buffer_held_iff hcopies).mpr hwhole

end

/-! ## Filmed reads -/

instance [Ptrace arch ω] : Ptrace arch (Filmed RemoteRead ω) where
  spawnTraced cmdline := Monitored.silent (Ptrace.spawnTraced arch cmdline)
  syscall pid sig := Monitored.silent (Ptrace.syscall arch pid sig)
  step pid := Monitored.silent (Ptrace.step arch pid)
  kill pid := Monitored.silent (Ptrace.kill arch pid)
  waitpid pid flags := Monitored.silent (Ptrace.waitpid arch pid flags)
  setoptions pid options := Monitored.silent (Ptrace.setoptions arch pid options)
  getevent pid := Monitored.silent (Ptrace.getevent arch pid)
  getregs pid := Monitored.silent (Ptrace.getregs pid)
  setregs pid regs := Monitored.silent (Ptrace.setregs pid regs)
  setSyscallNr pid nr := Monitored.silent (Ptrace.setSyscallNr arch pid nr)
  processVmReadv pid addr len :=
    Filmed.film (fun _ => ⟨pid, addr, len⟩) (Ptrace.processVmReadv arch pid addr len)
  processVmWritev pid addr data := Monitored.silent (Ptrace.processVmWritev arch pid addr data)
  pokeUser pid offset data := Monitored.silent (Ptrace.pokeUser arch pid offset data)
  setHwWatch pid addr ctrl := Monitored.silent (Ptrace.setHwWatch arch pid addr ctrl)
  getsiginfo pid := Monitored.silent (Ptrace.getsiginfo arch pid)

/-- The bytes are the buffer of a read in the film. -/
def Supplied (arch : Arch) [Ptrace arch ω] (film : List (Shot RemoteRead ω)) (r : RemoteRead)
    (bytes : Bytes) (os : ω) : Prop :=
  (∃ after, ⟨r, os, after⟩ ∈ film) ∧ ∃ copied, r.copies arch os copied ∧ bytes = buffer r.len copied

theorem Supplied.append [Ptrace arch ω] {film more : List (Shot RemoteRead ω)} {r : RemoteRead}
    {bytes : Bytes} {os : ω} (h : Supplied arch film r bytes os) :
    Supplied arch (film ++ more) r bytes os := by
  obtain ⟨⟨after, hmem⟩, hcopied⟩ := h
  exact ⟨⟨after, List.mem_append_left more hmem⟩, hcopied⟩

theorem Supplied.held_iff [Ptrace arch ω] [RemoteMemory arch ω] {film : List (Shot RemoteRead ω)}
    {r : RemoteRead} {bytes : Bytes} {os : ω} (h : Supplied arch film r bytes os) :
    r.HeldBy arch os bytes ↔ r.Whole arch os := by
  obtain ⟨-, copied, hcopies, rfl⟩ := h
  exact r.buffer_held_iff hcopies

end Mirrorscope.Linux
