import Mirrorscope.Decoder.PtraceView
import Mirrorscope.Replay.Remote

/-! # Remote reads

The three readers of a tracee's memory, and what their answers flow into: the syscall exits
of a recording, the watch values of a replay and the fields that the decoders read. All are
what the process holds just where the read was whole; none of the readers looks at the
count that says so.
-/

namespace Mirrorscope

open Linux
open Run (Hosted)
open Capture (Host ReadsTracee Recorded Scheduler kernelWrittenRegion syscallExitEvent)
open Replay (ReadsMemory Reachable Unwind World)
open Decoder (PtraceProcessView)

variable {arch : Arch} {ω : Type} [Ptrace arch ω]

/-- The bytes are the buffer of a filmed read, and what the process held then just where
that read was whole. -/
def HeldIfWhole (arch : Arch) [Ptrace arch ω] [RemoteMemory arch ω]
    (film : List (Shot RemoteRead ω)) (r : RemoteRead) (bytes : Bytes) : Prop :=
  ∃ os, Supplied arch film r bytes os ∧ (r.HeldBy arch os bytes ↔ r.Whole arch os)

variable [RemoteMemory arch ω]

theorem Linux.Supplied.heldIfWhole {film : List (Shot RemoteRead ω)} {r : RemoteRead}
    {bytes : Bytes} {os : ω} (h : Supplied arch film r bytes os) :
    HeldIfWhole arch film r bytes := ⟨os, h, h.held_iff⟩

/-- The data of a syscall exit. -/
theorem exits_held_iff [Host ω] {leader : Pid} {w : Hosted Scheduler (Filmed RemoteRead ω)}
    (h : Recorded arch leader w) {e : Trace.Event} (he : e ∈ w.object.writer)
    (hkind : e.kind = .syscallExit) :
    ∃ ts pid enter ret data, e = syscallExitEvent ts pid enter ret data ∧
      match kernelWrittenRegion arch enter.nr enter.args ret with
      | some (addr, len) => HeldIfWhole arch w.host.notes ⟨pid, addr, len⟩ data
      | none => data = [] := by
  obtain ⟨ts, pid, enter, ret, data, rfl, hregion⟩ := Capture.recorded_faithful h e he hkind
  refine ⟨ts, pid, enter, ret, data, rfl, ?_⟩
  unfold Capture.Region at hregion
  split
  · rename_i addr len heq
    rw [heq] at hregion
    obtain ⟨os, hos⟩ := hregion
    exact hos.heldIfWhole
  · rename_i heq
    rw [heq] at hregion
    exact hregion

/-- A read answers only with what the process holds just where it copies the whole region
(or leaves out zeros only); and so do the syscall exits of a recording, the watch values
of a replay and the fields of a decoder. -/
theorem remote_reads_held_iff (arch : Arch) [Ptrace arch ω] [RemoteMemory arch ω] [Host ω]
    [Unwind ω] :
    -- the recorder, the replayer and the decoders' view
    (∀ {σ : Type} (r : RemoteRead) (w : Hosted σ ω),
      (∀ bytes, ReadsTracee arch r w bytes → r.HeldBy arch w.host bytes) ↔
        r.Whole arch w.host) ∧
    (∀ (r : RemoteRead) (w : World ω),
      (∀ bytes, ReadsMemory arch r w bytes → r.HeldBy arch w.os bytes) ↔ r.Whole arch w.os) ∧
    (∀ (display : Errno → String) (v : PtraceProcessView ω) (addr : UInt64) (len : Nat),
      (∀ bytes, v.readMemory arch display addr len = .ok bytes →
          (v.read addr len).HeldBy arch v.os bytes) ↔
        (v.read addr len).Whole arch v.os) ∧
    -- syscall exits
    (∀ (leader : Pid) (w : Hosted Scheduler (Filmed RemoteRead ω)), Recorded arch leader w →
      ∀ e ∈ w.object.writer, e.kind = .syscallExit →
        ∃ ts pid enter ret data, e = syscallExitEvent ts pid enter ret data ∧
          match kernelWrittenRegion arch enter.nr enter.args ret with
          | some (addr, len) => HeldIfWhole arch w.host.notes ⟨pid, addr, len⟩ data
          | none => data = []) ∧
    -- watch values
    (∀ w : World (Filmed RemoteRead ω), Reachable arch w →
      ∀ value ∈ w.session.watchValues, ∃ r, HeldIfWhole arch w.os.notes r value) ∧
    -- decoded fields
    ∀ (display : Errno → String) (v : PtraceProcessView ω) (rest : Decoder.ProcessView)
      (addr : UInt64),
      let view := v.toView arch display rest
      ((∀ n, Decoder.Go.readU64 view addr = .ok n →
          (v.read addr 8).HeldBy arch v.os (LittleEndian.encode 8 n.toNat)) ↔
        (v.read addr 8).Whole arch v.os) ∧
      ((∀ n, Decoder.Go.readU32 view addr = .ok n →
          (v.read addr 4).HeldBy arch v.os (LittleEndian.encode 4 n.toNat)) ↔
        (v.read addr 4).Whole arch v.os) ∧
      ((∀ b, Decoder.Go.readU8 view addr = .ok b → (v.read addr 1).HeldBy arch v.os [b]) ↔
        (v.read addr 1).Whole arch v.os) ∧
      ((∀ n, Decoder.AsyncRust.readU64 view addr = .ok n →
          (v.read addr 8).HeldBy arch v.os (LittleEndian.encode 8 n.toNat)) ↔
        (v.read addr 8).Whole arch v.os) ∧
      ∀ base layout discr, Decoder.AsyncRust.readDiscriminant view base layout = .ok discr →
        ∃ bytes, discr = Decoder.AsyncRust.orBytes bytes ∧
          let r := v.read (base + layout.discrOffset) layout.discrSize.toNat
          (r.HeldBy arch v.os bytes ↔ r.Whole arch v.os) := by
  refine ⟨fun r w => r.all_or_error_iff (Capture.readsTracee_iff r w),
    fun r w => r.all_or_error_iff (Replay.readsMemory_iff r w),
    fun display v addr len =>
      (v.read addr len).all_or_error_iff PtraceProcessView.readMemory_iff,
    fun leader w hw e he hkind => exits_held_iff hw he hkind, ?_, ?_⟩
  · intro w hw value hvalue
    obtain ⟨r, os, hsupplied⟩ := Replay.reachable_remembered hw value hvalue
    exact ⟨r, hsupplied.heldIfWhole⟩
  · intro display v rest addr
    refine ⟨(PtraceProcessView.readsField_readU64 rest).held_iff,
      (PtraceProcessView.readsField_readU32 rest).held_iff,
      (PtraceProcessView.readsField_readU8 rest).held_iff,
      (PtraceProcessView.readsField_task_readU64 rest).held_iff, ?_⟩
    intro base layout discr hdiscr
    obtain ⟨bytes, hread, rfl⟩ :=
      (PtraceProcessView.readDiscriminant_iff rest base layout discr).mp hdiscr
    refine ⟨bytes, rfl, ?_⟩
    obtain ⟨copied, hcopies, rfl⟩ := (PtraceProcessView.readMemory_iff bytes).mp hread
    exact RemoteRead.buffer_held_iff hcopies

/-! ## The end of a mapping -/

/-- A process whose memory ends after one page, which is all ones. -/
structure OnePage where

namespace OnePage

def memory : PartialMemory := fun addr =>
  if 0x1000 ≤ addr ∧ addr < 0x2000 then some 0xFF else none

/-- The kernel copies up to the end of the page, and fails outside of it. -/
def processVmReadv (addr : UInt64) (len : Nat) : Except Errno Bytes :=
  match memory.mapped addr len, len with
  | [], _ + 1 => .error Errno.EFAULT
  | bytes, _ => .ok bytes

instance : Ptrace .x86_64 OnePage where
  spawnTraced _ p := (.ok 1, p)
  syscall _ _ p := (.ok (), p)
  step _ p := (.ok (), p)
  kill _ p := (.ok (), p)
  waitpid _ _ p := (.error Errno.ECHILD, p)
  setoptions _ _ p := (.ok (), p)
  getevent _ p := (.error Errno.ESRCH, p)
  getregs _ p := (.error Errno.ESRCH, p)
  setregs _ _ p := (.ok (), p)
  setSyscallNr _ _ p := (.ok (), p)
  processVmReadv _ addr len p := (processVmReadv addr len, p)
  processVmWritev _ _ data p := (.ok data.length, p)
  pokeUser _ _ _ p := (.ok (), p)
  setHwWatch _ _ _ p := (.ok (), p)
  getsiginfo _ p := (.error Errno.ESRCH, p)

instance : RemoteMemory .x86_64 OnePage where
  mem _ _ := memory
  readv := by
    intro pid addr len os copied os' h
    obtain ⟨h, -⟩ := Prod.mk.inj h
    unfold processVmReadv at h
    split at h
    · cases h
    · rcases Except.ok.inj h with rfl
      exact ⟨PartialMemory.length_mapped _ _ _, PartialMemory.holds_mapped _ _ _⟩

end OnePage

/-- A read across the end of the page: all three readers answer with four ones and four
zeros that the process does not hold. -/
theorem reads_past_the_page :
    let r : RemoteRead := ⟨1, 0x1FFC, 8⟩
    let bytes : Bytes := [0xFF, 0xFF, 0xFF, 0xFF, 0, 0, 0, 0]
    ReadsTracee .x86_64 r (⟨(), ⟨⟩⟩ : Hosted Unit OnePage) bytes ∧
      ReadsMemory .x86_64 r (⟨.ofTrace ⟨"", []⟩ [], ⟨⟩⟩ : World OnePage) bytes ∧
      (⟨1, ⟨⟩⟩ : PtraceProcessView OnePage).readMemory .x86_64 (fun _ => "") 0x1FFC 8 = .ok bytes ∧
      ¬ r.HeldBy .x86_64 (⟨⟩ : OnePage) bytes := by
  intro r bytes
  have hcopies : r.copies .x86_64 (⟨⟩ : OnePage) [0xFF, 0xFF, 0xFF, 0xFF] := by
    show OnePage.processVmReadv 0x1FFC 8 = _
    decide +kernel
  refine ⟨(Capture.readsTracee_iff r _ bytes).mpr ⟨_, hcopies, rfl⟩,
    (Replay.readsMemory_iff r _ bytes).mpr ⟨_, hcopies, rfl⟩,
    (PtraceProcessView.readMemory_iff bytes).mpr ⟨_, hcopies, rfl⟩, ?_⟩
  rintro ⟨-, hheld⟩
  -- the fifth byte is the first after the page
  have hnone : OnePage.memory 0x2000 = some 0 := hheld 4 0 rfl
  cases hnone

end Mirrorscope
