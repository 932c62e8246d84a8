import Mirrorscope.Decoder.OwnedTasks
import Mirrorscope.Decoder.Go
import Mirrorscope.Linux.Remote

/-! # The process view over ptrace

How the decoders read a stopped process, and what the fields they decode say of its
memory.
-/

namespace Mirrorscope.Decoder

open Linux

variable {ω α ε : Type}

/-- A stopped process, as far as its memory is read. -/
structure PtraceProcessView (ω : Type) where
  pid : Pid
  os : ω

namespace PtraceProcessView

variable (arch : Arch) [Ptrace arch ω] (display : Errno → String) (v : PtraceProcessView ω)

/-- Read `len` bytes of the process into a zeroed buffer. -/
def readMemory (addr : UInt64) (len : Nat) : Except DecoderError Bytes :=
  match (Ptrace.processVmReadv arch v.pid addr len v.os).1 with
  | .ok copied => .ok (buffer len copied)
  | .error e => .error (.memoryReadFailed addr len (display e))

/-- A view that reads the process; its other methods are those of `rest`. -/
def toView (rest : ProcessView) : ProcessView :=
  { rest with readMemory := v.readMemory arch display }

/-- A read of `len` bytes at an address. -/
def read (addr : UInt64) (len : Nat) : RemoteRead := ⟨v.pid, addr, len⟩

/-! ## Fields -/

/-- A computation that reads a field of a width and decodes it: `encode` gives back the
bytes it has read. -/
def ReadsField (rest : ProcessView) (addr : UInt64) (width : Nat) (encode : α → Bytes)
    (field : Except ε α) : Prop :=
  ∀ bytes, (∃ a, field = .ok a ∧ bytes = encode a) ↔
    (v.toView arch display rest).readMemory addr width = .ok bytes

variable {arch display v} {addr : UInt64} {len width : Nat}

theorem readMemory_iff (bytes : Bytes) :
    v.readMemory arch display addr len = .ok bytes ↔
      ∃ copied, (v.read addr len).copies arch v.os copied ∧ bytes = buffer len copied := by
  unfold readMemory RemoteRead.copies read
  cases (Ptrace.processVmReadv arch v.pid addr len v.os).1 with
  | error e => simp
  | ok copied => simp [eq_comm]

variable [RemoteMemory arch ω]

theorem length_readMemory {bytes : Bytes} (h : v.readMemory arch display addr len = .ok bytes) :
    bytes.length = len := by
  obtain ⟨copied, hcopies, rfl⟩ := (readMemory_iff bytes).mp h
  have hle : copied.length ≤ len := ((v.read addr len).copies_held hcopies).1
  rw [buffer, List.length_append, List.length_replicate]
  omega

/-- A field is made of bytes that the process holds just where its read is whole. -/
theorem ReadsField.held_iff {rest : ProcessView} {encode : α → Bytes} {field : Except ε α}
    (h : ReadsField arch display v rest addr width encode field) :
    (∀ a, field = .ok a → (v.read addr width).HeldBy arch v.os (encode a)) ↔
      (v.read addr width).Whole arch v.os := by
  refine Iff.trans ?_ ((v.read addr width).all_or_error_iff fun bytes =>
    (h bytes).trans (readMemory_iff bytes))
  constructor
  · rintro hall bytes ⟨a, ha, rfl⟩
    exact hall a ha
  · exact fun hall a ha => hall (encode a) ⟨a, ha, rfl⟩

variable (rest : ProcessView)

/-- A little-endian number of a width. -/
theorem readsField_number {ofNat : Nat → α} {toNat : α → Nat}
    (hround : ∀ n, n < 256 ^ width → toNat (ofNat n) = n) (short : DecoderError) :
    ReadsField arch display v rest addr width (fun a => LittleEndian.encode width (toNat a))
      (do
        let bytes ← (v.toView arch display rest).readMemory addr width
        if bytes.length = width then pure (ofNat (LittleEndian.decode bytes))
        else throw short) := by
  intro bytes
  cases hread : (v.toView arch display rest).readMemory addr width with
  | error e => simp [bind, Except.bind]
  | ok read =>
    have hlen : read.length = width := length_readMemory hread
    have hdecode : LittleEndian.encode width (toNat (ofNat (LittleEndian.decode read))) = read := by
      rw [hround _ (hlen ▸ LittleEndian.decode_lt read)]
      exact LittleEndian.encode_decode_of_length hlen
    simp [bind, Except.bind, hlen, pure, Except.pure, hdecode, eq_comm]

theorem readsField_readU64 :
    ReadsField arch display v rest addr 8 (fun n : UInt64 => LittleEndian.encode 8 n.toNat)
      (Go.readU64 (v.toView arch display rest) addr) :=
  readsField_number rest (fun _ h => LittleEndian.toNat_ofNat_u64 h) _

theorem readsField_readU32 :
    ReadsField arch display v rest addr 4 (fun n : UInt32 => LittleEndian.encode 4 n.toNat)
      (Go.readU32 (v.toView arch display rest) addr) :=
  readsField_number rest (fun _ h => LittleEndian.toNat_ofNat_u32 h) _

theorem readsField_readU8 :
    ReadsField arch display v rest addr 1 (fun b : UInt8 => [b])
      (Go.readU8 (v.toView arch display rest) addr) := by
  intro bytes
  unfold Go.readU8
  cases hread : (v.toView arch display rest).readMemory addr 1 with
  | error e => simp [bind, Except.bind]
  | ok read =>
    obtain ⟨b, rfl⟩ := List.length_eq_one_iff.mp (length_readMemory hread)
    simp [bind, Except.bind, pure, Except.pure, eq_comm]

theorem readsField_task_readU64 :
    ReadsField arch display v rest addr 8 (fun n : UInt64 => LittleEndian.encode 8 n.toNat)
      (AsyncRust.readU64 (v.toView arch display rest) addr) :=
  readsField_number rest (fun _ h => LittleEndian.toNat_ofNat_u64 h) _

omit [RemoteMemory arch ω] in
/-- A discriminant is made of the bytes of its region. -/
theorem readDiscriminant_iff (base : UInt64) (layout : AsyncRust.AsyncFnLayout) (discr : UInt64) :
    AsyncRust.readDiscriminant (v.toView arch display rest) base layout = .ok discr ↔
      ∃ bytes, v.readMemory arch display (base + layout.discrOffset) layout.discrSize.toNat =
        .ok bytes ∧ discr = AsyncRust.orBytes bytes := by
  show (v.readMemory arch display (base + layout.discrOffset) layout.discrSize.toNat >>=
    fun bytes => pure (AsyncRust.orBytes bytes)) = .ok discr ↔ _
  cases v.readMemory arch display (base + layout.discrOffset) layout.discrSize.toNat with
  | error e => simp [bind, Except.bind]
  | ok bytes => simp [bind, Except.bind, pure, Except.pure, eq_comm]

end PtraceProcessView

end Mirrorscope.Decoder
