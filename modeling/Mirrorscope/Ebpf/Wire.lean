import Mirrorscope.Capture.Payload

/-! # Raw syscall events

The fixed layout in which the kernel side of the eBPF recorder hands its observations to the
collector, over a ring buffer that may pad what it returns.
-/

namespace Mirrorscope.Ebpf

open Capture (encodeWords leField_encodeWords length_encodeWords)
open Linux (Args)
open Trace (leField leField_at)

/-- `KIND_ENTER`. -/
def kindEnter : UInt8 := 0

/-- `KIND_EXIT`. -/
def kindExit : UInt8 := 1

/-- `RAW_EVENT_LEN`. -/
def rawEventLen : Nat := 1 + 3 + 4 + 4 + 8 + 8 + 6 * 8 + 8

/-- One syscall entry or exit, as the kernel side saw it. -/
structure RawSyscallEvent where
  kind : UInt8
  tgid : UInt32
  tid : UInt32
  timestampNs : UInt64
  nr : UInt64
  args : Args
  ret : Int64
deriving DecidableEq, Repr

namespace RawSyscallEvent

/-- The fields before the arguments; three bytes of padding follow the kind. -/
def head (v : RawSyscallEvent) : Bytes :=
  v.kind :: List.replicate 3 0 ++ LittleEndian.encode 4 v.tgid.toNat ++
    LittleEndian.encode 4 v.tid.toNat ++ LittleEndian.encode 8 v.timestampNs.toNat ++
    LittleEndian.encode 8 v.nr.toNat

def encode (v : RawSyscallEvent) : Bytes :=
  v.head ++ encodeWords v.args.toList ++ LittleEndian.encode 8 v.ret.toUInt64.toNat

/-- Only the leading bytes are read. -/
def decode (buf : Bytes) : Option RawSyscallEvent :=
  if buf.length < rawEventLen then none
  else
    some
      { kind := buf.headD 0
        tgid := UInt32.ofNat (leField buf 4 4)
        tid := UInt32.ofNat (leField buf 8 4)
        timestampNs := UInt64.ofNat (leField buf 12 8)
        nr := UInt64.ofNat (leField buf 20 8)
        args := Vector.ofFn fun i : Fin 6 => UInt64.ofNat (leField buf (28 + i * 8) 8)
        ret := (UInt64.ofNat (leField buf 76 8)).toInt64 }

/-! ## Round trip -/

@[simp] theorem length_head (v : RawSyscallEvent) : v.head.length = 28 := by
  simp [head]

@[simp] theorem length_encode (v : RawSyscallEvent) : v.encode.length = rawEventLen := by
  simp [encode, length_encodeWords, rawEventLen]

/-- A word of the arguments, whatever follows. -/
theorem leField_args (v : RawSyscallEvent) (extra : Bytes) {i : Nat} (h : i < 6) :
    UInt64.ofNat (leField (v.encode ++ extra) (28 + i * 8) 8) = v.args[i] := by
  have hlen : i < v.args.toList.length := by simpa using h
  have hword := leField_encodeWords v.head v.args.toList
    (LittleEndian.encode 8 v.ret.toUInt64.toNat ++ extra) hlen
  rw [length_head, Nat.mul_comm, ← List.append_assoc, Vector.getElem_toList] at hword
  exact hword

/-- An event is read back from its encoding and any padding after it. -/
theorem decode_encode (v : RawSyscallEvent) (extra : Bytes) :
    decode (v.encode ++ extra) = some v := by
  have hlen : ¬ (v.encode ++ extra).length < rawEventLen := by
    rw [List.length_append, length_encode]
    omega
  have htgid : leField (v.encode ++ extra) 4 4 = v.tgid.toNat % 256 ^ 4 := by
    have h := leField_at (v.kind :: List.replicate 3 0) 4 v.tgid.toNat
      (LittleEndian.encode 4 v.tid.toNat ++ LittleEndian.encode 8 v.timestampNs.toNat ++
        LittleEndian.encode 8 v.nr.toNat ++ encodeWords v.args.toList ++
        LittleEndian.encode 8 v.ret.toUInt64.toNat ++ extra)
    simpa [encode, head] using h
  have htid : leField (v.encode ++ extra) 8 4 = v.tid.toNat % 256 ^ 4 := by
    have h := leField_at
      (v.kind :: List.replicate 3 0 ++ LittleEndian.encode 4 v.tgid.toNat) 4 v.tid.toNat
      (LittleEndian.encode 8 v.timestampNs.toNat ++
        LittleEndian.encode 8 v.nr.toNat ++ encodeWords v.args.toList ++
        LittleEndian.encode 8 v.ret.toUInt64.toNat ++ extra)
    simpa [encode, head] using h
  have hts : leField (v.encode ++ extra) 12 8 = v.timestampNs.toNat % 256 ^ 8 := by
    have h := leField_at
      (v.kind :: List.replicate 3 0 ++ LittleEndian.encode 4 v.tgid.toNat ++
        LittleEndian.encode 4 v.tid.toNat) 8 v.timestampNs.toNat
      (LittleEndian.encode 8 v.nr.toNat ++ encodeWords v.args.toList ++
        LittleEndian.encode 8 v.ret.toUInt64.toNat ++ extra)
    simpa [encode, head] using h
  have hnr : leField (v.encode ++ extra) 20 8 = v.nr.toNat % 256 ^ 8 := by
    have h := leField_at
      (v.kind :: List.replicate 3 0 ++ LittleEndian.encode 4 v.tgid.toNat ++
        LittleEndian.encode 4 v.tid.toNat ++ LittleEndian.encode 8 v.timestampNs.toNat) 8
      v.nr.toNat
      (encodeWords v.args.toList ++ LittleEndian.encode 8 v.ret.toUInt64.toNat ++ extra)
    simpa [encode, head] using h
  have hret : leField (v.encode ++ extra) 76 8 = v.ret.toUInt64.toNat % 256 ^ 8 := by
    have h := leField_at (v.head ++ encodeWords v.args.toList) 8 v.ret.toUInt64.toNat extra
    have hstart : (v.head ++ encodeWords v.args.toList).length = 76 := by
      simp [length_encodeWords]
    rwa [hstart, ← List.append_assoc] at h
  have hargs : (Vector.ofFn fun i : Fin 6 =>
      UInt64.ofNat (leField (v.encode ++ extra) (28 + i * 8) 8)) = v.args := by
    apply Vector.ext
    intro i hi
    rw [Vector.getElem_ofFn, leField_args v extra hi]
  have hkind : (v.encode ++ extra).headD 0 = v.kind := rfl
  rw [decode, if_neg hlen, htgid, htid, hts, hnr, hret, hargs, hkind]
  simp only [LittleEndian.ofNat_mod_u32, LittleEndian.ofNat_mod_u64, Int64.toInt64_toUInt64]

end RawSyscallEvent

end Mirrorscope.Ebpf
