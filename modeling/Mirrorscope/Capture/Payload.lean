import Mirrorscope.Linux.Ptrace
import Mirrorscope.Trace.Codec

/-! # Event payloads

The wire encoding of what a trace record carries: syscall entries and exits,
schedule switches, thread lifecycle and signal delivery. Each decoder recovers
what its encoder wrote.
-/

namespace Mirrorscope.Capture

open Trace (leField leField_at)
open Linux (Args)

/-- Errors decoding a payload. -/
inductive PayloadError where
  | tooShort (found need : Nat)
  | lengthMismatch
deriving DecidableEq, Repr

/-- The syscall number and its six raw arguments. -/
structure SyscallEnter where
  nr : UInt64
  args : Args
deriving DecidableEq, Repr

/-- The return value and the data the kernel wrote into the tracee. -/
structure SyscallExit where
  nr : UInt64
  ret : Int64
  data : Bytes
deriving DecidableEq, Repr

/-- The thread now scheduled to run. -/
structure SchedSwitch where
  tid : UInt32
deriving DecidableEq, Repr

/-- A newly followed thread and the thread that spawned it. -/
structure ThreadSpawn where
  parentTid : UInt32
  childTid : UInt32
deriving DecidableEq, Repr

/-- A thread that has left the tracked set. -/
structure ThreadExit where
  tid : UInt32
deriving DecidableEq, Repr

/-- The number of a delivered signal. -/
structure SignalDelivery where
  signum : Int32
deriving DecidableEq, Repr

/-- Read a little-endian word of four bytes at `offset`. -/
def readWord (payload : Bytes) (offset : Nat) : Except PayloadError Nat :=
  if payload.length < offset + 4 then .error (.tooShort payload.length (offset + 4))
  else .ok (leField payload offset 4)

def readU32 (payload : Bytes) (offset : Nat) : Except PayloadError UInt32 :=
  (readWord payload offset).map UInt32.ofNat

def readI32 (payload : Bytes) (offset : Nat) : Except PayloadError Int32 :=
  (readWord payload offset).map fun n => (UInt32.ofNat n).toInt32

def SchedSwitch.encode (v : SchedSwitch) : Bytes := LittleEndian.encode 4 v.tid.toNat

def SchedSwitch.decode (payload : Bytes) : Except PayloadError SchedSwitch := do
  let tid ← readU32 payload 0
  .ok { tid }

def ThreadSpawn.encode (v : ThreadSpawn) : Bytes :=
  LittleEndian.encode 4 v.parentTid.toNat ++ LittleEndian.encode 4 v.childTid.toNat

def ThreadSpawn.decode (payload : Bytes) : Except PayloadError ThreadSpawn := do
  let parentTid ← readU32 payload 0
  let childTid ← readU32 payload 4
  .ok { parentTid, childTid }

def ThreadExit.encode (v : ThreadExit) : Bytes := LittleEndian.encode 4 v.tid.toNat

def ThreadExit.decode (payload : Bytes) : Except PayloadError ThreadExit := do
  let tid ← readU32 payload 0
  .ok { tid }

def SignalDelivery.encode (v : SignalDelivery) : Bytes :=
  LittleEndian.encode 4 v.signum.toUInt32.toNat

def SignalDelivery.decode (payload : Bytes) : Except PayloadError SignalDelivery := do
  let signum ← readI32 payload 0
  .ok { signum }

/-- `ENTER_LEN`. -/
def enterLen : Nat := 8 + 6 * 8

/-- `EXIT_PREFIX_LEN`. -/
def exitPrefixLen : Nat := 8 + 8 + 4

/-- The words of an array, one after the other. -/
def encodeWords (words : List UInt64) : Bytes :=
  words.flatMap fun word => LittleEndian.encode 8 word.toNat

def SyscallEnter.encode (v : SyscallEnter) : Bytes :=
  LittleEndian.encode 8 v.nr.toNat ++ encodeWords v.args.toList

def SyscallEnter.decode (payload : Bytes) : Except PayloadError SyscallEnter :=
  if payload.length ≠ enterLen then .error (.tooShort payload.length enterLen)
  else
    .ok
      { nr := UInt64.ofNat (leField payload 0 8)
        args := Vector.ofFn fun i : Fin 6 => UInt64.ofNat (leField payload (8 + i * 8) 8) }

/-- The data length is narrowed to `u32`. -/
def SyscallExit.encode (v : SyscallExit) : Bytes :=
  LittleEndian.encode 8 v.nr.toNat ++ LittleEndian.encode 8 v.ret.toUInt64.toNat ++
    LittleEndian.encode 4 v.data.length ++ v.data

def SyscallExit.decode (payload : Bytes) : Except PayloadError SyscallExit :=
  if payload.length < exitPrefixLen then .error (.tooShort payload.length exitPrefixLen)
  else
    let data := payload.drop exitPrefixLen
    if data.length ≠ leField payload 16 4 then .error .lengthMismatch
    else
      .ok
        { nr := UInt64.ofNat (leField payload 0 8)
          ret := (UInt64.ofNat (leField payload 8 8)).toInt64
          data }

/-! ## Round trips -/

theorem readWord_at (pre : Bytes) (n : Nat) (post : Bytes) :
    readWord (pre ++ (LittleEndian.encode 4 n ++ post)) pre.length = .ok (n % 256 ^ 4) := by
  have hlen : ¬ (pre ++ (LittleEndian.encode 4 n ++ post)).length < pre.length + 4 := by
    simp only [List.length_append, LittleEndian.length_encode]
    omega
  rw [readWord, if_neg hlen, leField_at]

theorem readU32_at (pre : Bytes) (n : UInt32) (post : Bytes) :
    readU32 (pre ++ (LittleEndian.encode 4 n.toNat ++ post)) pre.length = .ok n := by
  rw [readU32, readWord_at, Except.map, LittleEndian.ofNat_mod_u32]

theorem readI32_at (pre : Bytes) (n : Int32) (post : Bytes) :
    readI32 (pre ++ (LittleEndian.encode 4 n.toUInt32.toNat ++ post)) pre.length = .ok n := by
  rw [readI32, readWord_at, Except.map, LittleEndian.ofNat_mod_u32, Int32.toInt32_toUInt32]

theorem SchedSwitch.decode_encode (v : SchedSwitch) : decode v.encode = .ok v := by
  have h := readU32_at [] v.tid []
  simp only [List.nil_append, List.append_nil, List.length_nil] at h
  simp [decode, encode, h, bind, Except.bind]

theorem ThreadExit.decode_encode (v : ThreadExit) : decode v.encode = .ok v := by
  have h := readU32_at [] v.tid []
  simp only [List.nil_append, List.append_nil, List.length_nil] at h
  simp [decode, encode, h, bind, Except.bind]

theorem SignalDelivery.decode_encode (v : SignalDelivery) : decode v.encode = .ok v := by
  have h := readI32_at [] v.signum []
  simp only [List.nil_append, List.append_nil, List.length_nil] at h
  simp [decode, encode, h, bind, Except.bind]

theorem ThreadSpawn.decode_encode (v : ThreadSpawn) : decode v.encode = .ok v := by
  have hparent := readU32_at [] v.parentTid (LittleEndian.encode 4 v.childTid.toNat)
  have hchild := readU32_at (LittleEndian.encode 4 v.parentTid.toNat) v.childTid []
  simp only [List.nil_append, List.append_nil, List.length_nil, LittleEndian.length_encode]
    at hparent hchild
  simp [decode, encode, hparent, hchild, bind, Except.bind]

theorem length_encodeWords (words : List UInt64) :
    (encodeWords words).length = 8 * words.length := by
  induction words with
  | nil => rfl
  | cons word words ih =>
    simp only [encodeWords, List.flatMap_cons, List.length_append, LittleEndian.length_encode,
      List.length_cons] at ih ⊢
    omega

/-- Word number `i` of an encoded array, whatever is around it. -/
theorem leField_encodeWords (pre : Bytes) (words : List UInt64) (post : Bytes) {i : Nat}
    (h : i < words.length) :
    UInt64.ofNat (leField (pre ++ encodeWords words ++ post) (pre.length + 8 * i) 8) =
      words[i] := by
  have hsplit : encodeWords words = encodeWords (words.take i) ++
      (LittleEndian.encode 8 words[i].toNat ++ encodeWords (words.drop (i + 1))) := by
    conv_lhs => rw [← List.take_append_drop i words, List.drop_eq_getElem_cons h]
    simp only [encodeWords, List.flatMap_append, List.flatMap_cons]
  have hlen : (pre ++ encodeWords (words.take i)).length = pre.length + 8 * i := by
    rw [List.length_append, length_encodeWords, List.length_take, Nat.min_eq_left (by omega)]
  have hfield := leField_at (pre ++ encodeWords (words.take i)) 8 words[i].toNat
    (encodeWords (words.drop (i + 1)) ++ post)
  have hglue : pre ++ encodeWords (words.take i) ++ (LittleEndian.encode 8 words[i].toNat ++
      (encodeWords (words.drop (i + 1)) ++ post)) = pre ++ encodeWords words ++ post := by
    rw [hsplit]
    simp only [List.append_assoc]
  rw [hlen, hglue] at hfield
  rw [hfield, LittleEndian.ofNat_mod_u64]

theorem SyscallEnter.decode_encode (v : SyscallEnter) : decode v.encode = .ok v := by
  have hlen : v.encode.length = enterLen := by
    simp [encode, length_encodeWords, enterLen]
  have hnr := leField_at [] 8 v.nr.toNat (encodeWords v.args.toList)
  rw [List.nil_append, List.length_nil] at hnr
  have hargs : (Vector.ofFn fun i : Fin 6 => UInt64.ofNat (leField v.encode (8 + i * 8) 8)) =
      v.args := by
    apply Vector.ext
    intro i hi
    have hword := leField_encodeWords (LittleEndian.encode 8 v.nr.toNat) v.args.toList []
      (i := i) (by simpa using hi)
    rw [LittleEndian.length_encode, List.append_nil] at hword
    rw [Vector.getElem_ofFn, Nat.mul_comm, encode, hword, Vector.getElem_toList]
  rw [decode, if_neg (by simp [hlen]), hargs, encode, hnr, LittleEndian.ofNat_mod_u64]

/-- Data shorter than `2 ^ 32` bytes survives the narrowing of its length. -/
theorem SyscallExit.decode_encode {v : SyscallExit} (h : v.data.length < 2 ^ 32) :
    decode v.encode = .ok v := by
  -- Field by field: each is read back from between what stands before and after it.
  have hlen : v.encode.length = exitPrefixLen + v.data.length := by
    simp [encode, exitPrefixLen]
    omega
  have hnr : leField v.encode 0 8 = v.nr.toNat % 256 ^ 8 := by
    have h := leField_at [] 8 v.nr.toNat
      (LittleEndian.encode 8 v.ret.toUInt64.toNat ++
        LittleEndian.encode 4 v.data.length ++ v.data)
    simpa only [encode, List.nil_append, List.length_nil, List.append_assoc] using h
  have hret : leField v.encode 8 8 = v.ret.toUInt64.toNat % 256 ^ 8 := by
    have h := leField_at (LittleEndian.encode 8 v.nr.toNat) 8 v.ret.toUInt64.toNat
      (LittleEndian.encode 4 v.data.length ++ v.data)
    simpa only [encode, LittleEndian.length_encode, List.append_assoc] using h
  have hcount : leField v.encode 16 4 = v.data.length := by
    have h := leField_at (LittleEndian.encode 8 v.nr.toNat ++
      LittleEndian.encode 8 v.ret.toUInt64.toNat) 4 v.data.length v.data
    rw [Nat.mod_eq_of_lt (by omega)] at h
    simpa only [encode, List.length_append, LittleEndian.length_encode, List.append_assoc] using h
  have hdata : v.encode.drop exitPrefixLen = v.data := by
    have h := @List.drop_left _ (LittleEndian.encode 8 v.nr.toNat ++
      LittleEndian.encode 8 v.ret.toUInt64.toNat ++ LittleEndian.encode 4 v.data.length) v.data
    simpa only [encode, exitPrefixLen, List.length_append, LittleEndian.length_encode] using h
  rw [decode, if_neg (by omega)]
  simp only [hdata, hcount, ne_eq, not_true_eq_false, if_false, hnr, hret,
    LittleEndian.ofNat_mod_u64, Int64.toInt64_toUInt64]

end Mirrorscope.Capture
