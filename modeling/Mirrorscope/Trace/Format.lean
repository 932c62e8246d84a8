import Mathlib.Data.List.Basic
import Mirrorscope.Lib.LittleEndian
import Mirrorscope.Lib.ByteIO

/-! # The trace log format

Shared types and constants of the append-only recording log, and the codecs of
its two variable-length parts: the command line embedded in the header and the
body of a record. All integers are little-endian.

```text
header: magic "MSCOPETR" (8B) | version u16 | header_len u16 | cmdline… (v2+)
record: body_len u32 | body | crc32(body) u32
body:   seq u64 | timestamp_ns u64 | tid u32 (v3+) | kind u16 | payload
```
-/

namespace Mirrorscope

abbrev Bytes := List UInt8

namespace Trace

/-- File magic identifying a trace, `b"MSCOPETR"`. -/
def magic : Bytes := [0x4d, 0x53, 0x43, 0x4f, 0x50, 0x45, 0x54, 0x52]

/-- Current format version, the one the writer emits. -/
def formatVersion : UInt16 := 3

/-- Fixed portion of the header: magic, version and header length. -/
def baseHeaderLen : Nat := 12

/-- First format version whose header can embed a command line. -/
def cmdlineMinVersion : UInt16 := 2

/-- First format version whose record body carries a thread id. -/
def tidMinVersion : UInt16 := 3

/-- Upper bound on the body length a record may declare. -/
def maxBodyLen : Nat := 16 * 1024 * 1024

/-- Body bytes before the payload in a pre-v3 trace: seq, timestamp, kind. -/
def bodyPrefixLen : Nat := 18

/-- Body bytes before the payload in a v3+ trace: seq, timestamp, tid, kind. -/
def bodyPrefixLenV3 : Nat := 22

/-- Smallest legal record body for a trace written at `version`. -/
def minBodyLen (version : UInt16) : Nat :=
  if version ≥ tidMinVersion then bodyPrefixLenV3 else bodyPrefixLen

/-- Event discriminants; values this version does not know are kept verbatim. -/
inductive EventKind where
  | syscallEnter
  | syscallExit
  | schedSwitch
  | signal
  | syncAcquire
  | syncRelease
  | fork
  | checkpoint
  | threadSpawn
  | threadExit
  | unknown (raw : UInt16)
deriving DecidableEq, Repr

/-- Wire encoding of a kind. -/
def EventKind.toU16 : EventKind → UInt16
  | .syscallEnter => 1
  | .syscallExit => 2
  | .schedSwitch => 3
  | .signal => 4
  | .syncAcquire => 5
  | .syncRelease => 6
  | .fork => 7
  | .checkpoint => 8
  | .threadSpawn => 9
  | .threadExit => 10
  | .unknown raw => raw

/-- Decode a kind from the wire. -/
def EventKind.fromU16 (raw : UInt16) : EventKind :=
  if raw = 1 then .syscallEnter
  else if raw = 2 then .syscallExit
  else if raw = 3 then .schedSwitch
  else if raw = 4 then .signal
  else if raw = 5 then .syncAcquire
  else if raw = 6 then .syncRelease
  else if raw = 7 then .fork
  else if raw = 8 then .checkpoint
  else if raw = 9 then .threadSpawn
  else if raw = 10 then .threadExit
  else .unknown raw

/-- A kind is canonical if it is not an `unknown` that hides a known number. -/
def EventKind.Canonical : EventKind → Prop
  | .unknown raw => ¬ (1 ≤ raw ∧ raw ≤ 10)
  | _ => True

instance : DecidablePred EventKind.Canonical
  | .unknown raw => inferInstanceAs (Decidable (¬ (1 ≤ raw ∧ raw ≤ 10)))
  | .syscallEnter | .syscallExit | .schedSwitch | .signal | .syncAcquire
  | .syncRelease | .fork | .checkpoint | .threadSpawn | .threadExit => .isTrue trivial

/-- A captured source of non-determinism, before a sequence number is assigned. -/
structure Event where
  kind : EventKind
  timestampNs : UInt64
  tid : Option UInt32
  payload : Bytes
deriving DecidableEq, Repr

/-- An event as stored in the log, with its global sequence number. -/
structure Record where
  seq : UInt64
  event : Event
deriving DecidableEq, Repr

/-- An event captured from thread `tid`. -/
def Event.newWithTid (kind : EventKind) (timestampNs : UInt64) (tid : UInt32)
    (payload : Bytes) : Event :=
  { kind, timestampNs, tid := some tid, payload }

/-- The command line a trace was recorded from. -/
structure Cmdline where
  program : String
  args : List String
deriving DecidableEq, Repr

/-- Errors surfaced by the trace reader and writer. -/
inductive TraceError where
  | badMagic
  | unsupportedVersion (found supported : UInt16)
  | checksumMismatch (seq : UInt64)
  | truncated
  | bodyTooLarge (found max : Nat)
  | malformedHeader
  | nonMonotonicSequence (found previous : UInt64)
  | io (error : ByteIO.IoError)
deriving DecidableEq, Repr

/-! ## The embedded command line -/

/-- The UTF-8 bytes of a string (`as_bytes`). -/
def asBytes (s : String) : Bytes := s.toByteArray.data.toList

/-- `String::from_utf8`. -/
def fromUtf8 (bs : Bytes) : Option String := String.fromUTF8? ⟨bs.toArray⟩

/-- `slice.get(start..stop)`. -/
def getRange (buf : Bytes) (start stop : Nat) : Option Bytes :=
  if start ≤ stop ∧ stop ≤ buf.length then some ((buf.drop start).take (stop - start)) else none

/-- A string as a `u32` length prefix and its bytes; the length is narrowed. -/
def pushStr (s : String) : Bytes :=
  LittleEndian.encode 4 (asBytes s).length ++ asBytes s

/-- Encode a command line for the header: program, argument count, arguments. -/
def encodeCmdline (program : String) (args : List String) : Bytes :=
  pushStr program ++ LittleEndian.encode 4 args.length ++ args.flatMap pushStr

def readU32 (buf : Bytes) (pos : Nat) : Except TraceError (Nat × Nat) :=
  match getRange buf pos (pos + 4) with
  | some slice => .ok (LittleEndian.decode slice, pos + 4)
  | none => .error .malformedHeader

def readStr (buf : Bytes) (pos : Nat) : Except TraceError (String × Nat) := do
  let (len, pos) ← readU32 buf pos
  match getRange buf pos (pos + len) with
  | none => .error .malformedHeader
  | some slice =>
    match fromUtf8 slice with
    | some s => .ok (s, pos + len)
    | none => .error .malformedHeader

/-- The `for _ in 0..count` loop over the arguments. -/
def readArgs (buf : Bytes) : (count : Nat) → (pos : Nat) → Except TraceError (List String × Nat)
  | 0, pos => .ok ([], pos)
  | count + 1, pos => do
    let (arg, pos) ← readStr buf pos
    let (rest, pos) ← readArgs buf count pos
    .ok (arg :: rest, pos)

/-- Decode a command line from the header region; trailing bytes are ignored. -/
def decodeCmdline (buf : Bytes) : Except TraceError Cmdline := do
  let (program, pos) ← readStr buf 0
  let (count, pos) ← readU32 buf pos
  let (args, _) ← readArgs buf count pos
  .ok { program, args }

/-! ## Record bodies -/

/-- Encode a record body in the current layout; an unattributed event gets tid `0`. -/
def encodeBody (seq : UInt64) (event : Event) : Bytes :=
  LittleEndian.encode 8 seq.toNat ++ LittleEndian.encode 8 event.timestampNs.toNat ++
    LittleEndian.encode 4 (event.tid.getD 0).toNat ++
    LittleEndian.encode 2 event.kind.toU16.toNat ++ event.payload

/-- The little-endian number in `body[start..start + len]`. -/
def leField (body : Bytes) (start len : Nat) : Nat :=
  LittleEndian.decode ((body.drop start).take len)

/-- Decode a record body written at `version`. -/
def decodeBody (version : UInt16) (body : Bytes) : Record :=
  let seq := UInt64.ofNat (leField body 0 8)
  let timestampNs := UInt64.ofNat (leField body 8 8)
  let (tid, kindAt) :=
    if version ≥ tidMinVersion then (some (UInt32.ofNat (leField body 16 4)), 20) else (none, 16)
  let kind := EventKind.fromU16 (UInt16.ofNat (leField body kindAt 2))
  { seq, event := { kind, timestampNs, tid, payload := body.drop (kindAt + 2) } }

end Trace
end Mirrorscope
