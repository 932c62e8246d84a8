import Mirrorscope.Trace.Format

/-! # The trace reader

Validates the header, the per-record checksums and the global order of sequence
numbers while iterating records. An error poisons the iterator: it is reported
once and nothing follows it.
-/

namespace Mirrorscope.Trace

open ByteIO (Read)

structure TraceReader (R : Type) where
  inner : R
  version : UInt16
  cmdline : Option Cmdline
  lastSeq : Option UInt64
  poisoned : Bool

/-- How far a read that may meet the end of the input got. -/
inductive ReadOutcome where
  | full (buf : Bytes)
  | partway
  | eof

section

variable {R : Type} [Read R]

/-- Distinguish a clean end of input from a torn frame. -/
def readExactOrEof (n : Nat) (inner : R) : Except TraceError ReadOutcome × R :=
  match ByteIO.fill n inner with
  | (.error e, inner) => (.error (.io e), inner)
  | (.ok buf, inner) =>
    if buf.length < n then (.ok (if buf.isEmpty then .eof else .partway), inner)
    else (.ok (.full buf), inner)

/-- `read_exact(..).map_err(|_| err)`. -/
def readOr (err : TraceError) (n : Nat) (inner : R) : Except TraceError (Bytes × R) :=
  match ByteIO.readExact n inner with
  | (.error _, _) => .error err
  | (.ok buf, inner) => .ok (buf, inner)

/-- The command line in the header bytes after the fixed part, if there is one. -/
def headerCmdline (version : UInt16) (extraBuf : Bytes) : Except TraceError (Option Cmdline) :=
  if version ≥ cmdlineMinVersion ∧ ¬ extraBuf.isEmpty then
    some <$> decodeCmdline extraBuf
  else
    pure none

/-- Validate the header and position the reader at the first record. Extra
header bytes are skipped through the header-length field. -/
def TraceReader.open (inner : R) : Except TraceError (TraceReader R) := do
  let (base, inner) ← readOr .badMagic baseHeaderLen inner
  if base.take 8 ≠ magic then throw .badMagic
  let version := UInt16.ofNat (leField base 8 2)
  if version > formatVersion then throw (.unsupportedVersion version formatVersion)
  let headerLen := leField base 10 2
  let (extraBuf, inner) ← readOr .truncated (headerLen - baseHeaderLen) inner
  let cmdline ← headerCmdline version extraBuf
  return { inner, version, cmdline, lastSeq := none, poisoned := false }

namespace TraceReader

/-- One I/O step on the underlying source. -/
def onInner {α : Type} (f : R → Except TraceError α × R) : EStateM TraceError (TraceReader R) α :=
  fun r =>
    match f r.inner with
    | (.ok a, inner) => .ok a { r with inner }
    | (.error e, inner) => .error e { r with inner }

/-- `self.inner.read_exact(..)`, an early end being a truncated record. -/
def readBody (n : Nat) : EStateM TraceError (TraceReader R) Bytes :=
  onInner fun inner =>
    match ByteIO.readExact n inner with
    | (.error _, inner) => (.error .truncated, inner)
    | (.ok buf, inner) => (.ok buf, inner)

def checkMonotonic (seq : UInt64) : EStateM TraceError (TraceReader R) Unit := do
  match (← get).lastSeq with
  | some previous =>
    if seq ≤ previous then throw (.nonMonotonicSequence seq previous)
    else modify fun r => { r with lastSeq := some seq }
  | none => modify fun r => { r with lastSeq := some seq }

variable (crc32 : Bytes → UInt32)

/-- The rest of a frame, once its length prefix is known. -/
def readFrame (bodyLen : Nat) : EStateM TraceError (TraceReader R) Record := do
  let version := (← get).version
  if bodyLen < minBodyLen version then
    throw .truncated
  else if bodyLen > maxBodyLen then
    throw (.bodyTooLarge bodyLen maxBodyLen)
  else
    let body ← readBody bodyLen
    let crcBuf ← readBody 4
    let record := decodeBody version body
    if (crc32 body).toNat ≠ LittleEndian.decode crcBuf then
      throw (.checksumMismatch record.seq)
    else
      checkMonotonic record.seq
      return record

def readRecord : EStateM TraceError (TraceReader R) (Option Record) := do
  match ← onInner (readExactOrEof 4) with
  | .eof => return none
  | .partway => throw .truncated
  | .full lenBuf => some <$> readFrame crc32 (LittleEndian.decode lenBuf)

/-- The iterator step: `None` at the end and after an error. -/
def next (r : TraceReader R) : Option (Except TraceError Record) × TraceReader R :=
  if r.poisoned then (none, r)
  else
    match readRecord crc32 r with
    | .ok (some record) r => (some (.ok record), r)
    | .ok none r => (none, r)
    | .error err r => (some (.error err), { r with poisoned := true })

/-- The reader after `n` calls of `next`. -/
def after : (n : Nat) → TraceReader R → TraceReader R
  | 0, r => r
  | n + 1, r => after n (next crc32 r).2

/-- The answer of call number `i` of `next`. -/
def item (i : Nat) (r : TraceReader R) : Option (Except TraceError Record) :=
  (next crc32 (after crc32 i r)).1

/-- The iterator produces exactly `items`, and `None` from then on. -/
def Yields (r : TraceReader R) (items : List (Except TraceError Record)) : Prop :=
  ∀ i, item crc32 i r = items[i]?

end TraceReader

end

end Mirrorscope.Trace
