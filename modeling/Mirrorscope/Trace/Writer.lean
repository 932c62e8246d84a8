import Mirrorscope.Lib.Effect
import Mirrorscope.Trace.Format

/-! # The trace writer

Writes the versioned header, then appends checksummed records. The writer owns
the global sequence counter. The CRC-32 of the `crc32fast` crate is a parameter:
any fixed function of the body.

The second half states what the writer leaves in its sink: the header bytes,
followed by one frame per appended event.
-/

namespace Mirrorscope.Trace

open ByteIO (Write ByteVec writePieces)
open Effect (except_bind_ok)

structure TraceWriter (W : Type) where
  inner : W
  nextSeq : UInt64

namespace TraceWriter

variable {W : Type} [Write W] (crc32 : Bytes → UInt32)

/-- `write_all`, with the I/O failure as a trace error. -/
def put (bs : Bytes) (inner : W) : Except TraceError W :=
  match Write.writeAll bs inner with
  | (.ok (), inner) => .ok inner
  | (.error e, _) => .error (.io e)

/-- Write the header around an encoded command line. The header length is
narrowed to `u16`. -/
def writeHeader (inner : W) (cmdline : Bytes) : Except TraceError (TraceWriter W) := do
  let headerLen := baseHeaderLen + cmdline.length
  let inner ← put magic inner
  let inner ← put (LittleEndian.encode 2 formatVersion.toNat) inner
  let inner ← put (LittleEndian.encode 2 headerLen) inner
  let inner ← put cmdline inner
  .ok { inner, nextSeq := 0 }

/-- Wrap a sink and write a header with no embedded command line. -/
def create (inner : W) : Except TraceError (TraceWriter W) :=
  writeHeader inner []

/-- Wrap a sink and write a header embedding `program args…`. -/
def createWithCmdline (inner : W) (program : String) (args : List String) :
    Except TraceError (TraceWriter W) :=
  writeHeader inner (encodeCmdline program args)

/-- Append one event; returns the sequence number it was assigned. -/
def append (t : TraceWriter W) (event : Event) : Except TraceError (UInt64 × TraceWriter W) := do
  let seq := t.nextSeq
  let body := encodeBody seq event
  let crc := crc32 body
  let inner ← put (LittleEndian.encode 4 body.length) t.inner
  let inner ← put body inner
  let inner ← put (LittleEndian.encode 4 crc.toNat) inner
  .ok (seq, { inner, nextSeq := seq + 1 })

/-- The sink that a failed append leaves: the length, the body and the checksum are written up to
the first that fails. -/
def torn (t : TraceWriter W) (event : Event) : W :=
  let body := encodeBody t.nextSeq event
  (writePieces [LittleEndian.encode 4 body.length, body,
    LittleEndian.encode 4 (crc32 body).toNat] t.inner).2

/-- Append events in order. -/
def appendAll (t : TraceWriter W) : List Event → Except TraceError (TraceWriter W)
  | [] => .ok t
  | event :: events => do
    let (_, t) ← append crc32 t event
    appendAll t events

/-- The writer for an optional command line. -/
def start (inner : W) : Option Cmdline → Except TraceError (TraceWriter W)
  | none => create inner
  | some c => createWithCmdline inner c.program c.args

end TraceWriter

/-! ## What ends up in the sink -/

/-- The header region after the fixed part. -/
def cmdlineBytes : Option Cmdline → Bytes
  | none => []
  | some c => encodeCmdline c.program c.args

/-- The header bytes around an encoded command line. -/
def headerBytes (cmdline : Bytes) : Bytes :=
  magic ++ LittleEndian.encode 2 formatVersion.toNat ++
    LittleEndian.encode 2 (baseHeaderLen + cmdline.length) ++ cmdline

/-- One record frame: length, body, checksum. -/
def frame (crc32 : Bytes → UInt32) (body : Bytes) : Bytes :=
  LittleEndian.encode 4 body.length ++ body ++ LittleEndian.encode 4 (crc32 body).toNat

/-- The frames of `events`, numbered from `seq` on. -/
def frames (crc32 : Bytes → UInt32) (seq : UInt64) : List Event → List Bytes
  | [] => []
  | event :: events => frame crc32 (encodeBody seq event) :: frames crc32 (seq + 1) events

section Written

variable {W : Type} [Write W] {crc32 : Bytes → UInt32}

theorem put_written {bs : Bytes} {w w' : W} (h : TraceWriter.put bs w = .ok w') :
    Write.written w' = Write.written w ++ bs := by
  unfold TraceWriter.put at h
  split at h
  · rename_i hw
    rcases Except.ok.inj h with rfl
    exact Write.written_writeAll hw
  · cases h

theorem writeHeader_written {w : W} {cmdline : Bytes} {t : TraceWriter W}
    (h : TraceWriter.writeHeader w cmdline = .ok t) :
    Write.written t.inner = Write.written w ++ headerBytes cmdline ∧ t.nextSeq = 0 := by
  obtain ⟨w₁, h₁, h⟩ := except_bind_ok h
  obtain ⟨w₂, h₂, h⟩ := except_bind_ok h
  obtain ⟨w₃, h₃, h⟩ := except_bind_ok h
  obtain ⟨w₄, h₄, h⟩ := except_bind_ok h
  obtain rfl := Except.ok.inj h
  refine ⟨?_, rfl⟩
  simp only [put_written h₄, put_written h₃, put_written h₂, put_written h₁, headerBytes,
    List.append_assoc]

/-- Starting a trace writes exactly its header. -/
theorem start_written {w : W} {cmdline : Option Cmdline} {t : TraceWriter W}
    (h : TraceWriter.start w cmdline = .ok t) :
    Write.written t.inner = Write.written w ++ headerBytes (cmdlineBytes cmdline) ∧
      t.nextSeq = 0 := by
  cases cmdline with
  | none => exact writeHeader_written h
  | some c => exact writeHeader_written h

theorem append_written {t t' : TraceWriter W} {event : Event} {seq : UInt64}
    (h : TraceWriter.append crc32 t event = .ok (seq, t')) :
    Write.written t'.inner = Write.written t.inner ++ frame crc32 (encodeBody t.nextSeq event) ∧
      t'.nextSeq = t.nextSeq + 1 ∧ seq = t.nextSeq := by
  obtain ⟨w₁, h₁, h⟩ := except_bind_ok h
  obtain ⟨w₂, h₂, h⟩ := except_bind_ok h
  obtain ⟨w₃, h₃, h⟩ := except_bind_ok h
  obtain ⟨rfl, rfl⟩ := Prod.mk.inj (Except.ok.inj h)
  refine ⟨?_, rfl, rfl⟩
  simp only [put_written h₃, put_written h₂, put_written h₁, frame, List.append_assoc]

/-- An append that fails has a piece that could not be written. -/
theorem append_pieces {t : TraceWriter W} {event : Event} {err : TraceError}
    (h : TraceWriter.append crc32 t event = .error err) :
    ∃ e, writePieces [LittleEndian.encode 4 (encodeBody t.nextSeq event).length,
        encodeBody t.nextSeq event,
        LittleEndian.encode 4 (crc32 (encodeBody t.nextSeq event)).toNat] t.inner =
      (.error e, t.torn crc32 event) := by
  generalize hbody : encodeBody t.nextSeq event = body
  revert h
  simp only [TraceWriter.append, TraceWriter.torn, TraceWriter.put, writePieces, hbody]
  -- the first of the three that fails is the one that the append reports
  rcases Write.writeAll (LittleEndian.encode 4 body.length) t.inner with ⟨e | ⟨⟩, w₁⟩
  · exact fun _ => ⟨e, rfl⟩
  dsimp only [bind, Except.bind]
  rcases Write.writeAll body w₁ with ⟨e | ⟨⟩, w₂⟩
  · exact fun _ => ⟨e, rfl⟩
  dsimp only
  rcases Write.writeAll (LittleEndian.encode 4 (crc32 body).toNat) w₂ with ⟨e | ⟨⟩, w₃⟩
  · exact fun _ => ⟨e, rfl⟩
  · intro h
    cases h

/-- A failed append leaves at most the front of its frame. -/
theorem torn_written {t : TraceWriter W} {event : Event} {err : TraceError}
    (h : TraceWriter.append crc32 t event = .error err) :
    ∃ part, part <+: frame crc32 (encodeBody t.nextSeq event) ∧
      Write.written (t.torn crc32 event) = Write.written t.inner ++ part := by
  obtain ⟨e, hpieces⟩ := append_pieces h
  obtain ⟨part, hpart, hwritten⟩ := ByteIO.written_writePieces_torn hpieces
  refine ⟨part, ?_, hwritten⟩
  simpa [frame] using hpart

/-- Appending two lists of events in turn. -/
theorem appendAll_append (crc32 : Bytes → UInt32) {t t' : TraceWriter W} {xs : List Event}
    (h : TraceWriter.appendAll crc32 t xs = .ok t') (ys : List Event) :
    TraceWriter.appendAll crc32 t (xs ++ ys) = TraceWriter.appendAll crc32 t' ys := by
  induction xs generalizing t with
  | nil =>
    obtain rfl := Except.ok.inj h
    rfl
  | cons x xs ih =>
    obtain ⟨written, happend, h⟩ := except_bind_ok h
    simpa only [List.cons_append, TraceWriter.appendAll, happend, bind, Except.bind] using ih h

/-- Appending events adds one frame each, in order. -/
theorem appendAll_written {t t' : TraceWriter W} {events : List Event}
    (h : TraceWriter.appendAll crc32 t events = .ok t') :
    Write.written t'.inner =
      Write.written t.inner ++ (frames crc32 t.nextSeq events).flatten := by
  induction events generalizing t with
  | nil =>
    obtain rfl := Except.ok.inj h
    simp [frames]
  | cons event events ih =>
    obtain ⟨⟨seq, t₁⟩, h₁, h⟩ := except_bind_ok h
    obtain ⟨hw, hseq, _⟩ := append_written h₁
    rw [ih h, hw, hseq]
    simp [frames]

/-- A writer counts what it appends. -/
theorem appendAll_nextSeq {t t' : TraceWriter W} {events : List Event}
    (h : TraceWriter.appendAll crc32 t events = .ok t') :
    t'.nextSeq = t.nextSeq + UInt64.ofNat events.length := by
  induction events generalizing t with
  | nil =>
    obtain rfl := Except.ok.inj h
    exact (UInt64.add_zero _).symm
  | cons event events ih =>
    obtain ⟨⟨seq, t₁⟩, h₁, h⟩ := except_bind_ok h
    obtain ⟨-, hseq, -⟩ := append_written h₁
    rw [ih h, hseq, List.length_cons, UInt64.ofNat_add, UInt64.add_assoc, UInt64.add_comm 1]
    rfl

end Written

/-! ## A vector as sink

Writing into a byte vector fails only when the vector is full. -/

section Vector

variable (crc32 : Bytes → UInt32)

theorem put_vec (bs : Bytes) (v : ByteVec) (h : (v.bytes ++ bs).length < 2 ^ 63) :
    ∃ v', TraceWriter.put bs v = .ok v' := by
  refine ⟨⟨v.bytes ++ bs, h⟩, ?_⟩
  simp only [TraceWriter.put, ByteVec.writeAll_eq h]

theorem writeHeader_vec (cmdline : Bytes) (h : (headerBytes cmdline).length < 2 ^ 63) :
    ∃ t, TraceWriter.writeHeader ByteVec.empty cmdline = .ok t := by
  simp only [headerBytes, List.length_append] at h
  have h₀ : ByteVec.empty.bytes = [] := rfl
  rcases put_vec magic ByteVec.empty (by simp [h₀]; omega) with ⟨v₁, h₁⟩
  have hv₁ : v₁.bytes = _ := put_written h₁
  rcases put_vec (LittleEndian.encode 2 formatVersion.toNat) v₁
    (by simp [hv₁, h₀] at h ⊢; omega) with ⟨v₂, h₂⟩
  have hv₂ : v₂.bytes = _ := put_written h₂
  rcases put_vec (LittleEndian.encode 2 (baseHeaderLen + cmdline.length)) v₂
    (by simp [hv₂, hv₁, h₀] at h ⊢; omega) with ⟨v₃, h₃⟩
  have hv₃ : v₃.bytes = _ := put_written h₃
  rcases put_vec cmdline v₃
    (by simp [hv₃, hv₂, hv₁, h₀] at h ⊢; omega) with ⟨v₄, h₄⟩
  exact ⟨{ inner := v₄, nextSeq := 0 },
    by simp only [TraceWriter.writeHeader, h₁, h₂, h₃, h₄, bind, Except.bind]⟩

theorem start_vec (cmdline : Option Cmdline)
    (h : (headerBytes (cmdlineBytes cmdline)).length < 2 ^ 63) :
    ∃ t, TraceWriter.start ByteVec.empty cmdline = .ok t := by
  cases cmdline with
  | none => exact writeHeader_vec _ h
  | some c => exact writeHeader_vec _ h

theorem append_vec (t : TraceWriter ByteVec) (event : Event)
    (h : (t.inner.bytes ++ frame crc32 (encodeBody t.nextSeq event)).length < 2 ^ 63) :
    ∃ t', TraceWriter.append crc32 t event = .ok (t.nextSeq, t') := by
  simp only [frame, List.length_append, LittleEndian.length_encode] at h
  generalize hbody : encodeBody t.nextSeq event = body at h
  rcases put_vec (LittleEndian.encode 4 body.length) t.inner
    (by simp; omega) with ⟨v₁, h₁⟩
  have hv₁ : v₁.bytes = _ := put_written h₁
  rcases put_vec body v₁ (by simp [hv₁]; omega) with ⟨v₂, h₂⟩
  have hv₂ : v₂.bytes = _ := put_written h₂
  rcases put_vec (LittleEndian.encode 4 (crc32 body).toNat) v₂
    (by simp [hv₂, hv₁]; omega) with ⟨v₃, h₃⟩
  exact ⟨{ inner := v₃, nextSeq := t.nextSeq + 1 },
    by simp only [TraceWriter.append, hbody, h₁, h₂, h₃, bind, Except.bind]⟩

/-- A vector with room for all the frames takes all the events. -/
theorem appendAll_vec (t : TraceWriter ByteVec) (events : List Event)
    (h : (t.inner.bytes ++ (frames crc32 t.nextSeq events).flatten).length < 2 ^ 63) :
    ∃ t', TraceWriter.appendAll crc32 t events = .ok t' := by
  induction events generalizing t with
  | nil => exact ⟨t, rfl⟩
  | cons event events ih =>
    simp only [frames, List.flatten_cons, List.length_append] at h
    rcases append_vec crc32 t event (by rw [List.length_append]; omega) with ⟨t₁, h₁⟩
    rcases append_written h₁ with ⟨hwritten, hseq, -⟩
    have hbytes : t₁.inner.bytes = _ := hwritten
    rcases ih t₁ (by simp [hbytes, hseq] at h ⊢; omega) with ⟨t', h'⟩
    exact ⟨t', by simp only [TraceWriter.appendAll, h₁, h', bind, Except.bind]⟩

end Vector

end Mirrorscope.Trace
