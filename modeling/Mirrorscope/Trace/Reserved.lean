import Mirrorscope.Trace.RoundTrip

/-! # Reserved header bytes

A newer writer may enlarge the header after the command line, and readers are to skip
what they do not understand. The reader tells a command line from reserved bytes by the
length of the header region alone: behind a command line extra bytes are skipped, in a
header without one they are taken for a command line.
-/

namespace Mirrorscope.Trace

open ByteIO (Write ByteVec)
open TraceReader

/-- Insert `x` between the header and the first record, the header-length field grown
by its length. -/
def insertReserved (x trace : Bytes) : Bytes :=
  let headerLen := leField trace 10 2
  trace.take 10 ++ LittleEndian.encode 2 (headerLen + x.length) ++
    (trace.take headerLen).drop baseHeaderLen ++ x ++ trace.drop headerLen

/-- The inserted bytes change nothing a reader sees: it opens the trace, with the same
version, the same command line and the same records. -/
def SkipsReserved (crc32 : Bytes → UInt32) (x trace : Bytes) : Prop :=
  ∃ r r', TraceReader.open trace = .ok r ∧ TraceReader.open (insertReserved x trace) = .ok r' ∧
    r'.version = r.version ∧ r'.cmdline = r.cmdline ∧
    ∀ items, Yields crc32 r' items ↔ Yields crc32 r items

/-- The inserted bytes end up behind the command line, in a header that is longer by as
much. -/
theorem insertReserved_headerBytes {cmdline x rest : Bytes}
    (h : baseHeaderLen + cmdline.length < 65536) :
    insertReserved x (headerBytes cmdline ++ rest) = headerBytes (cmdline ++ x) ++ rest := by
  have hlen : leField (headerBytes cmdline ++ rest) 10 2 = (headerBytes cmdline).length := by
    rw [(headerBytes_fields cmdline rest).2.2.1, Nat.mod_eq_of_lt (by simpa using h),
      length_headerBytes]
  have hfixed : (headerBytes cmdline ++ rest).take 10 =
      magic ++ LittleEndian.encode 2 formatVersion.toNat := by
    have h := @List.take_left _ (magic ++ LittleEndian.encode 2 formatVersion.toNat)
      (LittleEndian.encode 2 (baseHeaderLen + cmdline.length) ++ (cmdline ++ rest))
    have hten : (magic ++ LittleEndian.encode 2 formatVersion.toNat).length = 10 := rfl
    rw [hten] at h
    simpa only [headerBytes, List.append_assoc] using h
  have hregion : (headerBytes cmdline).drop baseHeaderLen = cmdline := by
    have h := (headerBytes_fields cmdline []).2.2.2
    simpa only [List.append_nil] using h
  simp only [insertReserved, hlen, List.take_left, List.drop_left, hfixed, hregion]
  rw [length_headerBytes]
  simp only [headerBytes, List.length_append, List.append_assoc, Nat.add_assoc]

/-- What the reader makes of the header region when bytes follow the command line. -/
theorem headerCmdline_reserved {cmdline : Option Cmdline} {x : Bytes}
    (h : baseHeaderLen + (cmdlineBytes cmdline ++ x).length < 65536) :
    headerCmdline formatVersion (cmdlineBytes cmdline ++ x) = .ok cmdline ↔
      cmdline.isSome ∨ x = [] := by
  have hver : formatVersion ≥ cmdlineMinVersion := by decide
  cases cmdline with
  | none =>
    cases x with
    | nil => simp [headerCmdline, cmdlineBytes, pure, Except.pure]
    | cons byte x =>
      -- decoded as a command line, the bytes give an error or some command line
      simp only [headerCmdline, cmdlineBytes, List.nil_append, hver, List.isEmpty_cons,
        Option.isSome_none, reduceCtorEq, or_self, iff_false]
      cases decodeCmdline (byte :: x) <;> simp [Functor.map, Except.map]
  | some c =>
    rw [List.length_append] at h
    have hlen : (encodeCmdline c.program c.args).length < 256 ^ 4 := by
      simp only [cmdlineBytes] at h
      omega
    have hne : (encodeCmdline c.program c.args ++ x).isEmpty = false := by
      rw [List.isEmpty_eq_false_iff, ← List.length_pos_iff, List.length_append,
        length_encodeCmdline]
      omega
    have hdec := decodeCmdline_encodeCmdline c.program c.args x hlen
    simp [headerCmdline, cmdlineBytes, hver, hne, hdec, Functor.map, Except.map]

/-- Opening a header with reserved bytes, every way it can end. -/
theorem open_reserved {cmdline : Option Cmdline} {x rest : Bytes}
    (h : baseHeaderLen + (cmdlineBytes cmdline ++ x).length < 65536) :
    TraceReader.open (insertReserved x (headerBytes (cmdlineBytes cmdline) ++ rest)) =
      (headerCmdline formatVersion (cmdlineBytes cmdline ++ x)).map fun c =>
        { inner := rest, version := formatVersion, cmdline := c, lastSeq := none,
          poisoned := false } := by
  have hskip := skippedLen_of_fits h
  have hopen := open_headerBytes (cmdlineBytes cmdline ++ x) rest
    (by rw [hskip]; exact (List.sublist_append_left _ _).length_le)
  rw [insertReserved_headerBytes (by rw [List.length_append] at h; omega), hopen, hskip,
    List.take_left, List.drop_left]

/-- Inserted header bytes are skipped just when the trace has a command line to stand
behind (or there are none). -/
theorem reserved_skipped_iff {W : Type} [Write W] {crc32 : Bytes → UInt32} {w : W}
    {cmdline : Option Cmdline} {events : List Event} {t t' : TraceWriter W} {x : Bytes}
    (hw : Write.written w = []) (hstart : TraceWriter.start w cmdline = .ok t)
    (happend : TraceWriter.appendAll crc32 t events = .ok t')
    (hlen : (headerBytes (cmdlineBytes cmdline)).length + x.length ≤ 65535) :
    SkipsReserved crc32 x (Write.written t'.inner) ↔ cmdline.isSome ∨ x = [] := by
  rw [length_headerBytes] at hlen
  have hfits : baseHeaderLen + (cmdlineBytes cmdline ++ x).length < 65536 := by
    rw [List.length_append]
    omega
  rw [written_trace hw hstart happend, ← headerCmdline_reserved hfits]
  unfold SkipsReserved
  rw [open_reserved hfits, open_header cmdline _ (by omega)]
  constructor
  · rintro ⟨r, r', hopen, hopen', -, hcmdline, -⟩
    rcases Except.ok.inj hopen with rfl
    cases hhead : headerCmdline formatVersion (cmdlineBytes cmdline ++ x) with
    | error e =>
      rw [hhead] at hopen'
      cases hopen'
    | ok c =>
      rw [hhead] at hopen'
      rcases Except.ok.inj hopen' with rfl
      exact congrArg Except.ok hcmdline
  · intro hhead
    rw [hhead]
    exact ⟨_, _, rfl, rfl, rfl, rfl, fun items => Iff.rfl⟩

/-- Four bytes behind the command line of a trace without records. -/
theorem reserved_skipped_true :
    ∃ t : TraceWriter ByteVec,
      TraceWriter.start ByteVec.empty (some { program := "true", args := [] }) = .ok t ∧
      SkipsReserved Crc32.hash [0xaa, 0xbb, 0xcc, 0xdd] (Write.written t.inner) := by
  rcases start_vec (some { program := "true", args := [] }) (by decide) with ⟨t, ht⟩
  have hnone : TraceWriter.appendAll Crc32.hash t [] = .ok t := rfl
  exact ⟨t, ht, (reserved_skipped_iff rfl ht hnone (by decide)).mpr (.inl rfl)⟩

/-- The same four bytes in the header of a trace without a command line: the reader
rejects the trace. -/
theorem reserved_rejected :
    ∃ t : TraceWriter ByteVec,
      TraceWriter.start ByteVec.empty none = .ok t ∧
      ¬ SkipsReserved Crc32.hash [0xaa, 0xbb, 0xcc, 0xdd] (Write.written t.inner) := by
  rcases start_vec none (by decide) with ⟨t, ht⟩
  rcases start_written ht with ⟨hwritten, -⟩
  refine ⟨t, ht, ?_⟩
  rintro ⟨r, r', -, hopen, -⟩
  rw [hwritten] at hopen
  cases hopen

end Mirrorscope.Trace
