import Mathlib.Algebra.Group.Nat.Defs
import Mirrorscope.Lib.Buffered
import Mirrorscope.Lib.Numeral

/-! # Base-protocol framing

`Content-Length: N\r\n\r\n` and `N` bytes of JSON, written by `writeFrame` and read
back by `readFrame` from bytes that arrive in any pieces. The header is read line by
line and the payload by its length, so what the payload contains never matters;
`frames_round_trip` says so for streams of any length, and that a stream cut inside
a frame ends in an error.
-/

namespace Mirrorscope.Dap.Transport

open ByteIO Text Numeral

/-- The JSON library: its writer and its reader. -/
structure JsonCodec (Value JsonError : Type) where
  toVec : Value → Except JsonError ByteVec
  fromSlice : List UInt8 → Except JsonError Value

/-- An I/O failure of the stream, or of a read on it. -/
inductive IoFailure where
  | unexpectedEof
  | invalidUtf8
  | raw (e : IoError)
deriving DecidableEq, Repr

/-- Errors produced while framing or deframing messages. -/
inductive TransportError (JsonError : Type) where
  /-- The header block ended without a `Content-Length` field. -/
  | missingContentLength
  /-- `Content-Length` was present but not a number. -/
  | invalidContentLength (value : List Char)
  /-- The payload was not valid JSON. -/
  | malformedJson (e : JsonError)
  | io (e : IoFailure)
deriving DecidableEq, Repr

/-- How a read ends without an answer: an error is returned, or the payload's buffer
would be larger than a vector can be. -/
inductive ReadStop (JsonError : Type) where
  | error (e : TransportError JsonError)
  | capacityOverflow
deriving DecidableEq, Repr

/-! ## Reading -/

/-- The name of the header field, with its colon. -/
def contentLengthField : List Char := "Content-Length:".toList

theorem readLine_length {b b' : Buffer} {n : Nat} {line : List Char}
    (h : readLine b = (some (n, line), b')) : n + b'.bytes.length = b.bytes.length := by
  have hsum (b : Buffer) :
      (b.readUntil 0x0A).1.length + (b.readUntil 0x0A).2.bytes.length = b.bytes.length := by
    induction b with
    | nil => rfl
    | cons p b ih =>
      by_cases hp : (0x0A : UInt8) ∈ p.1
      · have hidx : p.1.idxOf 0x0A < p.1.length := List.idxOf_lt_length_iff.mpr hp
        simp only [Buffer.readUntil, hp, ↓reduceIte]
        rw [Buffer.bytes_consume (by simp only [Buffer.fillBuf]; omega), List.length_take,
          List.length_drop, Buffer.bytes_cons, List.length_append]
        omega
      · simp only [Buffer.readUntil, hp, ↓reduceIte, List.length_append, Buffer.bytes_cons]
        omega
  have hb := hsum b
  simp only [readLine, Prod.mk.injEq, Option.map_eq_some_iff] at h
  obtain ⟨⟨_, _, hn, -⟩, rfl⟩ := h
  omega

variable {Value JsonError : Type}

/-- The rest of the header block: the content length seen so far, and whether any byte
of the block was read. -/
def readHeadersFrom (contentLength : Option Nat) (sawAnyByte : Bool) (b : Buffer) :
    Except (TransportError JsonError) (Option Nat) × Buffer :=
  match _h : readLine b with
  | (none, b') => (.error (.io .invalidUtf8), b')
  -- the end of the input, clean only between two messages
  | (some (0, _), b') =>
    if sawAnyByte then (.error .missingContentLength, b') else (.ok none, b')
  | (some (_ + 1, line), b') =>
    let line := trimEnd line
    -- a blank line ends the header
    if line = [] then
      match contentLength with
      | some len => (.ok (some len), b')
      | none => (.error .missingContentLength, b')
    else
      match contentLengthField.isPrefixOf? line with
      | some value =>
        let value := trim value
        match parse 10 (2 ^ 64) value with
        | some len => readHeadersFrom (some len) true b'
        | none => (.error (.invalidContentLength value), b')
      -- any other field is passed over
      | none => readHeadersFrom contentLength true b'
termination_by b.bytes.length
decreasing_by
  all_goals
    have hlength := readLine_length _h
    omega

/-- Parse the header block: the content length, or `none` at the end of the input
before any header byte. -/
def readHeaders (b : Buffer) : Except (TransportError JsonError) (Option Nat) × Buffer :=
  readHeadersFrom none false b

/-- Read one message; `none` means a clean end of the input. -/
def readFrame (json : JsonCodec Value JsonError) (b : Buffer) :
    Except (ReadStop JsonError) (Option Value) × Buffer :=
  match readHeaders b with
  | (.error e, b') => (.error (.error e), b')
  | (.ok none, b') => (.ok none, b')
  | (.ok (some contentLength), b') =>
    -- an allocation of more than `isize::MAX` bytes panics
    if 2 ^ 63 ≤ contentLength then (.error .capacityOverflow, b')
    else
      match readExact contentLength b' with
      | (.error none, b'') => (.error (.error (.io .unexpectedEof)), b'')
      | (.error (some e), b'') => (.error (.error (.io (.raw e))), b'')
      | (.ok payload, b'') =>
        match json.fromSlice payload with
        | .error e => (.error (.error (.malformedJson e)), b'')
        | .ok message => (.ok (some message), b'')

/-- The answers of `n` reads, one after the other. -/
def readFrames (json : JsonCodec Value JsonError) :
    (n : Nat) → Buffer → List (Except (ReadStop JsonError) (Option Value))
  | 0, _ => []
  | n + 1, b => (readFrame json b).1 :: readFrames json n (readFrame json b).2

/-! ## Writing -/

/-- The header block of a payload of `n` bytes. -/
def header (n : Nat) : List Char :=
  contentLengthField ++ ' ' :: (Nat.toDigits 10 n ++ ['\r', '\n', '\r', '\n'])

section Writing

variable {W : Type} [Write W]

/-- Write one message with its `Content-Length` header, and flush the sink. What a failure
leaves in the sink stays there. -/
def writeFrame (json : JsonCodec Value JsonError) (message : Value) (w : W) :
    Except (TransportError JsonError) Unit × W :=
  match json.toVec message with
  | .error e => (.error (.malformedJson e), w)
  | .ok payload =>
    match writePieces [encodeUtf8 (header payload.bytes.length), payload.bytes] w with
    | (.error e, w) => (.error (.io (.raw e)), w)
    | (.ok (), w) =>
      match Write.flush w with
      | (.error e, w) => (.error (.io (.raw e)), w)
      | (.ok (), w) => (.ok (), w)

/-- Write messages one after the other. -/
def writeFrames (json : JsonCodec Value JsonError) :
    (messages : List Value) → W → Except (TransportError JsonError) Unit × W
  | [], w => (.ok (), w)
  | message :: messages, w =>
    match writeFrame json message w with
    | (.error e, w) => (.error e, w)
    | (.ok (), w) => writeFrames json messages w

end Writing

/-! ## What a frame is -/

/-- The bytes of a frame. -/
def frame (payload : List UInt8) : List UInt8 := encodeUtf8 (header payload.length) ++ payload

/-- The bytes that the frames of `messages` are, one after the other. -/
def Frames (json : JsonCodec Value JsonError) (messages : List Value) (bs : List UInt8) : Prop :=
  ∃ payloads : List ByteVec, messages.map json.toVec = payloads.map .ok ∧
    bs = payloads.flatMap fun p => frame p.bytes

section Written

variable {W : Type} [Write W] {json : JsonCodec Value JsonError}

theorem writeFrame_ok {message : Value} {w w' : W}
    (h : writeFrame json message w = (.ok (), w')) :
    ∃ payload, json.toVec message = .ok payload ∧
      Write.written w' = Write.written w ++ frame payload.bytes := by
  unfold writeFrame at h
  split at h
  · cases h
  rename_i payload hvec
  split at h
  · cases h
  rename_i v hpieces
  have hv := written_writePieces hpieces
  have hflushed := Write.written_flush v
  split at h
  · cases h
  · rename_i hflush
    obtain ⟨-, rfl⟩ := Prod.mk.inj h
    rw [hflush] at hflushed
    refine ⟨payload, hvec, ?_⟩
    rw [hflushed, hv, frame]
    simp

/-- A message that could not be written has left at most its frame. -/
theorem writeFrame_torn {message : Value} {w w' : W} {e : TransportError JsonError}
    (h : writeFrame json message w = (.error e, w')) :
    ∃ part, Write.written w' = Write.written w ++ part ∧
      (part = [] ∨ ∃ payload, json.toVec message = .ok payload ∧ part <+: frame payload.bytes) := by
  unfold writeFrame at h
  split at h
  · obtain ⟨-, rfl⟩ := Prod.mk.inj h
    exact ⟨[], (List.append_nil _).symm, .inl rfl⟩
  rename_i payload hvec
  split at h
  · -- the header or the payload breaks off
    rename_i hpieces
    obtain ⟨-, rfl⟩ := Prod.mk.inj h
    obtain ⟨part, hpart, hwritten⟩ := written_writePieces_torn hpieces
    exact ⟨part, hwritten, .inr ⟨payload, hvec, by simpa [frame] using hpart⟩⟩
  · -- all of it is written, and the flush fails
    rename_i v hpieces
    have hv := written_writePieces hpieces
    have hflushed := Write.written_flush v
    split at h
    · rename_i hflush
      obtain ⟨-, rfl⟩ := Prod.mk.inj h
      rw [hflush] at hflushed
      refine ⟨frame payload.bytes, ?_, .inr ⟨payload, hvec, List.prefix_rfl⟩⟩
      rw [hflushed, hv, frame]
      simp
    · cases h

/-- What was written is the frames in order. -/
theorem writeFrames_ok {messages : List Value} {w w' : W}
    (h : writeFrames json messages w = (.ok (), w')) :
    ∃ bs, Frames json messages bs ∧ Write.written w' = Write.written w ++ bs := by
  induction messages generalizing w with
  | nil =>
    obtain ⟨-, rfl⟩ := Prod.mk.inj h
    exact ⟨[], ⟨[], rfl, rfl⟩, by simp⟩
  | cons message messages ih =>
    rw [writeFrames] at h
    split at h
    · cases h
    · rename_i v hv
      obtain ⟨payload, hvec, hwritten⟩ := writeFrame_ok hv
      obtain ⟨bs, ⟨payloads, hpay, rfl⟩, hbs⟩ := ih h
      have hmap : (message :: messages).map json.toVec = (payload :: payloads).map .ok := by
        simp [hvec, hpay]
      refine ⟨_, ⟨payload :: payloads, hmap, rfl⟩, ?_⟩
      rw [hbs, hwritten, List.flatMap_cons, List.append_assoc]

end Written

/-! ## Reading a frame back -/

/-- The first header line, up to its line feed. -/
def headerLine (n : Nat) : List Char := contentLengthField ++ ' ' :: (Nat.toDigits 10 n ++ ['\r'])

theorem header_eq (n : Nat) : header n = headerLine n ++ ['\n'] ++ ['\r', '\n'] := by
  simp [header, headerLine]

/-- The header's characters take one byte each, and none of them is a line feed. -/
theorem headerLine_ascii (n : Nat) :
    ∀ c ∈ headerLine n, c.utf8Size = 1 ∧ 0x0A ∉ String.utf8EncodeChar c := by
  have hfield : (contentLengthField ++ [' ', '\r']).all fun c =>
      c.utf8Size = 1 ∧ 0x0A ∉ String.utf8EncodeChar c := by decide
  have hdigit : ∀ d < 10, (Nat.digitChar d).utf8Size = 1 ∧
      0x0A ∉ String.utf8EncodeChar (Nat.digitChar d) := by decide
  intro c hc
  have hcases : c ∈ contentLengthField ++ [' ', '\r'] ∨ c ∈ Nat.toDigits 10 n := by
    simp only [headerLine, List.mem_append, List.mem_cons, List.not_mem_nil, or_false] at hc ⊢
    rcases hc with hc | rfl | hc | rfl
    · exact .inl (.inl hc)
    · exact .inl (.inr (.inl rfl))
    · exact .inr hc
    · exact .inl (.inr (.inr rfl))
  rcases hcases with hc | hc
  · simpa using List.all_eq_true.mp hfield c hc
  · obtain ⟨d, hd, rfl⟩ := mem_toDigits (by decide) hc
    exact hdigit d hd

theorem encodeUtf8_headerLine_take (n k : Nat) :
    0x0A ∉ encodeUtf8 ((headerLine n).take k) := by
  simp only [encodeUtf8, List.mem_flatMap, not_exists, not_and]
  intro c hc
  exact (headerLine_ascii n c (List.mem_of_mem_take hc)).2

theorem headerLine_no_feed (n : Nat) : 0x0A ∉ encodeUtf8 (headerLine n) := by
  have h := encodeUtf8_headerLine_take n (headerLine n).length
  rwa [List.take_length] at h

/-- The header line names the length of the payload. -/
theorem headerLine_value {n : Nat} (hn : n < 2 ^ 64) :
    trimEnd (headerLine n ++ ['\n']) = contentLengthField ++ ' ' :: Nat.toDigits 10 n ∧
      contentLengthField.isPrefixOf? (contentLengthField ++ ' ' :: Nat.toDigits 10 n) =
        some (' ' :: Nat.toDigits 10 n) ∧
      trim (' ' :: Nat.toDigits 10 n) = Nat.toDigits 10 n ∧
      parse 10 (2 ^ 64) (Nat.toDigits 10 n) = some n := by
  have hsolid : Solid (Nat.toDigits 10 n) :=
    fun c hc => (toDigits_plain (by decide) (by decide) c hc).1
  refine ⟨?_, ?_, ?_, parse_toDigits (by decide) (by decide) hn⟩
  · obtain ⟨ds, d, hds⟩ : ∃ ds d, Nat.toDigits 10 n = ds ++ [d] := by
      rcases List.eq_nil_or_concat' (Nat.toDigits 10 n) with h | h
      · exact absurd h Nat.toDigits_ne_nil
      · exact h
    have hshape : headerLine n ++ ['\n'] =
        contentLengthField ++ ' ' :: (ds ++ [d]) ++ ['\r', '\n'] := by
      simp [headerLine, hds]
    have hlast : contentLengthField ++ ' ' :: (ds ++ [d]) =
        (contentLengthField ++ ' ' :: ds) ++ [d] := by simp
    rw [hshape, trimEnd_append_whitespace (List.all_eq_true.mp (by decide)), hds, hlast]
    exact trimEnd_of_last (hsolid d (by simp [hds]))
  · rw [List.isPrefixOf?_eq_some_iff_append_eq]
  · exact @trim_word [' '] _ (List.all_eq_true.mp (by decide)) hsolid Nat.toDigits_ne_nil

section Headers

variable {cl : Option Nat} {saw : Bool} {b b' : Buffer} {k n : Nat} {line : List Char}

/-- The input ends inside the block. -/
theorem readHeadersFrom_eof (h : b.bytes = []) :
    (readHeadersFrom cl true b : Except (TransportError JsonError) (Option Nat) × Buffer) =
      (.error .missingContentLength, []) := by
  have hline : readLine b = (some (0, []), []) := @readLine_last b [] (by simp [encodeUtf8]) h
  rw [readHeadersFrom]
  split
  · rename_i hr; simp [hr] at hline
  · rename_i hr
    obtain ⟨-, rfl⟩ : _ ∧ _ := by simpa [hr] using hline
    rfl
  · rename_i hr; simp [hr] at hline

/-- A blank line ends the block. -/
theorem readHeadersFrom_blank (hline : readLine b = (some (k + 1, line), b'))
    (hblank : trimEnd line = []) :
    (readHeadersFrom (some n) saw b : Except (TransportError JsonError) (Option Nat) × Buffer) =
      (.ok (some n), b') := by
  rw [readHeadersFrom]
  split
  · rename_i hr; simp [hr] at hline
  · rename_i hr; simp [hr] at hline
  · rename_i hr
    obtain ⟨⟨-, rfl⟩, rfl⟩ : (_ ∧ _) ∧ _ := by simpa [hr] using hline
    simp [hblank]

/-- A line whose field is the content length. -/
theorem readHeadersFrom_value (hline : readLine b = (some (k + 1, line), b'))
    (hn : n < 2 ^ 64) (htrim : trimEnd line = contentLengthField ++ ' ' :: Nat.toDigits 10 n) :
    (readHeadersFrom cl saw b : Except (TransportError JsonError) (Option Nat) × Buffer) =
      readHeadersFrom (some n) true b' := by
  obtain ⟨-, htag, hvalue, hparse⟩ := headerLine_value hn
  rw [readHeadersFrom]
  split
  · rename_i hr; simp [hr] at hline
  · rename_i hr; simp [hr] at hline
  · rename_i hr
    obtain ⟨⟨-, rfl⟩, rfl⟩ : (_ ∧ _) ∧ _ := by simpa [hr] using hline
    simp only [htrim, List.append_ne_nil_of_right_ne_nil, ne_eq, reduceCtorEq, not_false_eq_true,
      if_false, htag, hvalue, hparse]

/-- A last line that is not blank: whatever its field is, the block does not end. -/
theorem readHeadersFrom_lastLine (hno : 0x0A ∉ encodeUtf8 line) (h : b.bytes = encodeUtf8 line)
    (hword : trimEnd line ≠ []) :
    ∃ e, (readHeadersFrom cl saw b : Except (TransportError JsonError) (Option Nat) × Buffer) =
      (.error e, []) := by
  have hline := readLine_last hno h
  -- A line without its terminator is taken for a header, and the end comes after it.
  have hend (cl : Option Nat) :
      (readHeadersFrom cl true [] : Except (TransportError JsonError) (Option Nat) × Buffer) =
        (.error .missingContentLength, []) := readHeadersFrom_eof rfl
  obtain ⟨k, hk⟩ : ∃ k, (encodeUtf8 line).length = k + 1 := by
    cases line with
    | nil => exact absurd rfl hword
    | cons c line =>
      have hc : String.utf8EncodeChar c ≠ [] := String.utf8EncodeChar_ne_nil
      have hpos := List.length_pos_iff.mpr hc
      refine ⟨(encodeUtf8 (c :: line)).length - 1, ?_⟩
      simp only [encodeUtf8, List.flatMap_cons, List.length_append]
      omega
  rw [hk] at hline
  rw [readHeadersFrom]
  split
  · rename_i hr; simp [hr] at hline
  · rename_i hr; simp [hr] at hline
  · rename_i hr
    obtain ⟨⟨-, rfl⟩, rfl⟩ : (_ ∧ _) ∧ _ := by simpa [hr] using hline
    simp only [hword, ↓reduceIte, hend]
    split
    · split
      · exact ⟨_, rfl⟩
      · exact ⟨_, rfl⟩
    · exact ⟨_, rfl⟩

end Headers

theorem readLine_headerLine {n : Nat} {b : Buffer} {rest : List UInt8}
    (h : b.bytes = encodeUtf8 (headerLine n ++ ['\n']) ++ rest) :
    ∃ k b', readLine b = (some (k + 1, headerLine n ++ ['\n']), b') ∧ b'.bytes = rest := by
  obtain ⟨b', hread, hb'⟩ := readLine_eq (headerLine_no_feed n) h
  refine ⟨(encodeUtf8 (headerLine n)).length, b', ?_, hb'⟩
  rw [hread, encodeUtf8_append]
  simp [encodeUtf8, show String.utf8EncodeChar '\n' = [0x0A] from rfl]

variable (JsonError) in
/-- The header block of a frame is read as the payload's length. -/
theorem readHeaders_header {n : Nat} (hn : n < 2 ^ 64) {b : Buffer} {rest : List UInt8}
    (h : b.bytes = encodeUtf8 (header n) ++ rest) :
    ∃ b', (readHeaders b : Except (TransportError JsonError) (Option Nat) × Buffer) =
      (.ok (some n), b') ∧ b'.bytes = rest := by
  have hshape : b.bytes =
      encodeUtf8 (headerLine n ++ ['\n']) ++ (encodeUtf8 ['\r', '\n'] ++ rest) := by
    rw [h, header_eq, encodeUtf8_append, List.append_assoc]
  obtain ⟨k, b', hline, hb'⟩ := readLine_headerLine hshape
  obtain ⟨b'', hblank, hb''⟩ := @readLine_eq b' ['\r'] _ (by decide) hb'
  refine ⟨b'', ?_, hb''⟩
  rw [readHeaders, readHeadersFrom_value hline hn (headerLine_value hn).1]
  exact readHeadersFrom_blank hblank (by decide)

section Frames

variable {json : JsonCodec Value JsonError}

/-- What the round trip asks of the JSON library: the reader undoes the writer, and
no bytes at all are no value. -/
structure JsonCodec.Inverts (json : JsonCodec Value JsonError) : Prop where
  inverts : ∀ {message payload}, json.toVec message = .ok payload →
    json.fromSlice payload.bytes = .ok message
  nothing : ∀ message, json.fromSlice [] ≠ .ok message

/-- A frame is read as its message, and the reader stands behind it. -/
theorem readFrame_frame (hjson : json.Inverts) {message : Value} {payload : ByteVec}
    (hvec : json.toVec message = .ok payload) {b : Buffer} {rest : List UInt8}
    (h : b.bytes = frame payload.bytes ++ rest) :
    ∃ b', readFrame json b = (.ok (some message), b') ∧ b'.bytes = rest := by
  have hbound := payload.bounded
  have hlong : payload.bytes.length < 2 ^ 64 := by omega
  have hframe : b.bytes = encodeUtf8 (header payload.bytes.length) ++ (payload.bytes ++ rest) := by
    rw [h, frame, List.append_assoc]
  obtain ⟨b', hheaders, hb'⟩ := readHeaders_header JsonError hlong hframe
  obtain ⟨b'', hread, hb''⟩ := Buffer.readExact_eq hb'
  refine ⟨b'', ?_, hb''⟩
  have hcap : ¬ 2 ^ 63 ≤ payload.bytes.length := by omega
  simp only [readFrame, hheaders, hcap, ↓reduceIte, hread, hjson.inverts hvec]

theorem readFrame_end {b : Buffer} (h : b.bytes = []) : (readFrame json b).1 = .ok none := by
  have hline : readLine b = (some (0, []), []) := @readLine_last b [] (by simp [encodeUtf8]) h
  have hheaders : (readHeaders b : Except (TransportError JsonError) (Option Nat) × Buffer) =
      (.ok none, []) := by
    rw [readHeaders, readHeadersFrom]
    split
    · rename_i hr; simp [hr] at hline
    · rename_i hr
      obtain ⟨-, rfl⟩ : _ ∧ _ := by simpa [hr] using hline
      rfl
    · rename_i hr; simp [hr] at hline
  simp only [readFrame, hheaders]

variable (JsonError) in
/-- A cut inside the first header line. -/
theorem readHeaders_cutLine {n : Nat} {b : Buffer} (hpart : b.bytes <+: encodeUtf8 (headerLine n))
    (hsome : b.bytes ≠ []) :
    ∃ e b', (readHeaders b : Except (TransportError JsonError) (Option Nat) × Buffer) =
      (.error e, b') := by
  have hbytes : b.bytes = encodeUtf8 ((headerLine n).take b.bytes.length) := by
    rw [← take_encodeUtf8 fun c hc => (headerLine_ascii n c hc).1]
    exact List.prefix_iff_eq_take.mp hpart
  obtain ⟨k, hk⟩ : ∃ k, b.bytes.length = k + 1 :=
    ⟨b.bytes.length - 1, by have := List.length_pos_iff.mpr hsome; omega⟩
  -- what there is of the line begins with its first letter
  have hword : trimEnd ((headerLine n).take b.bytes.length) ≠ [] := by
    rw [hk]
    exact trimEnd_ne_nil _ (by decide : isWhitespace 'C' = false)
  obtain ⟨e, he⟩ := @readHeadersFrom_lastLine JsonError none false b _
    (encodeUtf8_headerLine_take n _) hbytes hword
  exact ⟨e, [], he⟩

variable (JsonError) in
/-- A cut right behind the first header line. -/
theorem readHeaders_cutFeed {n : Nat} (hn : n < 2 ^ 64) {b : Buffer}
    (h : b.bytes = encodeUtf8 (headerLine n ++ ['\n'])) :
    (readHeaders b : Except (TransportError JsonError) (Option Nat) × Buffer) =
      (.error .missingContentLength, []) := by
  have hfeed : b.bytes = encodeUtf8 (headerLine n ++ ['\n']) ++ [] := by rw [h, List.append_nil]
  obtain ⟨k, b', hline, hb'⟩ := readLine_headerLine hfeed
  rw [readHeaders, readHeadersFrom_value hline hn (headerLine_value hn).1]
  exact readHeadersFrom_eof hb'

variable (JsonError) in
/-- A cut between the two bytes that end the block: it is read all the same. -/
theorem readHeaders_cutReturn {n : Nat} (hn : n < 2 ^ 64) {b : Buffer}
    (h : b.bytes = encodeUtf8 (headerLine n ++ ['\n']) ++ encodeUtf8 ['\r']) :
    (readHeaders b : Except (TransportError JsonError) (Option Nat) × Buffer) =
      (.ok (some n), []) := by
  obtain ⟨k, b', hline, hb'⟩ := readLine_headerLine h
  have hreturn := @readLine_last b' ['\r'] (by decide) hb'
  rw [readHeaders, readHeadersFrom_value hline hn (headerLine_value hn).1]
  exact readHeadersFrom_blank hreturn (by decide)

/-- A payload that is cut off is an early end of the input. -/
theorem readFrame_short {b b' : Buffer} {n : Nat}
    (hheaders : (readHeaders b : Except (TransportError JsonError) (Option Nat) × Buffer) =
      (.ok (some n), b'))
    (hcap : n < 2 ^ 63) (hshort : b'.bytes.length < n) :
    (readFrame json b).1 = .error (.error (.io .unexpectedEof)) := by
  obtain ⟨b'', hread⟩ := Buffer.readExact_short hshort
  have hcap : ¬ 2 ^ 63 ≤ n := by omega
  simp only [readFrame, hheaders, hcap, ↓reduceIte, hread]

theorem prefix_append_cases {α : Type} {xs ys zs : List α} (h : xs <+: ys ++ zs) :
    xs <+: ys ∨ ∃ ts, ts ≠ [] ∧ xs = ys ++ ts ∧ ts <+: zs := by
  obtain ⟨rest, hrest⟩ := h
  rcases List.append_eq_append_iff.mp hrest with ⟨as, hys, -⟩ | ⟨cs, hxs, hzs⟩
  · exact .inl ⟨as, hys.symm⟩
  · by_cases hcs : cs = []
    · subst hcs
      exact .inl (by simp [hxs])
    · exact .inr ⟨cs, hcs, hxs, rest, hzs.symm⟩

theorem prefix_cons_cases {α : Type} {xs zs : List α} {y : α} (h : xs <+: y :: zs)
    (hne : xs ≠ []) : xs = [y] ∨ ∃ ts, ts ≠ [] ∧ xs = y :: ts ∧ ts <+: zs := by
  obtain ⟨x, ts, rfl⟩ := List.exists_cons_of_ne_nil hne
  obtain ⟨rfl, htail⟩ := List.cons_prefix_cons.mp h
  by_cases hts : ts = []
  · exact .inl (by rw [hts])
  · exact .inr ⟨ts, hts, rfl, htail⟩

/-- A frame that is cut off anywhere is an error. -/
theorem readFrame_cut (json : JsonCodec Value JsonError) {payload : ByteVec}
    (hne : payload.bytes ≠ []) {b : Buffer}
    (hpart : b.bytes <+: frame payload.bytes) (hsome : b.bytes ≠ [])
    (hall : b.bytes ≠ frame payload.bytes) : ∃ e, (readFrame json b).1 = .error (.error e) := by
  have hbound := payload.bounded
  have hlong : payload.bytes.length < 2 ^ 64 := by omega
  have hpos := List.length_pos_iff.mpr hne
  have hfeed : encodeUtf8 ['\n'] = [0x0A] := rfl
  have hreturn : encodeUtf8 ['\r'] = [0x0D] := rfl
  have hheader : encodeUtf8 (header payload.bytes.length) =
      encodeUtf8 (headerLine payload.bytes.length) ++ [0x0A, 0x0D, 0x0A] := by
    have hend : encodeUtf8 ['\r', '\n'] = [0x0D, 0x0A] := rfl
    rw [header_eq, encodeUtf8_append, encodeUtf8_append, hfeed, hend, List.append_assoc]
    rfl
  have hshape : frame payload.bytes = encodeUtf8 (headerLine payload.bytes.length) ++
      (0x0A :: 0x0D :: 0x0A :: payload.bytes) := by
    rw [frame, hheader, List.append_assoc]
    rfl
  rw [hshape] at hpart
  rcases prefix_append_cases hpart with hcut | ⟨ts, hts, hb, hpart⟩
  · obtain ⟨e, b', he⟩ := readHeaders_cutLine JsonError hcut hsome
    exact ⟨e, by simp only [readFrame, he]⟩
  rcases prefix_cons_cases hpart hts with hcut | ⟨us, hus, hbu, hpart⟩
  · have hheaders := readHeaders_cutFeed JsonError hlong (b := b)
      (by rw [hb, hcut, encodeUtf8_append, hfeed])
    exact ⟨.missingContentLength, by simp only [readFrame, hheaders]⟩
  rcases prefix_cons_cases hpart hus with hcut | ⟨vs, hvs, hbv, hpart⟩
  · have hheaders := readHeaders_cutReturn JsonError hlong (b := b)
      (by rw [hb, hbu, hcut, encodeUtf8_append, hreturn, hfeed, List.append_assoc]; rfl)
    exact ⟨_, readFrame_short hheaders hbound hpos⟩
  -- the whole block is there, so the payload is not
  obtain ⟨ws, hbw, hws⟩ : ∃ ws, vs = 0x0A :: ws ∧ ws <+: payload.bytes := by
    rcases prefix_cons_cases hpart hvs with hcut | ⟨ws, -, hbw, hws⟩
    · exact ⟨[], hcut, List.nil_prefix⟩
    · exact ⟨ws, hbw, hws⟩
  have hblock : b.bytes = encodeUtf8 (header payload.bytes.length) ++ ws := by
    rw [hb, hbu, hbv, hbw, hheader, List.append_assoc]
    rfl
  obtain ⟨b', hheaders, hb'⟩ := readHeaders_header JsonError hlong hblock
  refine ⟨_, readFrame_short hheaders hbound ?_⟩
  rw [hb']
  by_contra hge
  have hwhole := hws.eq_of_length_le (by omega)
  exact hall (by rw [hblock, hwhole, frame])

/-- Reading frame after frame gives their messages, and the reader stands behind them. -/
theorem readFrames_frames (hjson : json.Inverts) {messages : List Value} {bs : List UInt8}
    (hframes : Frames json messages bs) (k : Nat) {b : Buffer} {rest : List UInt8}
    (h : b.bytes = bs ++ rest) :
    ∃ b', b'.bytes = rest ∧ readFrames json (messages.length + k) b =
      messages.map (fun message => .ok (some message)) ++ readFrames json k b' := by
  -- Induction on the messages: what one frame leaves in the buffer are the frames to come.
  obtain ⟨payloads, hvec, rfl⟩ := hframes
  induction messages generalizing payloads b with
  | nil =>
    obtain rfl : payloads = [] := by simpa using hvec.symm
    exact ⟨b, by simpa using h, by simp⟩
  | cons message messages ih =>
    obtain ⟨payload, payloads, rfl, hpay, hpays⟩ :
        ∃ p ps, payloads = p :: ps ∧ json.toVec message = .ok p ∧
          messages.map json.toVec = ps.map .ok := by
      cases payloads with
      | nil => simp at hvec
      | cons p ps =>
        obtain ⟨hp, hps⟩ := List.cons.inj hvec
        exact ⟨p, ps, rfl, hp, hps⟩
    rw [List.flatMap_cons, List.append_assoc] at h
    obtain ⟨b', hread, hb'⟩ := readFrame_frame hjson hpay h
    obtain ⟨b'', hb'', hreads⟩ := ih payloads hpays hb'
    refine ⟨b'', hb'', ?_⟩
    rw [List.length_cons, show messages.length + 1 + k = messages.length + k + 1 by omega]
    simp only [readFrames, hread, hreads, List.map_cons, List.cons_append]

/-- What was written is read back message by message, over any division of the bytes
into pieces, and then the input ends cleanly; and where the bytes end inside a frame,
the messages before it are read and then there is an error. -/
theorem frames_round_trip {W : Type} [Write W] (hjson : json.Inverts) {messages : List Value}
    {w w' : W} (hw : writeFrames json messages w = (.ok (), w')) :
    (∀ b : Buffer, Write.written w ++ b.bytes = Write.written w' →
      readFrames json (messages.length + 1) b =
        messages.map (fun message => .ok (some message)) ++ [.ok none]) ∧
    (∀ before message after, messages = before ++ message :: after →
      ∀ v v' : W, writeFrames json before w = (.ok (), v) →
        writeFrame json message v = (.ok (), v') →
      ∀ b : Buffer, Write.written v <+: Write.written w ++ b.bytes →
        Write.written w ++ b.bytes <+: Write.written v' →
        Write.written w ++ b.bytes ≠ Write.written v →
        Write.written w ++ b.bytes ≠ Write.written v' →
        ∃ e, readFrames json (before.length + 1) b =
          before.map (fun message => .ok (some message)) ++ [.error (.error e)]) := by
  constructor
  · intro b hb
    obtain ⟨bs, hframes, hwritten⟩ := writeFrames_ok hw
    have hbytes : b.bytes = bs ++ [] := by
      rw [List.append_nil]
      exact List.append_cancel_left (hb.trans hwritten)
    obtain ⟨b', hb', hreads⟩ := readFrames_frames hjson hframes 1 hbytes
    rw [hreads, readFrames, readFrame_end hb']
    rfl
  · intro before message after _ v v' hv hv' b hfrom hto hsome hall
    obtain ⟨bs, hframes, hwritten⟩ := writeFrames_ok hv
    obtain ⟨payload, hvec, hwritten'⟩ := writeFrame_ok hv'
    -- the bytes are the frames before the cut and a part of one frame
    obtain ⟨part, hpart⟩ := hfrom
    have hbytes : b.bytes = bs ++ part := by
      rw [hwritten, List.append_assoc] at hpart
      exact (List.append_cancel_left hpart).symm
    have hcut : part <+: frame payload.bytes := by
      rw [← hpart, hwritten'] at hto
      exact (List.prefix_append_right_inj _).mp hto
    have hne : payload.bytes ≠ [] := by
      intro hnil
      have hread := hjson.inverts hvec
      rw [hnil] at hread
      exact hjson.nothing message hread
    obtain ⟨b', hb', hreads⟩ := readFrames_frames hjson hframes 1 hbytes
    obtain ⟨e, he⟩ := readFrame_cut json hne (b := b') (hb' ▸ hcut)
      (by
        rw [hb']
        rintro rfl
        exact hsome (by rw [← hpart, List.append_nil]))
      (by
        rw [hb']
        rintro rfl
        exact hall (by rw [← hpart, hwritten']))
    exact ⟨e, by rw [hreads, readFrames, he]; rfl⟩

end Frames

/-- The part of JSON that has `true` and `false`. -/
def boolJson : JsonCodec Bool Unit where
  toVec
    | true => .ok ⟨encodeUtf8 ['t', 'r', 'u', 'e'], by decide⟩
    | false => .ok ⟨encodeUtf8 ['f', 'a', 'l', 's', 'e'], by decide⟩
  fromSlice bs :=
    if bs = encodeUtf8 ['t', 'r', 'u', 'e'] then .ok true
    else if bs = encodeUtf8 ['f', 'a', 'l', 's', 'e'] then .ok false
    else .error ()

theorem boolJson_inverts : boolJson.Inverts where
  inverts := by
    intro message payload h
    cases message <;> cases h <;> decide
  nothing := by decide

/-- Two frames are written, and read back from any pieces. -/
theorem frames_round_trip_bools :
    ∃ w : ByteVec, writeFrames boolJson [true, false] ByteVec.empty = (.ok (), w) ∧
      ∀ b : Buffer, b.bytes = w.bytes →
        readFrames boolJson 3 b = [.ok (some true), .ok (some false), .ok none] := by
  rcases hw : writeFrames boolJson [true, false] ByteVec.empty with ⟨e | ⟨⟩, w⟩
  · have hok : (writeFrames boolJson [true, false] ByteVec.empty).1.isOk = true := by decide
    rw [hw] at hok
    cases hok
  · exact ⟨w, rfl, fun b hb => (frames_round_trip boolJson_inverts hw).1 b hb⟩

end Mirrorscope.Dap.Transport
