import Mirrorscope.Trace.Codec
import Mirrorscope.Trace.Reader
import Mirrorscope.Trace.Writer

/-! # The reader on a byte string

What `open` and `next` do when the source is a byte list: one lemma per way a
read can end. A well-formed frame is consumed whole; a successful read consumed
a well-formed frame; the end of the input is clean only at a frame boundary; a
torn frame is reported as truncated. The iteration is then an induction over the
frames.

The four ways a read ends are the lemmas that the other modules use:
* `open_list`: what the header decides.
* `readRecord_frame`: a frame in front is consumed. `readRecord_ok_some`: what was consumed was
  one.
* `readRecord_torn`: a frame that is cut off is truncated, wherever the cut is.
* `yields_frames`: a run of frames is read one by one.
-/

namespace Mirrorscope.Trace

open Effect

/-- What a body must satisfy for its frame to be accepted, sequence order aside. -/
def BodyFits (version : UInt16) (body : Bytes) : Prop :=
  minBodyLen version ≤ body.length ∧ body.length ≤ maxBodyLen

/-- The sequence number may follow the last one seen. -/
def SeqAfter (lastSeq : Option UInt64) (seq : UInt64) : Prop :=
  ∀ previous, lastSeq = some previous → previous < seq

/-- The sequence number of a body. -/
def bodySeq (body : Bytes) : UInt64 := UInt64.ofNat (leField body 0 8)

theorem decodeBody_seq (version : UInt16) (body : Bytes) :
    (decodeBody version body).seq = bodySeq body := rfl

theorem maxBodyLen_lt : maxBodyLen < 256 ^ 4 := by decide

namespace TraceReader

/-! ## Opening -/

theorem readOr_list (err : TraceError) (n : Nat) (bs : Bytes) :
    readOr err n bs = if bs.length < n then .error err else .ok (bs.take n, bs.drop n) := by
  by_cases h : bs.length < n
  · simp [readOr, ByteIO.readExact_list, h]
  · simp [readOr, ByteIO.readExact_list, h]

/-- The header region after the fixed part, as the header-length field has it. -/
def extraLen (b : Bytes) : Nat := leField b 10 2 - baseHeaderLen

/-- Where the first record starts. -/
def headerEnd (b : Bytes) : Nat := baseHeaderLen + extraLen b

/-- A field inside a part of the input is a field of the whole input. -/
theorem leField_take (b : Bytes) {k start w : Nat} (h : start + w ≤ k) :
    leField (b.take k) start w = leField b start w := by
  have hmin : min w (k - start) = w := by omega
  simp only [leField, List.drop_take, List.take_take, hmin]

/-- `open` on a byte string, every way it can end. -/
theorem open_list (b : Bytes) :
    TraceReader.open b =
      if b.length < baseHeaderLen then .error .badMagic
      else if b.take 8 ≠ magic then .error .badMagic
      else if UInt16.ofNat (leField b 8 2) > formatVersion then
        .error (.unsupportedVersion (UInt16.ofNat (leField b 8 2)) formatVersion)
      else if b.length < headerEnd b then .error .truncated
      else
        (headerCmdline (UInt16.ofNat (leField b 8 2))
          ((b.drop baseHeaderLen).take (extraLen b))).map fun cmdline =>
            { inner := b.drop (headerEnd b)
              version := UInt16.ofNat (leField b 8 2)
              cmdline
              lastSeq := none
              poisoned := false } := by
  have hmagic : (b.take baseHeaderLen).take 8 = b.take 8 := by
    rw [List.take_take]
    rfl
  have hlenExtra : leField b 10 2 - baseHeaderLen = extraLen b := rfl
  unfold TraceReader.open
  by_cases hlen : b.length < baseHeaderLen
  · simp [readOr_list, hlen, bind, Except.bind]
  · have hextra : (b.drop baseHeaderLen).length < extraLen b ↔ b.length < headerEnd b := by
      simp only [List.length_drop, headerEnd]
      omega
    simp only [readOr_list, hlen, if_false, bind, Except.bind, hmagic,
      leField_take b (show 8 + 2 ≤ baseHeaderLen by decide),
      leField_take b (show 10 + 2 ≤ baseHeaderLen by decide), hlenExtra, hextra]
    -- From here on the checks are taken in the order of the source.
    by_cases hm : b.take 8 ≠ magic
    · simp [hm, throw, throwThe, MonadExceptOf.throw]
    · by_cases hv : UInt16.ofNat (leField b 8 2) > formatVersion
      · simp [hm, hv, throw, throwThe, MonadExceptOf.throw]
      · by_cases he : b.length < headerEnd b
        · simp [hm, hv, he]
        · simp only [hm, hv, he, if_false, pure, Except.pure, List.drop_drop]
          cases headerCmdline (UInt16.ofNat (leField b 8 2))
            ((b.drop baseHeaderLen).take (extraLen b)) with
          | error e => rfl
          | ok c => rfl

/-- A successful `open` read the whole header and stopped right after it. -/
theorem open_ok {b : Bytes} {r : TraceReader Bytes} (h : TraceReader.open b = .ok r) :
    headerEnd b ≤ b.length ∧ r.inner = b.drop (headerEnd b) ∧
      r.version ≤ formatVersion ∧ r.lastSeq = none ∧ r.poisoned = false := by
  rw [open_list] at h
  split at h
  · cases h
  split at h
  · cases h
  split at h
  · cases h
  rename_i hver
  split at h
  · cases h
  rename_i hend
  cases hc : headerCmdline (UInt16.ofNat (leField b 8 2))
      ((b.drop baseHeaderLen).take (extraLen b)) with
  | error e => simp [hc, Except.map] at h
  | ok c =>
    rw [hc] at h
    rcases Except.ok.inj h with rfl
    exact ⟨by omega, rfl, UInt16.not_lt.mp hver, rfl, rfl⟩

/-! ## One record -/

variable (crc32 : Bytes → UInt32)

/-- A read of `n` bytes takes them off the front, or it fails and takes what there is. -/
theorem readBody_list (n : Nat) (r : TraceReader Bytes) :
    readBody n r =
      if r.inner.length < n then .error .truncated { r with inner := r.inner.drop n }
      else .ok (r.inner.take n) { r with inner := r.inner.drop n } := by
  by_cases h : r.inner.length < n
  · simp [readBody, onInner, ByteIO.readExact_list, h]
  · simp [readBody, onInner, ByteIO.readExact_list, h]

/-- The length prefix tells a clean end from a torn one. -/
theorem readLen_list (r : TraceReader Bytes) :
    onInner (readExactOrEof 4) r =
      if r.inner.length < 4 then
        .ok (if r.inner.isEmpty then .eof else .partway) { r with inner := r.inner.drop 4 }
      else .ok (.full (r.inner.take 4)) { r with inner := r.inner.drop 4 } := by
  have htake : (r.inner.take 4).length < 4 ↔ r.inner.length < 4 := by
    simp only [List.length_take]
    omega
  have hempty : (r.inner.take 4).isEmpty = r.inner.isEmpty := by
    cases r.inner <;> rfl
  by_cases h : r.inner.length < 4
  · simp only [onInner, readExactOrEof, ByteIO.fill_list, if_pos (htake.mpr h), if_pos h, hempty]
  · simp only [onInner, readExactOrEof, ByteIO.fill_list, if_neg (mt htake.mp h), if_neg h]

/-- A seq after the last one is noted. -/
theorem checkMonotonic_of_after {r : TraceReader Bytes} {seq : UInt64}
    (h : SeqAfter r.lastSeq seq) :
    checkMonotonic seq r = .ok () { r with lastSeq := some seq } := by
  cases hl : r.lastSeq with
  | none => simp [checkMonotonic, run_bind, hl]
  | some previous =>
    have hlt : ¬ seq ≤ previous := UInt64.not_le.mpr (h previous hl)
    simp [checkMonotonic, run_bind, hl, hlt]

/-- What is noted was after the last one. -/
theorem checkMonotonic_ok {r r' : TraceReader Bytes} {seq : UInt64}
    (h : checkMonotonic seq r = .ok () r') :
    SeqAfter r.lastSeq seq ∧ r' = { r with lastSeq := some seq } := by
  cases hl : r.lastSeq with
  | none =>
    simp only [checkMonotonic, run_bind, run_get, hl, run_modify] at h
    rcases EStateM.Result.ok.inj h with ⟨-, rfl⟩
    exact ⟨fun previous hp => (by cases hp), rfl⟩
  | some previous =>
    simp only [checkMonotonic, run_bind, run_get, hl] at h
    split at h
    · cases h
    · rename_i hle
      rcases EStateM.Result.ok.inj h with ⟨-, rfl⟩
      refine ⟨?_, rfl⟩
      intro p hp
      rcases Option.some.inj hp with rfl
      exact UInt64.not_le.mp hle

/-- A well-formed frame is read whole. -/
theorem readRecord_frame {r : TraceReader Bytes} (body rest : Bytes)
    (hinner : r.inner = frame crc32 body ++ rest) (hfit : BodyFits r.version body)
    (hseq : SeqAfter r.lastSeq (bodySeq body)) :
    readRecord crc32 r =
      .ok (some (decodeBody r.version body))
        { r with inner := rest, lastSeq := some (bodySeq body) } := by
  rcases hfit with ⟨hmin, hmax⟩
  have hlt : body.length < 256 ^ 4 := Nat.lt_of_le_of_lt hmax maxBodyLen_lt
  have htake : r.inner.take 4 = LittleEndian.encode 4 body.length := by
    have h := @List.take_left _ (LittleEndian.encode 4 body.length)
      (body ++ (LittleEndian.encode 4 (crc32 body).toNat ++ rest))
    rw [LittleEndian.length_encode] at h
    simpa only [hinner, frame, List.append_assoc] using h
  have hdrop : r.inner.drop 4 = body ++ (LittleEndian.encode 4 (crc32 body).toNat ++ rest) := by
    have h := @List.drop_left _ (LittleEndian.encode 4 body.length)
      (body ++ (LittleEndian.encode 4 (crc32 body).toNat ++ rest))
    rw [LittleEndian.length_encode] at h
    simpa only [hinner, frame, List.append_assoc] using h
  have hlen : ¬ r.inner.length < 4 := by
    simp only [hinner, frame, List.length_append, LittleEndian.length_encode]
    omega
  have hdecode : LittleEndian.decode (LittleEndian.encode 4 body.length) = body.length :=
    LittleEndian.decode_encode_of_lt hlt
  have hcrc : (crc32 body).toNat =
      LittleEndian.decode (LittleEndian.encode 4 (crc32 body).toNat) :=
    (LittleEndian.decode_encode_of_lt (crc32 body).toNat_lt).symm
  -- The three parts of the frame are read off one after the other.
  have hbody := readBody_list body.length
    { r with inner := body ++ (LittleEndian.encode 4 (crc32 body).toNat ++ rest) }
  have hcrcBuf := readBody_list 4
    { r with inner := LittleEndian.encode 4 (crc32 body).toNat ++ rest }
  have hmono := checkMonotonic_of_after (r := { r with inner := rest }) hseq
  simp at hbody hcrcBuf
  simp only [readRecord, readFrame, run_bind, readLen_list, if_neg hlen, htake, hdrop, run_map,
    run_get, hdecode, if_neg (Nat.not_lt.mpr hmin), if_neg (Nat.not_lt.mpr hmax)]
  simp only [hbody, hcrcBuf, ← hcrc, ne_eq, not_true_eq_false, if_false, run_bind,
    decodeBody_seq, hmono, run_pure]

/-- What `read_frame` accepted was a body and its checksum. -/
theorem readFrame_ok {n : Nat} {r r' : TraceReader Bytes} {record : Record}
    (h : readFrame crc32 n r = .ok record r') :
    ∃ body, body.length = n ∧ BodyFits r.version body ∧ SeqAfter r.lastSeq (bodySeq body) ∧
      record = decodeBody r.version body ∧
      r.inner = body ++ (LittleEndian.encode 4 (crc32 body).toNat ++ r'.inner) ∧
      r' = { r with inner := r'.inner, lastSeq := some (bodySeq body) } := by
  simp only [readFrame, run_bind, run_get] at h
  split at h
  · cases h
  split at h
  · cases h
  rename_i hmin hmax
  rcases bind_eq_ok h with ⟨body, r₁, hbody, h⟩
  rcases bind_eq_ok h with ⟨crcBuf, r₂, hcrc, h⟩
  rw [readBody_list] at hbody hcrc
  split at hbody
  · cases hbody
  rename_i hlen₁
  rcases EStateM.Result.ok.inj hbody with ⟨rfl, rfl⟩
  split at hcrc
  · cases hcrc
  rename_i hlen₂
  rcases EStateM.Result.ok.inj hcrc with ⟨rfl, rfl⟩
  split at h
  · cases h
  rename_i hsum
  rcases bind_eq_ok h with ⟨⟨⟩, r₃, hmono, h⟩
  rcases checkMonotonic_ok hmono with ⟨hafter, rfl⟩
  rcases EStateM.Result.ok.inj h with ⟨rfl, rfl⟩
  simp only [ne_eq, not_not] at hsum
  have hblen : (r.inner.take n).length = n := by
    rw [List.length_take]
    omega
  refine ⟨r.inner.take n, hblen, ?_, hafter, rfl, ?_, rfl⟩
  · constructor
    · omega
    · omega
  · -- the checksum bytes are the encoding of the checksum
    simp only [List.length_drop] at hlen₂
    have hcrcLen : ((r.inner.drop n).take 4).length = 4 := by
      simp only [List.length_take, List.length_drop]
      omega
    rw [hsum, LittleEndian.encode_decode_of_length hcrcLen]
    simp only [List.take_append_drop]

/-- A successful read consumed exactly one well-formed frame. -/
theorem readRecord_ok_some {r r' : TraceReader Bytes} {record : Record}
    (h : readRecord crc32 r = .ok (some record) r') :
    ∃ body, BodyFits r.version body ∧ SeqAfter r.lastSeq (bodySeq body) ∧
      record = decodeBody r.version body ∧ r.inner = frame crc32 body ++ r'.inner ∧
      r' = { r with inner := r'.inner, lastSeq := some (bodySeq body) } := by
  rcases bind_eq_ok h with ⟨outcome, r₁, hlen, h⟩
  rw [readLen_list] at hlen
  split at hlen
  · rcases EStateM.Result.ok.inj hlen with ⟨rfl, rfl⟩
    by_cases he : r.inner.isEmpty
    · simp [he] at h
    · simp [he] at h
  rename_i hlen₄
  rcases EStateM.Result.ok.inj hlen with ⟨rfl, rfl⟩
  simp only [run_map] at h
  split at h
  · rename_i rec' r₂ hframe
    rcases EStateM.Result.ok.inj h with ⟨hrec, rfl⟩
    rcases Option.some.inj hrec with rfl
    rcases readFrame_ok crc32 hframe with ⟨body, hblen, hfit, hafter, hdec, hinner, hr'⟩
    refine ⟨body, hfit, hafter, hdec, ?_, hr'⟩
    have htake : (r.inner.take 4).length = 4 := by
      rw [List.length_take]
      omega
    -- Four bytes are the encoding of the number they give.
    have hprefix : LittleEndian.encode 4 body.length = r.inner.take 4 := by
      rw [hblen, LittleEndian.encode_decode_of_length htake]
    calc r.inner = r.inner.take 4 ++ r.inner.drop 4 := (List.take_append_drop 4 r.inner).symm
      _ = frame crc32 body ++ r₂.inner := by
        simp only [frame, hprefix, List.append_assoc]
        rw [← hinner]
  · cases h

/-- The end is reported only when nothing is left. -/
theorem readRecord_ok_none {r r' : TraceReader Bytes} (h : readRecord crc32 r = .ok none r') :
    r.inner = [] ∧ r' = r := by
  rcases bind_eq_ok h with ⟨outcome, r₁, hlen, h⟩
  rw [readLen_list] at hlen
  split at hlen
  · rcases EStateM.Result.ok.inj hlen with ⟨rfl, rfl⟩
    by_cases he : r.inner.isEmpty
    · have hnil : r.inner = [] := List.isEmpty_iff.mp he
      simp only [he, if_true, run_pure] at h
      rcases EStateM.Result.ok.inj h with ⟨-, rfl⟩
      refine ⟨hnil, ?_⟩
      rw [hnil, List.drop_nil, ← hnil]
    · simp [he] at h
  · rcases EStateM.Result.ok.inj hlen with ⟨rfl, rfl⟩
    simp only [run_map] at h
    split at h
    · cases h
    · cases h

theorem readRecord_nil {r : TraceReader Bytes} (h : r.inner = []) :
    readRecord crc32 r = .ok none r := by
  have hr : { r with inner := [] } = r := by rw [← h]
  simp [readRecord, run_bind, readLen_list, h, hr]

/-- Any proper, non-empty prefix of a frame is reported as truncated. -/
theorem readRecord_torn {r : TraceReader Bytes} {body rest : Bytes}
    (hfit : BodyFits r.version body) (hne : r.inner ≠ []) (hrest : rest ≠ [])
    (hinner : r.inner ++ rest = frame crc32 body) :
    ∃ r', readRecord crc32 r = .error .truncated r' := by
  rcases hfit with ⟨hmin, hmax⟩
  have hlt : body.length < 256 ^ 4 := Nat.lt_of_le_of_lt hmax maxBodyLen_lt
  have htotal : r.inner.length + rest.length = 4 + body.length + 4 := by
    have h := congrArg List.length hinner
    simp only [frame, List.length_append, LittleEndian.length_encode] at h
    omega
  have hpos : 0 < rest.length := List.length_pos_iff.mpr hrest
  have hempty : r.inner.isEmpty = false := by
    simpa using hne
  by_cases hshort : r.inner.length < 4
  · -- cut inside the length prefix
    refine ⟨{ r with inner := r.inner.drop 4 }, ?_⟩
    simp [readRecord, run_bind, readLen_list, hshort, hempty]
  have htake : r.inner.take 4 = LittleEndian.encode 4 body.length := by
    have h := congrArg (List.take 4) hinner
    rw [List.take_append_of_le_length (by omega), frame, List.append_assoc] at h
    have h' := @List.take_left _ (LittleEndian.encode 4 body.length)
      (body ++ LittleEndian.encode 4 (crc32 body).toNat)
    rw [LittleEndian.length_encode] at h'
    exact h.trans h'
  have hdecode : LittleEndian.decode (LittleEndian.encode 4 body.length) = body.length :=
    LittleEndian.decode_encode_of_lt hlt
  by_cases hbody : (r.inner.drop 4).length < body.length
  · -- cut inside the body
    refine ⟨{ r with inner := (r.inner.drop 4).drop body.length }, ?_⟩
    simp only [readRecord, readFrame, run_bind, readLen_list, if_neg hshort, htake, run_map,
      run_get, hdecode, if_neg (Nat.not_lt.mpr hmin), if_neg (Nat.not_lt.mpr hmax),
      readBody_list, if_pos hbody]
  · -- cut inside the checksum
    have hcrc : ((r.inner.drop 4).drop body.length).length < 4 := by
      simp only [List.length_drop] at hbody ⊢
      omega
    refine ⟨{ r with inner := ((r.inner.drop 4).drop body.length).drop 4 }, ?_⟩
    simp only [readRecord, readFrame, run_bind, readLen_list, if_neg hshort, htake, run_map,
      run_get, hdecode, if_neg (Nat.not_lt.mpr hmin), if_neg (Nat.not_lt.mpr hmax),
      readBody_list, if_neg hbody, if_pos hcrc]

/-! ## The iteration -/

variable {crc32}

theorem next_ok {r r' : TraceReader Bytes} {record : Record} (hp : r.poisoned = false)
    (h : readRecord crc32 r = .ok (some record) r') : next crc32 r = (some (.ok record), r') := by
  simp [next, hp, h]

theorem next_end {r : TraceReader Bytes} (h : r.inner = []) : next crc32 r = (none, r) := by
  cases hp : r.poisoned with
  | true => simp [next, hp]
  | false => simp [next, hp, readRecord_nil crc32 h]

theorem next_error {r r' : TraceReader Bytes} {err : TraceError} (hp : r.poisoned = false)
    (h : readRecord crc32 r = .error err r') :
    next crc32 r = (some (.error err), { r' with poisoned := true }) := by
  simp [next, hp, h]

/-- The iterator peels its first answer off. -/
theorem Yields.cons {r r' : TraceReader Bytes} {x : Except TraceError Record}
    {items : List (Except TraceError Record)} (h : next crc32 r = (some x, r'))
    (hrest : Yields crc32 r' items) : Yields crc32 r (x :: items) := by
  intro i
  cases i with
  | zero => simp [item, after, h]
  | succ i =>
    have hi := hrest i
    simpa [item, after, h] using hi

/-- An iterator that stands still at the end yields nothing more. -/
theorem Yields.nil {r : TraceReader Bytes} (h : next crc32 r = (none, r)) : Yields crc32 r [] := by
  have hafter : ∀ i, after crc32 i r = r := by
    intro i
    induction i with
    | zero => rfl
    | succ i ih => simpa [after, h] using ih
  intro i
  simp [item, hafter, h]

/-- After an error the iterator is over. -/
theorem Yields.error {r r' : TraceReader Bytes} {err : TraceError} (hp : r.poisoned = false)
    (h : readRecord crc32 r = .error err r') : Yields crc32 r [.error err] := by
  apply Yields.cons (next_error hp h)
  apply Yields.nil
  simp [next]

/-- What an iterator yields is determined. -/
theorem Yields.unique {r : TraceReader Bytes} {xs ys : List (Except TraceError Record)}
    (hx : Yields crc32 r xs) (hy : Yields crc32 r ys) : xs = ys := by
  apply List.ext_getElem?
  intro i
  rw [← hx i, hy i]

/-- Reading through a run of well-formed frames, whatever follows them. -/
theorem yields_frames {r : TraceReader Bytes} {bodies : List Bytes} (rest : Bytes)
    (hp : r.poisoned = false) (hinner : r.inner = (bodies.map (frame crc32)).flatten ++ rest)
    (hfit : ∀ body ∈ bodies, BodyFits r.version body)
    (hlast : ∀ body ∈ bodies, SeqAfter r.lastSeq (bodySeq body))
    (hseq : (bodies.map bodySeq).Pairwise (· < ·)) :
    ∃ last, after crc32 bodies.length r = { r with inner := rest, lastSeq := last } ∧
      ∀ items, Yields crc32 { r with inner := rest, lastSeq := last } items →
        Yields crc32 r (bodies.map (fun body => .ok (decodeBody r.version body)) ++ items) := by
  induction bodies generalizing r with
  | nil =>
    have hr : { r with inner := rest, lastSeq := r.lastSeq } = r := by
      have hrest : r.inner = rest := by simpa using hinner
      rw [← hrest]
    exact ⟨r.lastSeq, by simp [after, hr], fun items h => by simpa [hr] using h⟩
  | cons body bodies ih =>
    have hread := readRecord_frame crc32 (r := r) body
      ((bodies.map (frame crc32)).flatten ++ rest)
      (by simpa using hinner) (hfit body (by simp)) (hlast body (by simp))
    have hnext := next_ok hp hread
    rw [List.map_cons, List.pairwise_cons] at hseq
    rcases ih (r := { r with
        inner := (bodies.map (frame crc32)).flatten ++ rest
        lastSeq := some (bodySeq body) }) hp rfl
        (fun b hb => hfit b (by simp [hb]))
        (by
          intro b hb previous hprev
          rcases Option.some.inj hprev with rfl
          exact hseq.1 _ (List.mem_map_of_mem hb))
        hseq.2 with ⟨last, hafter, hyields⟩
    refine ⟨last, ?_, ?_⟩
    · simpa [after, hnext] using hafter
    · intro items hitems
      exact Yields.cons hnext (hyields items hitems)

/-- Whatever the bytes, iteration is a run of well-formed frames and then either
the end of the input or one error. -/
theorem iterates {r : TraceReader Bytes} (hp : r.poisoned = false) :
    ∃ (bodies : List Bytes) (tail : List TraceError),
      tail.length ≤ 1 ∧
      Yields crc32 r
        (bodies.map (fun body => .ok (decodeBody r.version body)) ++ tail.map .error) ∧
      (∀ body ∈ bodies, BodyFits r.version body ∧ SeqAfter r.lastSeq (bodySeq body)) ∧
      (bodies.map bodySeq).Pairwise (· < ·) ∧
      r.inner = (bodies.map (frame crc32)).flatten ++ (after crc32 bodies.length r).inner ∧
      (tail = [] → (after crc32 bodies.length r).inner = []) := by
  -- every frame read shortens the input
  induction hn : r.inner.length using Nat.strong_induction_on generalizing r with
  | _ n ih =>
    subst hn
    cases hread : readRecord crc32 r with
    | error err r' =>
      refine ⟨[], [err], by simp, by simpa using Yields.error hp hread, by simp, by simp, ?_, ?_⟩
      · simp [after]
      · intro h
        cases h
    | ok result r' =>
      cases result with
      | none =>
        rcases readRecord_ok_none crc32 hread with ⟨hnil, rfl⟩
        refine ⟨[], [], by simp, ?_, by simp, by simp, ?_, ?_⟩
        · simpa using Yields.nil (next_end hnil)
        · simp [after]
        · intro _
          simpa [after] using hnil
      | some record =>
        rcases readRecord_ok_some crc32 hread with ⟨body, hfit, hafter, rfl, hinner, hr'⟩
        have hnext := next_ok hp hread
        have hshort : r'.inner.length < r.inner.length := by
          have hlen := congrArg List.length hinner
          simp only [frame, List.length_append, LittleEndian.length_encode] at hlen
          omega
        have hp' : r'.poisoned = false := by rw [hr', hp]
        have hver : r'.version = r.version := by rw [hr']
        have hlast : r'.lastSeq = some (bodySeq body) := by rw [hr']
        rcases ih r'.inner.length hshort hp' rfl with
          ⟨bodies, tail, htail, hyields, hall, hseq, hrest, hend⟩
        rw [hver] at hyields
        refine ⟨body :: bodies, tail, htail, Yields.cons hnext hyields, ?_, ?_, ?_, ?_⟩
        · intro b hb
          rcases List.mem_cons.mp hb with rfl | hb
          · exact ⟨hfit, hafter⟩
          · rcases hall b hb with ⟨hbfit, hbafter⟩
            rw [hver] at hbfit
            refine ⟨hbfit, ?_⟩
            intro previous hprev
            exact UInt64.lt_trans (hafter previous hprev) (hbafter _ hlast)
        · rw [List.map_cons, List.pairwise_cons]
          refine ⟨?_, hseq⟩
          intro seq hseqmem
          rcases List.mem_map.mp hseqmem with ⟨b, hb, rfl⟩
          exact (hall b hb).2 _ hlast
        · simp only [List.map_cons, List.flatten_cons, List.length_cons, after, hnext,
            List.append_assoc]
          rw [← hrest]
          exact hinner
        · simpa [after, hnext] using hend

end TraceReader

end Mirrorscope.Trace
