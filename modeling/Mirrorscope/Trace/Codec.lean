import Mirrorscope.Lib.Effect
import Mirrorscope.Trace.Format

/-! # The codecs of the trace format

What encoding and decoding do to each other, for the kinds, the record bodies
(in the layout of any readable version) and the command line embedded in the
header. Each codec gets both directions: decoding inverts encoding, and what
decodes successfully is the encoding of the result.
-/

namespace Mirrorscope.Trace

open Effect (except_bind_ok)

/-! ## Kinds -/

/-- Every raw kind survives decoding and re-encoding. -/
theorem toU16_fromU16 (raw : UInt16) : (EventKind.fromU16 raw).toU16 = raw := by
  unfold EventKind.fromU16
  repeat' split
  all_goals first | exact (by assumption : raw = _).symm | rfl

/-- A canonical kind survives encoding and decoding. -/
theorem fromU16_toU16 {kind : EventKind} (h : kind.Canonical) :
    EventKind.fromU16 kind.toU16 = kind := by
  cases kind with
  | unknown raw =>
    have hne : ∀ k : UInt16, 1 ≤ k ∧ k ≤ 10 → raw ≠ k := by
      intro k hk heq
      subst heq
      exact h hk
    simp only [EventKind.toU16, EventKind.fromU16, hne 1 (by decide), hne 2 (by decide),
      hne 3 (by decide), hne 4 (by decide), hne 5 (by decide), hne 6 (by decide),
      hne 7 (by decide), hne 8 (by decide), hne 9 (by decide), hne 10 (by decide), if_false]
  | _ => rfl

/-! ## Fixed-width fields -/

/-- Reading back a number that was written at some offset. -/
theorem leField_at (pre : Bytes) (w n : Nat) (post : Bytes) :
    leField (pre ++ (LittleEndian.encode w n ++ post)) pre.length w = n % 256 ^ w := by
  have htake : (LittleEndian.encode w n ++ post).take w = LittleEndian.encode w n := by
    have h := @List.take_left _ (LittleEndian.encode w n) post
    rwa [LittleEndian.length_encode] at h
  rw [leField, List.drop_left, htake, LittleEndian.decode_encode]

theorem encode_leField {body : Bytes} {start w : Nat} (h : start + w ≤ body.length) :
    LittleEndian.encode w (leField body start w) = (body.drop start).take w := by
  apply LittleEndian.encode_decode_of_length
  simp
  omega

theorem leField_lt (body : Bytes) (start w : Nat) : leField body start w < 256 ^ w := by
  have h := LittleEndian.decode_lt ((body.drop start).take w)
  have hlen : ((body.drop start).take w).length ≤ w := by simp
  exact Nat.lt_of_lt_of_le h (Nat.pow_le_pow_right (by decide) hlen)

/-! ## Record bodies -/

/-- The body layout of a given version: with the tid from v3 on, without before. -/
def encodeLayout (version : UInt16) (record : Record) : Bytes :=
  LittleEndian.encode 8 record.seq.toNat ++
    LittleEndian.encode 8 record.event.timestampNs.toNat ++
    (if version ≥ tidMinVersion then
      LittleEndian.encode 4 (record.event.tid.getD 0).toNat else []) ++
    LittleEndian.encode 2 record.event.kind.toU16.toNat ++ record.event.payload

/-- What the reader of a v3 trace sees of an event: the kind through its wire
number, and a tid that is always present. -/
def Event.stored (event : Event) : Event :=
  { event with
    kind := EventKind.fromU16 event.kind.toU16
    tid := some (event.tid.getD 0) }

theorem stored_of_canonical {event : Event} (h : event.kind.Canonical) :
    event.stored = { event with tid := some (event.tid.getD 0) } := by
  simp [Event.stored, fromU16_toU16 h]

theorem length_encodeBody (seq : UInt64) (event : Event) :
    (encodeBody seq event).length = bodyPrefixLenV3 + event.payload.length := by
  simp [encodeBody, bodyPrefixLenV3]
  omega

/-- Decoding a body the writer encoded. -/
theorem decodeBody_encodeBody (seq : UInt64) (event : Event) :
    decodeBody formatVersion (encodeBody seq event) = { seq, event := event.stored } := by
  have hseq : leField (encodeBody seq event) 0 8 = seq.toNat % 256 ^ 8 := by
    have h := leField_at [] 8 seq.toNat
      (LittleEndian.encode 8 event.timestampNs.toNat ++
        LittleEndian.encode 4 (event.tid.getD 0).toNat ++
        LittleEndian.encode 2 event.kind.toU16.toNat ++ event.payload)
    simpa only [encodeBody, List.append_assoc, List.nil_append, List.length_nil] using h
  have hts : leField (encodeBody seq event) 8 8 = event.timestampNs.toNat % 256 ^ 8 := by
    have h := leField_at (LittleEndian.encode 8 seq.toNat) 8 event.timestampNs.toNat
      (LittleEndian.encode 4 (event.tid.getD 0).toNat ++
        LittleEndian.encode 2 event.kind.toU16.toNat ++ event.payload)
    simpa only [encodeBody, List.append_assoc, LittleEndian.length_encode] using h
  have htid : leField (encodeBody seq event) 16 4 = (event.tid.getD 0).toNat % 256 ^ 4 := by
    have h := leField_at
      (LittleEndian.encode 8 seq.toNat ++ LittleEndian.encode 8 event.timestampNs.toNat)
      4 (event.tid.getD 0).toNat (LittleEndian.encode 2 event.kind.toU16.toNat ++ event.payload)
    simpa only [encodeBody, List.append_assoc, List.length_append,
      LittleEndian.length_encode] using h
  have hkind : leField (encodeBody seq event) 20 2 = event.kind.toU16.toNat % 256 ^ 2 := by
    have h := leField_at
      (LittleEndian.encode 8 seq.toNat ++ LittleEndian.encode 8 event.timestampNs.toNat ++
        LittleEndian.encode 4 (event.tid.getD 0).toNat)
      2 event.kind.toU16.toNat event.payload
    simpa only [encodeBody, List.append_assoc, List.length_append,
      LittleEndian.length_encode] using h
  have hpay : (encodeBody seq event).drop 22 = event.payload := by
    have h := @List.drop_left _ (LittleEndian.encode 8 seq.toNat ++
      LittleEndian.encode 8 event.timestampNs.toNat ++
      LittleEndian.encode 4 (event.tid.getD 0).toNat ++
      LittleEndian.encode 2 event.kind.toU16.toNat) event.payload
    simpa only [encodeBody, List.length_append, LittleEndian.length_encode] using h
  have hcur : formatVersion ≥ tidMinVersion := by decide
  simp only [decodeBody, hcur, if_true, hpay, hseq, hts, htid, hkind, Event.stored,
    LittleEndian.ofNat_mod_u64, LittleEndian.ofNat_mod_u32, LittleEndian.ofNat_mod_u16]

/-- A long enough body is the layout of the record it decodes to. -/
theorem encodeLayout_decodeBody {version : UInt16} {body : Bytes}
    (h : minBodyLen version ≤ body.length) :
    encodeLayout version (decodeBody version body) = body := by
  -- consecutive slices of the body glue back together
  have hglue : ∀ i j : Nat, (body.drop i).take j ++ body.drop (i + j) = body.drop i := by
    intro i j
    rw [← List.drop_drop, List.take_append_drop]
  by_cases hv : version ≥ tidMinVersion
  · have hlen : 22 ≤ body.length := by simpa [minBodyLen, hv, bodyPrefixLenV3] using h
    simp only [encodeLayout, decodeBody, hv, if_true, Option.getD_some, toU16_fromU16,
      LittleEndian.toNat_ofNat_u64, LittleEndian.toNat_ofNat_u32, LittleEndian.toNat_ofNat_u16,
      leField_lt]
    rw [encode_leField (by omega), encode_leField (by omega), encode_leField (by omega),
      encode_leField (by omega)]
    simp only [List.append_assoc, hglue, List.drop_zero, List.take_append_drop]
  · have hlen : 18 ≤ body.length := by simpa [minBodyLen, hv, bodyPrefixLen] using h
    simp only [encodeLayout, decodeBody, hv, if_false, toU16_fromU16, List.append_nil,
      LittleEndian.toNat_ofNat_u64, LittleEndian.toNat_ofNat_u16, leField_lt]
    rw [encode_leField (by omega), encode_leField (by omega), encode_leField (by omega)]
    simp only [List.append_assoc, hglue, List.drop_zero, List.take_append_drop]

/-- The tid of a decoded body is present just from v3 on. -/
theorem decodeBody_tid (version : UInt16) (body : Bytes) :
    (decodeBody version body).event.tid.isSome = decide (version ≥ tidMinVersion) := by
  by_cases hv : version ≥ tidMinVersion
  · simp [decodeBody, hv]
  · simp [decodeBody, hv]

/-! ## The embedded command line -/

theorem fromUtf8_asBytes (s : String) : fromUtf8 (asBytes s) = some s := by
  have hvalid : s.toByteArray.IsValidUTF8 := s.isValidUTF8
  simp [fromUtf8, asBytes, String.fromUTF8?, hvalid, String.fromUTF8]

theorem asBytes_of_fromUtf8 {bs : Bytes} {s : String} (h : fromUtf8 bs = some s) :
    asBytes s = bs := by
  unfold fromUtf8 String.fromUTF8? at h
  split at h
  · rcases Option.some.inj h with rfl
    simp [asBytes, String.fromUTF8]
  · cases h

theorem getRange_at (pre xs post : Bytes) :
    getRange (pre ++ (xs ++ post)) pre.length (pre.length + xs.length) = some xs := by
  simp [getRange]

theorem getRange_some {buf xs : Bytes} {start stop : Nat} (h : getRange buf start stop = some xs) :
    xs.length = stop - start ∧ buf.drop start = xs ++ buf.drop stop := by
  unfold getRange at h
  split at h
  · rename_i hle
    rcases Option.some.inj h with rfl
    constructor
    · simp
      omega
    · have hstop : stop = start + (stop - start) := by omega
      conv_rhs => rw [hstop, ← List.drop_drop, ← hstop]
      exact (List.take_append_drop _ _).symm
  · cases h

theorem readU32_at (pre : Bytes) (n : Nat) (post : Bytes) :
    readU32 (pre ++ (LittleEndian.encode 4 n ++ post)) pre.length =
      .ok (n % 256 ^ 4, pre.length + 4) := by
  have h := getRange_at pre (LittleEndian.encode 4 n) post
  rw [LittleEndian.length_encode] at h
  simp only [readU32, h, LittleEndian.decode_encode]

theorem readU32_ok {buf : Bytes} {pos n pos' : Nat} (h : readU32 buf pos = .ok (n, pos')) :
    n < 256 ^ 4 ∧ buf.drop pos = LittleEndian.encode 4 n ++ buf.drop pos' := by
  unfold readU32 at h
  split at h
  · rename_i slice hslice
    rcases Prod.mk.inj (Except.ok.inj h) with ⟨rfl, rfl⟩
    rcases getRange_some hslice with ⟨hlen, hdrop⟩
    have hlen4 : slice.length = 4 := by omega
    constructor
    · have hlt := LittleEndian.decode_lt slice
      rwa [hlen4] at hlt
    · rw [LittleEndian.encode_decode_of_length hlen4]
      exact hdrop
  · cases h

theorem readStr_at (pre : Bytes) (s : String) (post : Bytes) (h : (asBytes s).length < 256 ^ 4) :
    readStr (pre ++ (pushStr s ++ post)) pre.length =
      .ok (s, pre.length + (pushStr s).length) := by
  have hu32 := readU32_at pre (asBytes s).length (asBytes s ++ post)
  have hrange := getRange_at (pre ++ LittleEndian.encode 4 (asBytes s).length) (asBytes s) post
  simp only [List.length_append, LittleEndian.length_encode, List.append_assoc] at hrange
  simp only [readStr, pushStr, List.append_assoc, hu32, Nat.mod_eq_of_lt h, bind, Except.bind,
    hrange, fromUtf8_asBytes, List.length_append, LittleEndian.length_encode]
  rw [Nat.add_assoc]

theorem readStr_ok {buf : Bytes} {pos pos' : Nat} {s : String}
    (h : readStr buf pos = .ok (s, pos')) : buf.drop pos = pushStr s ++ buf.drop pos' := by
  rcases except_bind_ok h with ⟨⟨len, pos₁⟩, hlen, h⟩
  rcases readU32_ok hlen with ⟨-, hdrop₁⟩
  simp only at h
  split at h
  · cases h
  · rename_i slice hslice
    split at h
    · rename_i str hstr
      rcases Prod.mk.inj (Except.ok.inj h) with ⟨rfl, rfl⟩
      rcases getRange_some hslice with ⟨hslen, hdrop₂⟩
      have hbytes : asBytes str = slice := asBytes_of_fromUtf8 hstr
      have hlen' : (asBytes str).length = len := by
        rw [hbytes, hslen]
        omega
      rw [hdrop₁, hdrop₂, pushStr, hlen', hbytes, List.append_assoc]
    · cases h

/-- Reading back as many arguments as were written. -/
theorem readArgs_at (pre : Bytes) (args : List String) (post : Bytes)
    (h : ∀ arg ∈ args, (asBytes arg).length < 256 ^ 4) :
    readArgs (pre ++ (args.flatMap pushStr ++ post)) args.length pre.length =
      .ok (args, pre.length + (args.flatMap pushStr).length) := by
  induction args generalizing pre with
  | nil => simp [readArgs]
  | cons arg args ih =>
    have hhead := readStr_at pre arg (args.flatMap pushStr ++ post) (h arg (by simp))
    have htail := ih (pre ++ pushStr arg) (fun a ha => h a (by simp [ha]))
    simp only [List.append_assoc, List.length_append] at htail
    simp only [List.flatMap_cons, List.length_cons, List.append_assoc, readArgs, hhead, bind,
      Except.bind, htail, List.length_append]
    rw [Nat.add_assoc]

theorem readArgs_ok {buf : Bytes} {count pos pos' : Nat} {args : List String}
    (h : readArgs buf count pos = .ok (args, pos')) :
    args.length = count ∧ buf.drop pos = args.flatMap pushStr ++ buf.drop pos' := by
  induction count generalizing pos args with
  | zero =>
    rcases Prod.mk.inj (Except.ok.inj h) with ⟨rfl, rfl⟩
    simp
  | succ count ih =>
    rcases except_bind_ok h with ⟨⟨arg, pos₁⟩, harg, h⟩
    rcases except_bind_ok h with ⟨⟨rest, pos₂⟩, hrest, h⟩
    rcases Prod.mk.inj (Except.ok.inj h) with ⟨rfl, rfl⟩
    rcases ih hrest with ⟨hlen, hdrop⟩
    constructor
    · simp [hlen]
    · rw [readStr_ok harg, hdrop, List.flatMap_cons, List.append_assoc]

theorem length_encodeCmdline (program : String) (args : List String) :
    (encodeCmdline program args).length =
      8 + (asBytes program).length + (args.flatMap pushStr).length := by
  simp [encodeCmdline, pushStr]
  omega

/-- Decoding inverts encoding as long as the lengths fit their prefixes; what
follows the encoding is ignored. -/
theorem decodeCmdline_encodeCmdline (program : String) (args : List String) (post : Bytes)
    (h : (encodeCmdline program args).length < 256 ^ 4) :
    decodeCmdline (encodeCmdline program args ++ post) = .ok { program, args } := by
  rw [length_encodeCmdline] at h
  have hcount : args.length ≤ (args.flatMap pushStr).length := by
    clear h
    induction args with
    | nil => simp
    | cons arg args ih => simp [pushStr] at ih ⊢; omega
  have harg : ∀ arg ∈ args, (asBytes arg).length < 256 ^ 4 := by
    intro arg hmem
    have hsub : (pushStr arg).length ≤ (args.flatMap pushStr).length :=
      (List.sublist_flatten_of_mem (List.mem_map_of_mem hmem)).length_le
    simp only [pushStr, List.length_append] at hsub
    omega
  have hprog := readStr_at [] program
    (LittleEndian.encode 4 args.length ++ (args.flatMap pushStr ++ post)) (by omega)
  have hnum := readU32_at (pushStr program) args.length (args.flatMap pushStr ++ post)
  have hargs := readArgs_at (pushStr program ++ LittleEndian.encode 4 args.length) args post harg
  simp only [List.nil_append, List.length_nil, Nat.zero_add] at hprog
  simp only [List.append_assoc, List.length_append, LittleEndian.length_encode] at hargs
  simp only [decodeCmdline, encodeCmdline, List.append_assoc, hprog, bind, Except.bind, hnum,
    Nat.mod_eq_of_lt (show args.length < 256 ^ 4 by omega), hargs]

/-- Whatever decodes as a command line starts with that command line's encoding. -/
theorem decodeCmdline_ok {buf : Bytes} {c : Cmdline} (h : decodeCmdline buf = .ok c) :
    ∃ post, buf = encodeCmdline c.program c.args ++ post := by
  rcases except_bind_ok h with ⟨⟨program, pos₁⟩, hprog, h⟩
  rcases except_bind_ok h with ⟨⟨count, pos₂⟩, hcount, h⟩
  rcases except_bind_ok h with ⟨⟨args, pos₃⟩, hargs, h⟩
  rcases Except.ok.inj h with rfl
  rcases readU32_ok hcount with ⟨-, hdrop₂⟩
  rcases readArgs_ok hargs with ⟨hlen, hdrop₃⟩
  have hdrop₁ := readStr_ok hprog
  rw [List.drop_zero] at hdrop₁
  refine ⟨buf.drop pos₃, hdrop₁.trans ?_⟩
  rw [hdrop₂, hdrop₃]
  simp only [encodeCmdline, hlen, List.append_assoc]

end Mirrorscope.Trace
