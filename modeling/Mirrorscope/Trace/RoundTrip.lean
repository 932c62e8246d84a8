import Mirrorscope.Lib.Crc32
import Mirrorscope.Trace.Framing

/-! # Reading back what was written

The writer and the reader put together: a written trace reads back record for
record, a command line survives exactly as long as the header length fits its
sixteen-bit field, and a trace cut at any byte reads as its complete prefix.
-/

namespace Mirrorscope.Trace

open ByteIO (Write ByteVec)
open Effect TraceReader

/-! ## The header -/

/-- The fixed part of a written header. -/
theorem headerBytes_fields (cmdline rest : Bytes) :
    (headerBytes cmdline ++ rest).take 8 = magic ∧
      leField (headerBytes cmdline ++ rest) 8 2 = 3 ∧
      leField (headerBytes cmdline ++ rest) 10 2 = (baseHeaderLen + cmdline.length) % 256 ^ 2 ∧
      (headerBytes cmdline ++ rest).drop baseHeaderLen = cmdline ++ rest := by
  have hlen : magic.length = 8 := rfl
  refine ⟨?_, ?_, ?_, ?_⟩
  · have h := @List.take_left _ magic (LittleEndian.encode 2 formatVersion.toNat ++
      (LittleEndian.encode 2 (baseHeaderLen + cmdline.length) ++ (cmdline ++ rest)))
    rw [hlen] at h
    simpa only [headerBytes, List.append_assoc] using h
  · have h := leField_at magic 2 formatVersion.toNat
      (LittleEndian.encode 2 (baseHeaderLen + cmdline.length) ++ (cmdline ++ rest))
    rw [hlen] at h
    have hthree : formatVersion.toNat % 256 ^ 2 = 3 := by decide
    simpa only [headerBytes, List.append_assoc, hthree] using h
  · have h := leField_at (magic ++ LittleEndian.encode 2 formatVersion.toNat) 2
      (baseHeaderLen + cmdline.length) (cmdline ++ rest)
    rw [List.length_append, hlen, LittleEndian.length_encode] at h
    simpa only [headerBytes, List.append_assoc] using h
  · have h := @List.drop_left _ (magic ++ LittleEndian.encode 2 formatVersion.toNat ++
      LittleEndian.encode 2 (baseHeaderLen + cmdline.length)) (cmdline ++ rest)
    rw [List.length_append, List.length_append, hlen, LittleEndian.length_encode,
      LittleEndian.length_encode] at h
    simpa only [headerBytes, List.append_assoc, baseHeaderLen] using h

theorem length_headerBytes (cmdline : Bytes) :
    (headerBytes cmdline).length = baseHeaderLen + cmdline.length := by
  simp [headerBytes, magic, baseHeaderLen]
  omega

/-- How many header bytes after the fixed part the reader skips: what is left of
the length after its narrowing to `u16`. -/
def skippedLen (cmdlineLen : Nat) : Nat := (baseHeaderLen + cmdlineLen) % 256 ^ 2 - baseHeaderLen

theorem skippedLen_of_fits {n : Nat} (h : baseHeaderLen + n < 65536) : skippedLen n = n := by
  rw [skippedLen, Nat.mod_eq_of_lt (by simpa using h)]
  omega

theorem skippedLen_of_overflow {n : Nat} (h : 65536 ≤ baseHeaderLen + n) : skippedLen n < n := by
  have hmod : (baseHeaderLen + n) % 256 ^ 2 < 256 ^ 2 := Nat.mod_lt _ (by decide)
  simp only [skippedLen, baseHeaderLen] at h hmod ⊢
  omega

/-- Opening a written header. -/
theorem open_headerBytes (cmdline rest : Bytes)
    (hlen : skippedLen cmdline.length ≤ (cmdline ++ rest).length) :
    TraceReader.open (headerBytes cmdline ++ rest) =
      (headerCmdline formatVersion ((cmdline ++ rest).take (skippedLen cmdline.length))).map
        fun c =>
          { inner := (cmdline ++ rest).drop (skippedLen cmdline.length)
            version := formatVersion
            cmdline := c
            lastSeq := none
            poisoned := false } := by
  rcases headerBytes_fields cmdline rest with ⟨hmagic, hver, hext, hdrop⟩
  have htotal : (headerBytes cmdline ++ rest).length =
      baseHeaderLen + (cmdline ++ rest).length := by
    rw [List.length_append, length_headerBytes, List.length_append]
    omega
  have hcur : ¬ UInt16.ofNat 3 > formatVersion := by decide
  have hthree : UInt16.ofNat 3 = formatVersion := by decide
  have hextra : extraLen (headerBytes cmdline ++ rest) = skippedLen cmdline.length := by
    rw [extraLen, hext, skippedLen]
  have hend : (headerBytes cmdline ++ rest).drop (headerEnd (headerBytes cmdline ++ rest)) =
      (cmdline ++ rest).drop (skippedLen cmdline.length) := by
    rw [headerEnd, hextra, ← List.drop_drop, hdrop]
  rw [open_list, htotal, if_neg (by omega), if_neg (by rw [hmagic]; simp), hver, if_neg hcur,
    if_neg (by rw [headerEnd, hextra]; omega), hdrop, hextra, hend, hthree]

/-- A header whose length fits sixteen bits is read back whole. -/
theorem open_header (cmdline : Option Cmdline) (rest : Bytes)
    (h : baseHeaderLen + (cmdlineBytes cmdline).length < 65536) :
    TraceReader.open (headerBytes (cmdlineBytes cmdline) ++ rest) =
      .ok { inner := rest, version := formatVersion, cmdline, lastSeq := none,
            poisoned := false } := by
  have hmod : skippedLen (cmdlineBytes cmdline).length = (cmdlineBytes cmdline).length :=
    skippedLen_of_fits h
  have hopen := open_headerBytes (cmdlineBytes cmdline) rest
    (by rw [hmod, List.length_append]; omega)
  rw [hmod, List.take_left, List.drop_left] at hopen
  have hcmd : headerCmdline formatVersion (cmdlineBytes cmdline) = .ok cmdline := by
    have hver : formatVersion ≥ cmdlineMinVersion := by decide
    cases cmdline with
    | none => rfl
    | some c =>
      have hlen : (encodeCmdline c.program c.args).length < 256 ^ 4 := by
        simp only [cmdlineBytes] at h
        omega
      have hne : (encodeCmdline c.program c.args).isEmpty = false := by
        rw [List.isEmpty_eq_false_iff, ← List.length_pos_iff, length_encodeCmdline]
        omega
      have hdec := decodeCmdline_encodeCmdline c.program c.args [] hlen
      rw [List.append_nil] at hdec
      simp [headerCmdline, cmdlineBytes, hver, hne, hdec, Functor.map, Except.map]
  rw [hopen, hcmd]
  rfl

/-! ## The command line -/

/-- The size of the header that embeds a command line. -/
def headerSize (program : String) (args : List String) : Nat :=
  baseHeaderLen + (4 + (asBytes program).length) + 4 +
    (args.map fun arg => 4 + (asBytes arg).length).sum

theorem headerSize_eq (program : String) (args : List String) :
    headerSize program args = baseHeaderLen + (encodeCmdline program args).length := by
  have hargs : (args.flatMap pushStr).length =
      (args.map fun arg => 4 + (asBytes arg).length).sum := by
    induction args with
    | nil => rfl
    | cons arg args ih =>
      simp [pushStr, ih]
      omega
  rw [length_encodeCmdline, hargs, headerSize]
  omega

/-- The command line and the position after the header are recovered from what
was written, whatever records follow. -/
def CmdlineSurvives (written : Bytes) (program : String) (args : List String) : Prop :=
  ∀ rest : Bytes, ∃ r, TraceReader.open (written ++ rest) = .ok r ∧
    r.cmdline = some { program, args } ∧ r.inner = rest

theorem survives_of_fits {program : String} {args : List String}
    (h : headerSize program args < 65536) :
    CmdlineSurvives (headerBytes (encodeCmdline program args)) program args := by
  intro rest
  rw [headerSize_eq] at h
  have hopen := open_header (some { program, args }) rest (by simpa [cmdlineBytes])
  exact ⟨_, by simpa [cmdlineBytes] using hopen, rfl, rfl⟩

/-- Past sixteen bits the reader looks at too short a header region to find the
command line there. -/
theorem not_survives_of_overflow {program : String} {args : List String}
    (h : 65536 ≤ headerSize program args) (rest : Bytes) :
    ¬ ∃ r, TraceReader.open (headerBytes (encodeCmdline program args) ++ rest) = .ok r ∧
      r.cmdline = some { program, args } := by
  rw [headerSize_eq] at h
  rintro ⟨r, hopen, hcmd⟩
  generalize hc : encodeCmdline program args = cmdline at h hopen
  have hextra := skippedLen_of_overflow h
  rw [open_headerBytes cmdline rest (by rw [List.length_append]; omega),
    List.take_append_of_le_length (by omega)] at hopen
  cases hhead : headerCmdline formatVersion (cmdline.take (skippedLen cmdline.length)) with
  | error e =>
    rw [hhead] at hopen
    cases hopen
  | ok c =>
    rw [hhead] at hopen
    rcases Except.ok.inj hopen with rfl
    -- a command line found there would be as long as the whole encoding
    simp only at hcmd
    subst hcmd
    unfold headerCmdline at hhead
    split at hhead
    · cases hdec : decodeCmdline (cmdline.take (skippedLen cmdline.length)) with
      | error e =>
        rw [hdec] at hhead
        cases hhead
      | ok d =>
        rw [hdec] at hhead
        rcases Option.some.inj (Except.ok.inj hhead) with rfl
        rcases decodeCmdline_ok hdec with ⟨post, hpost⟩
        have hlen := congrArg List.length hpost
        rw [hc, List.length_take, List.length_append] at hlen
        omega
    · cases hhead

/-- The command line of a trace survives just when its header fits the sixteen
bits of the length field. -/
theorem cmdline_survives_iff {W : Type} [Write W] {w : W} {program : String}
    {args : List String} {t : TraceWriter W} (hw : Write.written w = [])
    (h : TraceWriter.createWithCmdline w program args = .ok t) :
    CmdlineSurvives (Write.written t.inner) program args ↔ headerSize program args < 65536 := by
  rcases writeHeader_written h with ⟨hwritten, -⟩
  rw [hw, List.nil_append] at hwritten
  rw [hwritten]
  constructor
  · intro hsurvives
    by_contra hbig
    rcases hsurvives [] with ⟨r, hopen, hcmd, -⟩
    exact not_survives_of_overflow (by omega) [] ⟨r, hopen, hcmd⟩
  · exact survives_of_fits

theorem cmdline_survives_ls :
    ∃ t, TraceWriter.createWithCmdline ByteVec.empty "ls" ["-l", "src"] = .ok t ∧
      CmdlineSurvives (Write.written t.inner) "ls" ["-l", "src"] := by
  rcases writeHeader_vec (encodeCmdline "ls" ["-l", "src"]) (by decide) with ⟨t, ht⟩
  exact ⟨t, ht, (cmdline_survives_iff rfl ht).mpr (by decide)⟩

theorem headerSize_empty_args (n : Nat) : headerSize "true" (List.replicate n "") = 24 + 4 * n := by
  have hprog : (asBytes "true").length = 4 := by decide
  have harg : (asBytes "").length = 0 := by decide
  simp only [headerSize, hprog, harg, baseHeaderLen, List.map_replicate,
    List.sum_replicate_nat]
  omega

theorem cmdline_lost_of_overflow {program : String} {args : List String}
    (h : 65536 ≤ headerSize program args) (hvec : headerSize program args < 2 ^ 63) :
    ∃ t, TraceWriter.createWithCmdline ByteVec.empty program args = .ok t ∧
      ¬ CmdlineSurvives (Write.written t.inner) program args := by
  rw [headerSize_eq, ← length_headerBytes] at hvec
  rcases writeHeader_vec _ hvec with ⟨t, ht⟩
  rcases writeHeader_written ht with ⟨hwritten, -⟩
  refine ⟨t, ht, ?_⟩
  intro hsurvives
  rcases hsurvives [] with ⟨r, hopen, hcmd, -⟩
  rw [hwritten] at hopen
  exact not_survives_of_overflow h [] ⟨r, hopen, hcmd⟩

/-- 16378 empty arguments make the header 65536 bytes long: the length field
reads zero and the command line is gone. -/
theorem cmdline_lost_of_many_args :
    ∃ t, TraceWriter.createWithCmdline ByteVec.empty "true" (List.replicate 16378 "") = .ok t ∧
      ¬ CmdlineSurvives (Write.written t.inner) "true" (List.replicate 16378 "") :=
  cmdline_lost_of_overflow (by rw [headerSize_empty_args]) (by rw [headerSize_empty_args]; decide)

/-! ## Written records -/

/-- The bodies of the events, numbered from `n` on. -/
def bodies (n : Nat) (events : List Event) : List Bytes :=
  (events.zipIdx n).map fun p => encodeBody (UInt64.ofNat p.2) p.1

theorem bodies_append (n : Nat) (xs ys : List Event) :
    bodies n (xs ++ ys) = bodies n xs ++ bodies (n + xs.length) ys := by
  rw [bodies, List.zipIdx_append, List.map_append]
  rfl

/-- What a reader should see of the events: numbered, with their tid filled in. -/
def storedRecords (n : Nat) (events : List Event) : List Record :=
  (events.zipIdx n).map fun p => { seq := UInt64.ofNat p.2, event := p.1.stored }

theorem frames_eq (crc32 : Bytes → UInt32) (n : Nat) (events : List Event) :
    frames crc32 (UInt64.ofNat n) events = (bodies n events).map (frame crc32) := by
  induction events generalizing n with
  | nil => rfl
  | cons event events ih =>
    have hsucc : UInt64.ofNat n + 1 = UInt64.ofNat (n + 1) := by
      rw [UInt64.ofNat_add]
      rfl
    simp only [frames, bodies, List.zipIdx_cons, List.map_cons, hsucc, ih]

theorem bodySeq_encodeBody (seq : UInt64) (event : Event) :
    bodySeq (encodeBody seq event) = seq := by
  rw [← decodeBody_seq formatVersion, decodeBody_encodeBody]

theorem bodies_fit {n : Nat} {events : List Event}
    (h : ∀ event ∈ events, event.payload.length ≤ maxBodyLen - bodyPrefixLenV3) :
    ∀ body ∈ bodies n events, BodyFits formatVersion body := by
  intro body hmem
  rcases List.mem_map.mp hmem with ⟨⟨event, i⟩, hp, rfl⟩
  have hevent : event.payload.length ≤ maxBodyLen - bodyPrefixLenV3 :=
    h event (List.fst_mem_of_mem_zipIdx hp)
  have hmin : minBodyLen formatVersion = bodyPrefixLenV3 := by decide
  have hroom : bodyPrefixLenV3 ≤ maxBodyLen := by decide
  simp only [BodyFits, length_encodeBody, hmin]
  omega

theorem bodies_seq {n : Nat} {events : List Event} (h : n + events.length ≤ 2 ^ 64) :
    ((bodies n events).map bodySeq).Pairwise (· < ·) := by
  induction events generalizing n with
  | nil => simp [bodies]
  | cons event events ih =>
    rw [List.length_cons] at h
    simp only [bodies, List.zipIdx_cons, List.map_cons, List.pairwise_cons, bodySeq_encodeBody]
    constructor
    · intro seq hmem
      rcases List.mem_map.mp hmem with ⟨body, hbody, rfl⟩
      rcases List.mem_map.mp hbody with ⟨⟨e, i⟩, hp, rfl⟩
      have hle : n + 1 ≤ i := List.le_snd_of_mem_zipIdx hp
      have hlt : i < n + 1 + events.length := List.snd_lt_add_of_mem_zipIdx hp
      rw [bodySeq_encodeBody, UInt64.lt_iff_toNat_lt, UInt64.toNat_ofNat', UInt64.toNat_ofNat',
        Nat.mod_eq_of_lt (by omega), Nat.mod_eq_of_lt (by omega)]
      omega
    · exact ih (by omega)

theorem decode_bodies (n : Nat) (events : List Event) :
    (bodies n events).map (decodeBody formatVersion) = storedRecords n events := by
  simp only [bodies, storedRecords, List.map_map]
  apply List.map_congr_left
  intro p _
  exact decodeBody_encodeBody _ _

/-- Everything a writer leaves in an empty sink. -/
theorem written_trace {W : Type} [Write W] {crc32 : Bytes → UInt32} {w : W}
    {cmdline : Option Cmdline} {events : List Event} {t t' : TraceWriter W}
    (hw : Write.written w = []) (hstart : TraceWriter.start w cmdline = .ok t)
    (happend : TraceWriter.appendAll crc32 t events = .ok t') :
    Write.written t'.inner =
      headerBytes (cmdlineBytes cmdline) ++ ((bodies 0 events).map (frame crc32)).flatten := by
  rcases start_written hstart with ⟨hheader, hseq⟩
  have hzero : (0 : UInt64) = UInt64.ofNat 0 := rfl
  rw [appendAll_written happend, hheader, hw, List.nil_append, hseq, hzero, frames_eq]

/-- The sink runs full long before the sequence counter does. -/
theorem header_and_events_lt {W : Type} [Write W] {crc32 : Bytes → UInt32} {w : W}
    {cmdline : Option Cmdline} {events : List Event} {t t' : TraceWriter W}
    (hw : Write.written w = []) (hstart : TraceWriter.start w cmdline = .ok t)
    (happend : TraceWriter.appendAll crc32 t events = .ok t') :
    baseHeaderLen + events.length < 2 ^ 64 := by
  have hlt := Write.written_length_lt t'.inner
  have hframes : (bodies 0 events).length ≤
      ((bodies 0 events).map (frame crc32)).flatten.length := by
    generalize bodies 0 events = bs
    induction bs with
    | nil => simp
    | cons b bs ih =>
      simp only [List.map_cons, List.flatten_cons, List.length_append, List.length_cons, frame,
        LittleEndian.length_encode]
      omega
  rw [written_trace hw hstart happend, List.length_append, length_headerBytes] at hlt
  simp only [bodies, List.length_map, List.length_zipIdx] at hframes hlt
  omega

theorem events_count_lt {W : Type} [Write W] {crc32 : Bytes → UInt32} {w : W}
    {cmdline : Option Cmdline} {events : List Event} {t t' : TraceWriter W}
    (hw : Write.written w = []) (hstart : TraceWriter.start w cmdline = .ok t)
    (happend : TraceWriter.appendAll crc32 t events = .ok t') : events.length < 2 ^ 64 := by
  have hlt := header_and_events_lt hw hstart happend
  omega

theorem yields_stored {crc32 : Bytes → UInt32} {r : TraceReader Bytes} (events : List Event)
    (n : Nat) (rest : Bytes) (hver : r.version = formatVersion) (hp : r.poisoned = false)
    (hlast : r.lastSeq = none)
    (hinner : r.inner = ((bodies n events).map (frame crc32)).flatten ++ rest)
    (hlen : ∀ event ∈ events, event.payload.length ≤ maxBodyLen - bodyPrefixLenV3)
    (hcount : n + events.length ≤ 2 ^ 64) :
    ∃ last, ∀ items,
      Yields crc32 { r with inner := rest, lastSeq := last } items →
        Yields crc32 r ((storedRecords n events).map .ok ++ items) := by
  rcases yields_frames rest hp hinner (by rw [hver]; exact bodies_fit hlen)
    (by
      intro body _ previous hprev
      rw [hlast] at hprev
      cases hprev)
    (bodies_seq hcount) with ⟨last, -, hyields⟩
  refine ⟨last, ?_⟩
  intro items hitems
  have h := hyields items hitems
  rw [hver] at h
  rw [← decode_bodies, List.map_map]
  exact h

/-- A written trace reads back as it was written: the version, the command line,
and one record per event, numbered from zero, with a clean end. -/
theorem trace_round_trip {W : Type} [Write W] {crc32 : Bytes → UInt32} {w : W}
    {cmdline : Option Cmdline} {events : List Event} {t t' : TraceWriter W}
    (hw : Write.written w = []) (hstart : TraceWriter.start w cmdline = .ok t)
    (happend : TraceWriter.appendAll crc32 t events = .ok t')
    (hheader : baseHeaderLen + (cmdlineBytes cmdline).length < 65536)
    (hkind : ∀ event ∈ events, event.kind.Canonical)
    (hlen : ∀ event ∈ events, event.payload.length ≤ maxBodyLen - 22) :
    ∃ r, TraceReader.open (Write.written t'.inner) = .ok r ∧ r.version = 3 ∧
      r.cmdline = cmdline ∧
      Yields crc32 r (events.zipIdx.map fun p =>
        .ok { seq := UInt64.ofNat p.2, event := { p.1 with tid := some (p.1.tid.getD 0) } }) := by
  have hcount := events_count_lt hw hstart happend
  rw [written_trace hw hstart happend]
  refine ⟨_, open_header _ _ hheader, rfl, rfl, ?_⟩
  rcases yields_stored
    (r := { inner := ((bodies 0 events).map (frame crc32)).flatten, version := formatVersion,
            cmdline, lastSeq := none, poisoned := false })
    events 0 [] rfl rfl rfl (List.append_nil _).symm hlen (by omega) with ⟨last, hyields⟩
  have h := hyields [] (Yields.nil (next_end rfl))
  have hrecords : (storedRecords 0 events).map Except.ok ++ [] = events.zipIdx.map (fun p =>
      (.ok { seq := UInt64.ofNat p.2, event := { p.1 with tid := some (p.1.tid.getD 0) } } :
        Except TraceError Record)) := by
    rw [List.append_nil, storedRecords, List.map_map]
    apply List.map_congr_left
    intro p hp
    simp only [Function.comp, stored_of_canonical (hkind p.1 (List.fst_mem_of_mem_zipIdx hp))]
  rwa [hrecords] at h

/-- A syscall entry without a tid and an event of a kind from the future. -/
theorem trace_round_trip_two_events :
    ∃ t t' : TraceWriter ByteVec,
      TraceWriter.start ByteVec.empty (some { program := "ls", args := ["-l"] }) = .ok t ∧
      TraceWriter.appendAll Crc32.hash t
        [{ kind := .syscallEnter, timestampNs := 7, tid := none, payload := [1, 2, 3] },
         { kind := .unknown 40, timestampNs := 9, tid := some 5, payload := [] }] = .ok t' ∧
      ∃ r, TraceReader.open (Write.written t'.inner) = .ok r ∧ r.version = 3 ∧
        r.cmdline = some { program := "ls", args := ["-l"] } ∧
        Yields Crc32.hash r
          [.ok { seq := 0
                 event := { kind := .syscallEnter, timestampNs := 7, tid := some 0,
                            payload := [1, 2, 3] } },
           .ok { seq := 1
                 event := { kind := .unknown 40, timestampNs := 9, tid := some 5,
                            payload := [] } }] := by
  rcases start_vec (some { program := "ls", args := ["-l"] }) (by decide) with ⟨t, ht⟩
  rcases start_written ht with ⟨hwritten, hseq⟩
  have hbytes : t.inner.bytes = _ := hwritten
  rcases appendAll_vec Crc32.hash t
    ([{ kind := .syscallEnter, timestampNs := 7, tid := none, payload := [1, 2, 3] },
      { kind := .unknown 40, timestampNs := 9, tid := some 5, payload := [] }])
    (by
      rw [hbytes, hseq]
      simp only [frames, frame, List.length_append, List.flatten_cons, List.flatten_nil,
        LittleEndian.length_encode, length_encodeBody]
      decide) with ⟨t', ht'⟩
  exact ⟨t, t', ht, ht',
    trace_round_trip rfl ht ht' (by decide) (by decide) (by decide)⟩

end Mirrorscope.Trace
