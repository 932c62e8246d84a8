import Mirrorscope.Capture.Payload
import Mirrorscope.Trace.Grammar
import Mirrorscope.Trace.RoundTrip

/-! # Which traces can be read back

The writer bounds neither the header nor a record body: both lengths are narrowed to
the width of their field. The reader accepts at most `MAX_BODY_LEN` bytes of body. A
written trace is read back whole just when every length fits what the reader takes;
one oversized record is enough to lose it.
-/

namespace Mirrorscope.Trace

open ByteIO (Write ByteVec)
open TraceReader

/-- Every event is read back, in order and numbered, and nothing else is read. -/
def ReadsBack (crc32 : Bytes → UInt32) (written : Bytes) (events : List Event) : Prop :=
  ∃ r, TraceReader.open written = .ok r ∧
    Yields crc32 r ((storedRecords 0 events).map .ok)

/-- The lengths the writer narrows without a check all fit. -/
structure Fits (cmdline : Option Cmdline) (events : List Event) : Prop where
  header : baseHeaderLen + (cmdlineBytes cmdline).length < 65536
  payload : ∀ event ∈ events, event.payload.length ≤ maxBodyLen - bodyPrefixLenV3

variable {crc32 : Bytes → UInt32}

/-- Records that came without an error were framed one after the other, to the last
byte of the input. -/
theorem framed_of_yields {r : TraceReader Bytes} {records : List Record}
    (hp : r.poisoned = false) (h : Yields crc32 r (records.map .ok)) :
    ∃ bodies : List Bytes,
      records = bodies.map (decodeBody r.version) ∧
      (∀ body ∈ bodies, BodyFits r.version body) ∧
      r.inner = (bodies.map (frame crc32)).flatten := by
  rcases @iterates crc32 r hp with ⟨bodies, tail, -, hyields, hall, -, hrest, hend⟩
  have hmap : bodies.map (fun body => (.ok (decodeBody r.version body) : Except TraceError Record))
      = (bodies.map (decodeBody r.version)).map .ok := by
    rw [List.map_map]
    rfl
  rw [hmap] at hyields
  have htail : tail = [] := no_error_of_yields hyields h
  subst htail
  rw [List.map_nil, List.append_nil] at hyields
  refine ⟨bodies, ?_, ?_, ?_⟩
  · have hsame := Yields.unique h hyields
    exact List.map_injective_iff.mpr (fun _ _ hok => Except.ok.inj hok) hsame
  · intro body hmem
    exact (hall body hmem).1
  · rw [hrest, hend rfl, List.append_nil]

/-- The body behind a stored record is the one that was written. -/
theorem body_of_stored {body : Bytes} {seq : UInt64} {event : Event}
    (hfit : BodyFits formatVersion body)
    (h : decodeBody formatVersion body = { seq, event := event.stored }) :
    body = encodeBody seq event := by
  have hwritten : decodeBody formatVersion (encodeBody seq event) =
      { seq, event := event.stored } := decodeBody_encodeBody seq event
  have hlong : minBodyLen formatVersion ≤ (encodeBody seq event).length := by
    rw [length_encodeBody]
    exact Nat.le_add_right _ _
  rw [← encodeLayout_decodeBody hfit.1, h, ← hwritten, encodeLayout_decodeBody hlong]

/-- Bodies that decode to the stored records are the written bodies. -/
theorem bodies_of_stored {n : Nat} {events : List Event} {read : List Bytes}
    (hfit : ∀ body ∈ read, BodyFits formatVersion body)
    (h : storedRecords n events = read.map (decodeBody formatVersion)) :
    read = bodies n events := by
  induction events generalizing n read with
  | nil =>
    have hnil : read = [] := List.map_eq_nil_iff.mp h.symm
    rw [hnil]
    rfl
  | cons event events ih =>
    have hcons : storedRecords n (event :: events) =
        { seq := UInt64.ofNat n, event := event.stored } :: storedRecords (n + 1) events := rfl
    rw [hcons] at h
    cases read with
    | nil => cases h
    | cons body read =>
      rw [List.map_cons, List.cons.injEq] at h
      have hbody := body_of_stored (hfit body List.mem_cons_self) h.1.symm
      have hread := ih (fun b hb => hfit b (List.mem_cons_of_mem _ hb)) h.2
      rw [hbody, hread]
      rfl

/-- A body that fits has a payload that does. -/
theorem payload_of_bodies_fit {n : Nat} {events : List Event}
    (h : ∀ body ∈ bodies n events, BodyFits formatVersion body) :
    ∀ event ∈ events, event.payload.length ≤ maxBodyLen - bodyPrefixLenV3 := by
  intro event hmem
  rcases List.getElem_of_mem hmem with ⟨i, hi, rfl⟩
  have hbody : encodeBody (UInt64.ofNat (n + i)) events[i] ∈ bodies n events := by
    apply List.mem_map.mpr
    refine ⟨(events[i], n + i), ?_, rfl⟩
    rw [List.mk_mem_zipIdx_iff_le_and_getElem?_sub]
    simp [hi]
  have hmax := (h _ hbody).2
  rw [length_encodeBody] at hmax
  omega

/-- What opening a written trace leaves to be read as records: what follows the header
as its length field has it. -/
theorem open_written {cmdline : Option Cmdline} {region : Bytes} {r : TraceReader Bytes}
    (h : TraceReader.open (headerBytes (cmdlineBytes cmdline) ++ region) = .ok r) :
    r.version = formatVersion ∧ r.poisoned = false ∧
      r.inner = (cmdlineBytes cmdline ++ region).drop
        (skippedLen (cmdlineBytes cmdline).length) := by
  have hskip : skippedLen (cmdlineBytes cmdline).length ≤ (cmdlineBytes cmdline).length := by
    by_cases hfits : baseHeaderLen + (cmdlineBytes cmdline).length < 65536
    · exact Nat.le_of_eq (skippedLen_of_fits hfits)
    · exact Nat.le_of_lt (skippedLen_of_overflow (Nat.le_of_not_lt hfits))
  rw [open_headerBytes _ region (by rw [List.length_append]; omega)] at h
  cases hhead : headerCmdline formatVersion ((cmdlineBytes cmdline ++ region).take
      (skippedLen (cmdlineBytes cmdline).length)) with
  | error e =>
    rw [hhead] at h
    cases h
  | ok c =>
    rw [hhead] at h
    rcases Except.ok.inj h with rfl
    exact ⟨rfl, rfl, rfl⟩

/-- Only a trace whose lengths fit is read back. -/
theorem fits_of_readsBack {cmdline : Option Cmdline} {events : List Event}
    (h : ReadsBack crc32
      (headerBytes (cmdlineBytes cmdline) ++ ((bodies 0 events).map (frame crc32)).flatten)
      events) :
    Fits cmdline events := by
  rcases h with ⟨r, hopen, hyields⟩
  rcases open_written hopen with ⟨hver, hp, hinner⟩
  rcases framed_of_yields hp hyields with ⟨read, hrecords, hfit, hregion⟩
  rw [hver] at hrecords hfit
  have hread : read = bodies 0 events := bodies_of_stored hfit hrecords
  rw [hread] at hfit hregion
  constructor
  · -- a length field that wrapped leaves header bytes in front of the first record
    by_contra hbig
    have hskip := skippedLen_of_overflow (Nat.le_of_not_lt hbig)
    have hlen := congrArg List.length (hregion.symm.trans hinner)
    rw [List.length_drop, List.length_append] at hlen
    omega
  · exact payload_of_bodies_fit hfit

/-- A trace whose lengths fit is read back. -/
theorem readsBack_of_fits {cmdline : Option Cmdline} {events : List Event}
    (hcount : events.length ≤ 2 ^ 64) (h : Fits cmdline events) :
    ReadsBack crc32
      (headerBytes (cmdlineBytes cmdline) ++ ((bodies 0 events).map (frame crc32)).flatten)
      events := by
  refine ⟨_, open_header _ _ h.header, ?_⟩
  rcases yields_stored
    (r := { inner := ((bodies 0 events).map (frame crc32)).flatten, version := formatVersion,
            cmdline, lastSeq := none, poisoned := false })
    events 0 [] rfl rfl rfl (List.append_nil _).symm h.payload (by omega) with ⟨last, hyields⟩
  have hall := hyields [] (Yields.nil (next_end rfl))
  rwa [List.append_nil] at hall

/-- Accepted events are read back just when the header fits sixteen bits and no
payload is longer than the reader's bound on a body leaves room for. -/
theorem accepted_reads_back_iff {W : Type} [Write W] {w : W} {cmdline : Option Cmdline}
    {events : List Event} {t t' : TraceWriter W} (hw : Write.written w = [])
    (hstart : TraceWriter.start w cmdline = .ok t)
    (happend : TraceWriter.appendAll crc32 t events = .ok t') :
    ReadsBack crc32 (Write.written t'.inner) events ↔
      baseHeaderLen + (cmdlineBytes cmdline).length < 65536 ∧
        ∀ event ∈ events, event.payload.length ≤ maxBodyLen - 22 := by
  have hcount := events_count_lt hw hstart happend
  rw [written_trace hw hstart happend]
  constructor
  · intro h
    have hfits := fits_of_readsBack h
    exact ⟨hfits.header, hfits.payload⟩
  · rintro ⟨hheader, hpayload⟩
    exact readsBack_of_fits (by omega) ⟨hheader, hpayload⟩

/-- A vector takes any event that leaves it shorter than its capacity. -/
theorem accepted_by_vec (event : Event) (h : event.payload.length < 2 ^ 62) :
    ∃ t t' : TraceWriter ByteVec,
      TraceWriter.start ByteVec.empty none = .ok t ∧
      TraceWriter.appendAll crc32 t [event] = .ok t' := by
  rcases start_vec none (by decide) with ⟨t, ht⟩
  rcases start_written ht with ⟨hwritten, -⟩
  have hbytes : t.inner.bytes.length = 12 := by
    have hb : t.inner.bytes = _ := hwritten
    rw [hb]
    decide
  rcases appendAll_vec crc32 t [event]
    (by
      simp only [frames, frame, List.length_append, List.flatten_cons, List.flatten_nil,
        LittleEndian.length_encode, length_encodeBody, hbytes, bodyPrefixLenV3, List.length_nil]
      omega) with ⟨t', ht'⟩
  exact ⟨t, t', ht, ht'⟩

/-- The exit of a `read` of three bytes. -/
theorem accepted_reads_back_short_read :
    ∃ t t' : TraceWriter ByteVec,
      TraceWriter.start ByteVec.empty none = .ok t ∧
      TraceWriter.appendAll Crc32.hash t
        [.newWithTid .syscallExit 5 7
          (Capture.SyscallExit.encode { nr := 0, ret := 3, data := [1, 2, 3] })] = .ok t' ∧
      ReadsBack Crc32.hash (Write.written t'.inner)
        [.newWithTid .syscallExit 5 7
          (Capture.SyscallExit.encode { nr := 0, ret := 3, data := [1, 2, 3] })] := by
  rcases @accepted_by_vec Crc32.hash
    (.newWithTid .syscallExit 5 7
      (Capture.SyscallExit.encode { nr := 0, ret := 3, data := [1, 2, 3] })) (by decide) with
    ⟨t, t', ht, ht'⟩
  exact ⟨t, t', ht, ht', (accepted_reads_back_iff rfl ht ht').mpr ⟨by decide, by decide⟩⟩

/-- The exit of a `read` that filled a buffer of 16 MiB. -/
def largeRead : Event :=
  .newWithTid .syscallExit 5 7 (Capture.SyscallExit.encode
    { nr := 0, ret := 16777216, data := List.replicate 16777216 0 })

theorem length_largeRead : largeRead.payload.length = 16777236 := by
  simp only [largeRead, Event.newWithTid, Capture.SyscallExit.encode, List.length_append,
    LittleEndian.length_encode, List.length_replicate]

/-- The writer accepts the exit of a large `read`, and the reader does not return it. -/
theorem large_read_lost :
    ∃ t t' : TraceWriter ByteVec,
      TraceWriter.start ByteVec.empty none = .ok t ∧
      TraceWriter.appendAll Crc32.hash t [largeRead] = .ok t' ∧
      ¬ ReadsBack Crc32.hash (Write.written t'.inner) [largeRead] := by
  rcases @accepted_by_vec Crc32.hash largeRead
    (by rw [length_largeRead]; decide) with ⟨t, t', ht, ht'⟩
  refine ⟨t, t', ht, ht', ?_⟩
  intro hreads
  rw [written_trace rfl ht ht'] at hreads
  have hlen := (fits_of_readsBack hreads).payload largeRead List.mem_cons_self
  rw [length_largeRead] at hlen
  exact absurd hlen (by decide)

end Mirrorscope.Trace
