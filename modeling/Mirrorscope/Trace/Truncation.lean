import Mirrorscope.Trace.RoundTrip

/-! # Truncated traces

A recording that is killed while writing leaves a file cut at any byte. The
reader refuses a cut header, and of a cut record region it yields exactly the
records whose frames are complete, with one error if the cut is inside a frame.
-/

namespace Mirrorscope.Trace

open ByteIO (Write ByteVec)
open TraceReader

/-! ## Cutting a list of chunks -/

/-- A cut position lies in, or at the end of, a run of whole chunks. -/
theorem exists_whole_chunks (chunks : List Bytes) {k : Nat} (hk : k ≤ chunks.flatten.length) :
    ∃ n, n ≤ chunks.length ∧ (chunks.take n).flatten.length ≤ k ∧
      (n < chunks.length → k < (chunks.take (n + 1)).flatten.length) := by
  induction chunks generalizing k with
  | nil => exact ⟨0, by simp, by simp, by simp⟩
  | cons chunk chunks ih =>
    rw [List.flatten_cons, List.length_append] at hk
    by_cases hfit : chunk.length ≤ k
    · -- the first chunk is whole: cut the others
      rcases ih (k := k - chunk.length) (by omega) with ⟨n, hn, hle, hlt⟩
      refine ⟨n + 1, by simpa using hn, ?_, ?_⟩
      · rw [List.take_succ_cons, List.flatten_cons, List.length_append]
        omega
      · intro hmore
        rw [List.length_cons] at hmore
        have h := hlt (by omega)
        rw [List.take_succ_cons, List.flatten_cons, List.length_append]
        omega
    · refine ⟨0, by simp, by simp, ?_⟩
      intro _
      simp only [Nat.zero_add, List.take_succ_cons, List.take_zero, List.flatten_cons,
        List.flatten_nil, List.append_nil]
      omega

theorem take_flatten_of_le (chunks : List Bytes) {k n : Nat}
    (h : (chunks.take n).flatten.length ≤ k) :
    chunks.flatten.take k = (chunks.take n).flatten ++
      (chunks.drop n).flatten.take (k - (chunks.take n).flatten.length) := by
  have hsplit : chunks.flatten = (chunks.take n).flatten ++ (chunks.drop n).flatten := by
    rw [← List.flatten_append, List.take_append_drop]
  rw [hsplit, List.take_append, List.take_of_length_le h]

/-! ## The header -/

theorem headerEnd_headerBytes {cmdline rest : Bytes}
    (h : baseHeaderLen + cmdline.length < 65536) :
    headerEnd (headerBytes cmdline ++ rest) = baseHeaderLen + cmdline.length := by
  rcases headerBytes_fields cmdline rest with ⟨-, -, hext, -⟩
  rw [headerEnd, extraLen, hext, Nat.mod_eq_of_lt (by simpa using h)]
  omega

/-- A cut header is refused. -/
theorem open_cut_header {cmdline rest : Bytes} {k : Nat}
    (h : baseHeaderLen + cmdline.length < 65536) (hk : k < (headerBytes cmdline).length) :
    ∃ err, TraceReader.open ((headerBytes cmdline ++ rest).take k) = .error err := by
  rw [length_headerBytes] at hk
  have hlen : ((headerBytes cmdline ++ rest).take k).length = k := by
    rw [List.length_take, List.length_append, length_headerBytes]
    omega
  rw [open_list, hlen]
  by_cases hbase : k < baseHeaderLen
  · exact ⟨_, if_pos hbase⟩
  · -- the fixed part is whole, so the cut header is shorter than it says
    rw [if_neg hbase]
    split
    · exact ⟨_, rfl⟩
    split
    · exact ⟨_, rfl⟩
    have hend : headerEnd ((headerBytes cmdline ++ rest).take k) =
        headerEnd (headerBytes cmdline ++ rest) := by
      simp only [baseHeaderLen] at hbase
      rw [headerEnd, headerEnd, extraLen, extraLen, leField_take _ (by omega)]
    rw [if_pos (by rw [hend, headerEnd_headerBytes h]; omega)]
    exact ⟨_, rfl⟩

/-! ## The record region -/

/-- Where the frame of event number `n` starts in a written trace. -/
def frameStart (crc32 : Bytes → UInt32) (cmdline : Option Cmdline) (events : List Event)
    (n : Nat) : Nat :=
  (headerBytes (cmdlineBytes cmdline)).length +
    (((bodies 0 events).map (frame crc32)).take n).flatten.length

/-- A whole trace ends where the frame of the next event would start. -/
theorem length_written (crc32 : Bytes → UInt32) (cmdline : Option Cmdline)
    (events : List Event) :
    (headerBytes (cmdlineBytes cmdline) ++ ((bodies 0 events).map (frame crc32)).flatten).length =
      frameStart crc32 cmdline events events.length := by
  rw [frameStart, List.length_append, List.take_of_length_le]
  rw [List.length_map, bodies, List.length_map, List.length_zipIdx]

/-- Every frame is longer than a byte. -/
theorem frameStart_lt_written (crc32 : Bytes → UInt32) (cmdline : Option Cmdline)
    {events : List Event} {k : Nat} (hk : k < events.length) :
    frameStart crc32 cmdline events k + 1 <
      (headerBytes (cmdlineBytes cmdline) ++
        ((bodies 0 events).map (frame crc32)).flatten).length := by
  have hcount : ((bodies 0 events).map (frame crc32)).length = events.length := by
    rw [List.length_map, bodies, List.length_map, List.length_zipIdx]
  have hsplit := congrArg (fun chunks => chunks.flatten.length)
    (List.take_append_drop k ((bodies 0 events).map (frame crc32)))
  have hlong : 8 ≤ ((bodies 0 events).map (frame crc32))[k].length := by
    rw [List.getElem_map, frame, List.length_append, List.length_append,
      LittleEndian.length_encode, LittleEndian.length_encode]
    omega
  rw [List.drop_eq_getElem_cons (by omega)] at hsplit
  simp only [List.flatten_append, List.flatten_cons, List.length_append] at hsplit
  rw [frameStart, List.length_append]
  omega

variable {crc32 : Bytes → UInt32}

theorem bodies_take (m n : Nat) (events : List Event) :
    (bodies m events).take n = bodies m (events.take n) := by
  rw [bodies, bodies, ← List.map_take]
  congr 1
  induction events generalizing m n with
  | nil => simp
  | cons event events ih =>
    cases n with
    | zero => simp
    | succ n => simp [List.zipIdx_cons, ih]

theorem storedRecords_take (m n : Nat) (events : List Event) :
    (storedRecords m events).take n = storedRecords m (events.take n) := by
  rw [← decode_bodies, ← decode_bodies, ← bodies_take, List.map_take]

/-- A frame that is cut after its first byte and before its last reads as truncated. -/
theorem yields_cut_frame {r : TraceReader Bytes} (body rest : Bytes) (k : Nat)
    (hp : r.poisoned = false) (hfit : BodyFits r.version body)
    (hinner : r.inner = (frame crc32 body ++ rest).take k) (hpos : 0 < k)
    (hk : k < (frame crc32 body).length) : Yields crc32 r [.error .truncated] := by
  have htake : r.inner = (frame crc32 body).take k := by
    rw [hinner, List.take_append_of_le_length (by omega)]
  have hlen : r.inner.length = k := by
    rw [htake, List.length_take]
    omega
  have hne : r.inner ≠ [] := by
    rw [← List.length_pos_iff, hlen]
    exact hpos
  have hrest : (frame crc32 body).drop k ≠ [] := by
    rw [← List.length_pos_iff, List.length_drop]
    omega
  rcases readRecord_torn crc32 hfit hne hrest (by rw [htake, List.take_append_drop]) with
    ⟨r', hread⟩
  exact Yields.error hp hread

/-- Cutting the record region after `n` whole frames: the reader yields their
records, and one error if anything is left. -/
theorem yields_cut {r : TraceReader Bytes} {events : List Event} {k n : Nat}
    (hver : r.version = formatVersion) (hp : r.poisoned = false) (hlast : r.lastSeq = none)
    (hinner : r.inner = ((bodies 0 events).map (frame crc32)).flatten.take k)
    (hlen : ∀ event ∈ events, event.payload.length ≤ maxBodyLen - bodyPrefixLenV3)
    (hcount : events.length ≤ 2 ^ 64)
    (hle : (((bodies 0 events).map (frame crc32)).take n).flatten.length ≤ k)
    (hlt : n < events.length →
      k < (((bodies 0 events).map (frame crc32)).take (n + 1)).flatten.length)
    (hk : k ≤ ((bodies 0 events).map (frame crc32)).flatten.length) :
    Yields crc32 r (((storedRecords 0 events).take n).map .ok ++
      if k = (((bodies 0 events).map (frame crc32)).take n).flatten.length then []
      else [.error .truncated]) := by
  have hsplit := take_flatten_of_le ((bodies 0 events).map (frame crc32)) hle
  rw [hsplit, ← List.map_take, bodies_take] at hinner
  rcases yields_stored _ _ _ hver hp hlast hinner
    (fun event hmem => hlen event (List.mem_of_mem_take hmem))
    (by rw [List.length_take]; omega) with ⟨last, hyields⟩
  rw [storedRecords_take]
  apply hyields
  rw [← bodies_take, List.map_take]
  generalize hchunks : (bodies 0 events).map (frame crc32) = chunks at *
  by_cases heq : k = (chunks.take n).flatten.length
  · -- on a frame boundary nothing is left
    rw [if_pos heq, ← heq, Nat.sub_self, List.take_zero]
    exact Yields.nil (next_end rfl)
  · rw [if_neg heq]
    have hchunksLen : chunks.length = events.length := by
      rw [← hchunks, List.length_map, bodies, List.length_map, List.length_zipIdx]
    -- the cut is not at the end, so there is a frame it falls into
    have hn : n < events.length := by
      by_contra hall
      rw [List.take_of_length_le (by omega)] at hle heq
      omega
    have hnb : n < (bodies 0 events).length := by
      rw [bodies, List.length_map, List.length_zipIdx]
      exact hn
    have hdrop : chunks.drop n = frame crc32 (bodies 0 events)[n] :: chunks.drop (n + 1) := by
      rw [List.drop_eq_getElem_cons (by omega)]
      simp only [← hchunks, List.getElem_map]
    have hnext : (chunks.take (n + 1)).flatten.length =
        (chunks.take n).flatten.length + (frame crc32 (bodies 0 events)[n]).length := by
      rw [List.take_succ_eq_append_getElem (by omega), List.flatten_append, List.length_append]
      simp [← hchunks]
    have hcut := hlt hn
    rw [hdrop, List.flatten_cons]
    apply yields_cut_frame (bodies 0 events)[n] (chunks.drop (n + 1)).flatten
      (k - (chunks.take n).flatten.length)
    · exact hp
    · rw [hver]
      exact bodies_fit hlen _ (List.getElem_mem hnb)
    · rfl
    · omega
    · omega

/-- A truncated trace yields exactly its complete prefix: a cut header is
refused, and otherwise the records of the `n` frames that end at or before the
cut are read, with one error after them unless the cut is where a frame starts. -/
theorem truncated_trace_reads {W : Type} [Write W] {w : W} {cmdline : Option Cmdline}
    {events : List Event} {t t' : TraceWriter W} (hw : Write.written w = [])
    (hstart : TraceWriter.start w cmdline = .ok t)
    (happend : TraceWriter.appendAll crc32 t events = .ok t')
    (hheader : baseHeaderLen + (cmdlineBytes cmdline).length < 65536)
    (hlen : ∀ event ∈ events, event.payload.length ≤ maxBodyLen - 22) {k : Nat}
    (hk : k ≤ (Write.written t'.inner).length) :
    (k < frameStart crc32 cmdline events 0 →
      ∃ err, TraceReader.open ((Write.written t'.inner).take k) = .error err) ∧
    (frameStart crc32 cmdline events 0 ≤ k →
      ∃ r n, TraceReader.open ((Write.written t'.inner).take k) = .ok r ∧
        r.version = 3 ∧ r.cmdline = cmdline ∧ n ≤ events.length ∧
        frameStart crc32 cmdline events n ≤ k ∧
        (n < events.length → k < frameStart crc32 cmdline events (n + 1)) ∧
        Yields crc32 r (((storedRecords 0 events).take n).map .ok ++
          if k = frameStart crc32 cmdline events n then [] else [.error .truncated])) := by
  have hcount := events_count_lt hw hstart happend
  rw [written_trace hw hstart happend] at hk ⊢
  have hzero : frameStart crc32 cmdline events 0 =
      (headerBytes (cmdlineBytes cmdline)).length := by
    simp [frameStart]
  rw [hzero]
  constructor
  · exact open_cut_header hheader
  · intro hcut
    rw [List.length_append] at hk
    have hregion : k - (headerBytes (cmdlineBytes cmdline)).length ≤
        ((bodies 0 events).map (frame crc32)).flatten.length := by omega
    have hchunks : ((bodies 0 events).map (frame crc32)).length = events.length := by
      rw [List.length_map, bodies, List.length_map, List.length_zipIdx]
    rcases exists_whole_chunks _ hregion with ⟨n, hn, hle, hlt⟩
    rw [hchunks] at hn hlt
    rw [List.take_append, List.take_of_length_le hcut]
    refine ⟨_, n, open_header _ _ hheader, rfl, rfl, hn, ?_, ?_, ?_⟩
    · rw [frameStart]
      omega
    · intro hmore
      have h := hlt hmore
      rw [frameStart]
      omega
    · have hyields := yields_cut
        (r := { inner := ((bodies 0 events).map (frame crc32)).flatten.take
                  (k - (headerBytes (cmdlineBytes cmdline)).length)
                version := formatVersion, cmdline, lastSeq := none, poisoned := false })
        rfl rfl rfl rfl hlen (by omega) hle hlt hregion
      have hboundary : k - (headerBytes (cmdlineBytes cmdline)).length =
          (((bodies 0 events).map (frame crc32)).take n).flatten.length ↔
          k = frameStart crc32 cmdline events n := by
        rw [frameStart]
        omega
      simpa only [hboundary] using hyields

/-- One event, cut in the middle of its frame. -/
theorem truncated_trace_reads_one_event :
    ∃ t t' : TraceWriter ByteVec,
      TraceWriter.start ByteVec.empty none = .ok t ∧
      TraceWriter.appendAll Crc32.hash t
        [{ kind := .signal, timestampNs := 3, tid := some 9, payload := [17] }] = .ok t' ∧
      ∃ r n, TraceReader.open ((Write.written t'.inner).take 20) = .ok r ∧
        r.version = 3 ∧ r.cmdline = none ∧ n ≤ 1 ∧
        frameStart Crc32.hash none
          [{ kind := .signal, timestampNs := 3, tid := some 9, payload := [17] }] n ≤ 20 ∧
        (n < 1 → 20 < frameStart Crc32.hash none
          [{ kind := .signal, timestampNs := 3, tid := some 9, payload := [17] }] (n + 1)) ∧
        Yields Crc32.hash r (((storedRecords 0
            [{ kind := .signal, timestampNs := 3, tid := some 9, payload := [17] }]).take n).map
              .ok ++
          if 20 = frameStart Crc32.hash none
            [{ kind := .signal, timestampNs := 3, tid := some 9, payload := [17] }] n then []
          else [.error .truncated]) := by
  rcases start_vec none (by decide) with ⟨t, ht⟩
  rcases start_written ht with ⟨hwritten, hseq⟩
  have hbytes : t.inner.bytes = _ := hwritten
  rcases appendAll_vec Crc32.hash t
    ([{ kind := .signal, timestampNs := 3, tid := some 9, payload := [17] }])
    (by
      rw [hbytes, hseq]
      simp only [frames, frame, List.length_append, List.flatten_cons, List.flatten_nil,
        LittleEndian.length_encode, length_encodeBody]
      decide) with ⟨t', ht'⟩
  have hlen : 20 ≤ (Write.written t'.inner).length := by
    rw [written_trace rfl ht ht']
    simp only [bodies, List.zipIdx_cons, List.zipIdx_nil, List.map_cons, List.map_nil, frame,
      List.length_append, List.flatten_cons, List.flatten_nil, LittleEndian.length_encode,
      length_encodeBody]
    decide
  have hstart : frameStart Crc32.hash none
      [{ kind := .signal, timestampNs := 3, tid := some 9, payload := [17] }] 0 ≤ 20 := by
    simp [frameStart, cmdlineBytes, length_headerBytes, baseHeaderLen]
  exact ⟨t, t', ht, ht',
    (truncated_trace_reads rfl ht ht' (by decide) (by decide) hlen).2 hstart⟩

end Mirrorscope.Trace
