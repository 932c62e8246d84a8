import Mirrorscope.Lib.Crc32
import Mirrorscope.Trace.Framing

/-! # The grammar the reader accepts

The record region of a trace is a concatenation of frames whose bodies fit the
version's limits and whose sequence numbers increase. On any bytes that `open`
accepts, the reader ends after finitely many records, without an error just when
the region is of that form, and what it accepted is the encoding of what it
returned.
-/

namespace Mirrorscope.Trace

open TraceReader

/-- The grammar of the record region of a trace at `version`. -/
def IsFrameSequence (crc32 : Bytes → UInt32) (version : UInt16) (region : Bytes) : Prop :=
  ∃ bodies : List Bytes,
    region = (bodies.map (frame crc32)).flatten ∧
    (∀ body ∈ bodies, BodyFits version body) ∧
    (bodies.map bodySeq).Pairwise (· < ·)

variable {crc32 : Bytes → UInt32}

/-- A region of the grammar is read to its end without an error. -/
theorem yields_of_isFrameSequence {r : TraceReader Bytes} (hp : r.poisoned = false)
    (hlast : r.lastSeq = none) (h : IsFrameSequence crc32 r.version r.inner) :
    ∃ records : List Record, Yields crc32 r (records.map .ok) := by
  rcases h with ⟨bodies, hregion, hfit, hseq⟩
  have hafter : ∀ body ∈ bodies, SeqAfter r.lastSeq (bodySeq body) := by
    intro body _ previous hprev
    rw [hlast] at hprev
    cases hprev
  rcases yields_frames [] hp (by rw [hregion, List.append_nil]) hfit hafter hseq with
    ⟨last, -, hyields⟩
  have hall := hyields [] (Yields.nil (next_end rfl))
  refine ⟨bodies.map (decodeBody r.version), ?_⟩
  rw [List.append_nil] at hall
  rw [List.map_map]
  exact hall

/-- Two answers of one iterator agree on whether it ended with an error. -/
theorem no_error_of_yields {r : TraceReader Bytes} {records records' : List Record}
    {tail : List TraceError} (h : Yields crc32 r (records.map .ok ++ tail.map .error))
    (h' : Yields crc32 r (records'.map .ok)) : tail = [] := by
  rcases List.eq_nil_or_concat tail with rfl | ⟨front, err, rfl⟩
  · rfl
  · exfalso
    have heq := Yields.unique h h'
    have hmem : (Except.error err : Except TraceError Record) ∈ records'.map Except.ok := by
      rw [← heq]
      simp
    rcases List.mem_map.mp hmem with ⟨record, -, hrecord⟩
    cases hrecord

theorem frames_of_decoded {version : UInt16} {bodies : List Bytes}
    (hfit : ∀ body ∈ bodies, BodyFits version body) :
    ((bodies.map (decodeBody version)).map
      fun record => frame crc32 (encodeLayout version record)) = bodies.map (frame crc32) := by
  rw [List.map_map]
  apply List.map_congr_left
  intro body hmem
  rw [Function.comp_apply, encodeLayout_decodeBody (hfit body hmem).1]

/-- The reader accepts exactly the trace grammar. -/
theorem reader_accepts_grammar {b : Bytes} {r : TraceReader Bytes}
    (h : TraceReader.open b = .ok r) :
    ∃ (records : List Record) (tail : List TraceError),
      tail.length ≤ 1 ∧
      Yields crc32 r (records.map .ok ++ tail.map .error) ∧
      (records.map Record.seq).Pairwise (· < ·) ∧
      (tail = [] ↔ IsFrameSequence crc32 r.version (b.drop (headerEnd b))) ∧
      b.drop (headerEnd b) =
        (records.map fun record => frame crc32 (encodeLayout r.version record)).flatten ++
          (after crc32 records.length r).inner ∧
      ∀ record ∈ records,
        if r.version ≥ 3 then record.event.tid.isSome else record.event.tid = none := by
  rcases open_ok h with ⟨-, hinner, -, hlast, hp⟩
  rcases iterates hp with ⟨bodies, tail, htail, hyields, hall, hseq, hrest, hend⟩
  have hfit : ∀ body ∈ bodies, BodyFits r.version body := fun body hmem => (hall body hmem).1
  have hmap : bodies.map (fun body => (.ok (decodeBody r.version body) : Except TraceError Record))
      = (bodies.map (decodeBody r.version)).map .ok := by
    rw [List.map_map]
    rfl
  rw [hmap] at hyields
  refine ⟨bodies.map (decodeBody r.version), tail, htail, hyields, ?_, ?_, ?_, ?_⟩
  · rw [List.map_map]
    exact hseq
  · rw [← hinner]
    constructor
    · intro hnil
      refine ⟨bodies, ?_, hfit, hseq⟩
      rw [hrest, hend hnil, List.append_nil]
    · intro hgrammar
      rcases yields_of_isFrameSequence hp hlast hgrammar with ⟨records, hok⟩
      exact no_error_of_yields hyields hok
  · rw [frames_of_decoded hfit, List.length_map, ← hinner]
    exact hrest
  · intro record hmem
    rcases List.mem_map.mp hmem with ⟨body, -, rfl⟩
    have htid := decodeBody_tid r.version body
    split
    · rename_i hver
      rw [htid]
      exact decide_eq_true hver
    · rename_i hver
      rw [← Option.not_isSome_iff_eq_none, htid]
      exact fun hyes => hver (of_decide_eq_true hyes)

/-- Two bodies of a legacy trace: a syscall's entry, and an event of a kind from the future. -/
def twoBodies : List Bytes :=
  [encodeLayout 2 ⟨4, ⟨.syscallEnter, 7, none, [1, 2]⟩⟩,
   encodeLayout 2 ⟨9, ⟨.unknown 40, 8, none, []⟩⟩]

/-- Those two, and then a frame whose body is too short to be one. -/
def shortBodyTrace : Bytes :=
  magic ++ [2, 0, 12, 0] ++ ((twoBodies.map (frame Crc32.hash)).flatten ++ [3, 0, 0, 0, 1, 2, 3])

/-- The records and the error an iterator ended with are read off its items. -/
theorem records_tail_inj {records records' : List Record} {tail tail' : List TraceError}
    (h : (records.map .ok ++ tail.map .error : List (Except TraceError Record)) =
      records'.map .ok ++ tail'.map .error) : records = records' ∧ tail = tail' := by
  induction records generalizing records' with
  | nil =>
    cases records' with
    | nil => exact ⟨rfl, List.map_injective_iff.mpr (fun _ _ => Except.error.inj) h⟩
    | cons record records' =>
      cases tail with
      | nil => cases h
      | cons err tail => cases (List.cons.inj h).1
  | cons record records ih =>
    cases records' with
    | nil =>
      cases tail' with
      | nil => cases h
      | cons err tail' => cases (List.cons.inj h).1
    | cons record' records' =>
      rcases List.cons.inj h with ⟨hhead, hrest⟩
      rcases ih hrest with ⟨hrecords, htail⟩
      exact ⟨by rw [Except.ok.inj hhead, hrecords], htail⟩

/-- The two records are read, the third frame is refused, and what is left is that frame. -/
theorem reader_accepts_grammar_short_body :
    ∃ r, TraceReader.open shortBodyTrace = .ok r ∧
      ∃ records : List Record,
        records.map Record.seq = [4, 9] ∧
        Yields Crc32.hash r (records.map .ok ++ [.error .truncated]) ∧
        ¬ IsFrameSequence Crc32.hash r.version (shortBodyTrace.drop (headerEnd shortBodyTrace)) ∧
        shortBodyTrace.drop (headerEnd shortBodyTrace) =
          (records.map fun record => frame Crc32.hash (encodeLayout r.version record)).flatten ++
            (after Crc32.hash 2 r).inner := by
  let r : TraceReader Bytes :=
    { inner := (twoBodies.map (frame Crc32.hash)).flatten ++ [3, 0, 0, 0, 1, 2, 3]
      version := 2, cmdline := none, lastSeq := none, poisoned := false }
  have hopen : TraceReader.open shortBodyTrace = .ok r := rfl
  -- the two frames are read, and the third one is not
  have hyields : Yields Crc32.hash r
      ((twoBodies.map (decodeBody 2)).map .ok ++ [TraceError.truncated].map .error) := by
    have hfit : ∀ body ∈ twoBodies, BodyFits 2 body := by
      unfold BodyFits
      decide
    rcases @yields_frames Crc32.hash r twoBodies [3, 0, 0, 0, 1, 2, 3] rfl rfl hfit
      (fun _ _ _ hnone => by cases hnone) (by decide) with ⟨last, -, hitems⟩
    have hall := hitems [.error .truncated] (Yields.error rfl rfl)
    rw [List.map_map]
    exact hall
  rcases @reader_accepts_grammar Crc32.hash _ r hopen with
    ⟨records, tail, -, hread, -, hgrammar, hregion, -⟩
  rcases records_tail_inj (hread.unique hyields) with ⟨rfl, rfl⟩
  refine ⟨r, hopen, twoBodies.map (decodeBody 2), by decide, hread, ?_, hregion⟩
  intro hframes
  cases hgrammar.mpr hframes

end Mirrorscope.Trace
