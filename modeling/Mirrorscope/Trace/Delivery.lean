import Mirrorscope.Lib.Delivery
import Mirrorscope.Lib.Lockstep
import Mirrorscope.Trace.Reader
import Mirrorscope.Lib.Crc32

/-! # Traces that arrive in pieces

Two sources that deliver one byte string, in pieces of any sizes, cannot be told
apart through the trace reader: both readers open alike, and from then on they run
in lockstep, item by item.
-/

namespace Mirrorscope.Trace

open ByteIO (Read Delivers readExact_delivers fill_delivers delivers_list Buffer
  delivers_buffer)
open Effect (Lockstep)

variable {R S : Type} [Read R] [Read S]

/-- The two sources deliver the same bytes. -/
def SameBytes (r : R) (s : S) : Prop := ∃ bs, Delivers r bs ∧ Delivers s bs

/-- The two outcomes differ in the sources they leave only, which deliver the same bytes. -/
inductive SameRead {α : Type} : Except TraceError (α × R) → Except TraceError (α × S) → Prop where
  | ok {a : α} {r : R} {s : S} (h : SameBytes r s) : SameRead (.ok (a, r)) (.ok (a, s))
  | error {e : TraceError} : SameRead (.error e) (.error e)

theorem readOr_sameRead {r : R} {s : S} (h : SameBytes r s) (err : TraceError) (n : Nat) :
    SameRead (readOr err n r) (readOr err n s) := by
  rcases h with ⟨bs, hr, hs⟩
  rcases readExact_delivers hr n with ⟨r', hread, hr'⟩
  rcases readExact_delivers hs n with ⟨s', hread', hs'⟩
  rw [readOr, readOr, hread, hread']
  by_cases hlen : bs.length < n
  · simp only [if_pos hlen]
    exact .error
  · simp only [if_neg hlen]
    exact .ok ⟨_, hr', hs'⟩

namespace TraceReader

/-- The readers agree in all but their sources, which deliver the same bytes. -/
structure Alike (t : TraceReader R) (u : TraceReader S) : Prop where
  inner : SameBytes t.inner u.inner
  version : t.version = u.version
  cmdline : t.cmdline = u.cmdline
  lastSeq : t.lastSeq = u.lastSeq
  poisoned : t.poisoned = u.poisoned

/-- The two ways to open a trace end alike. -/
inductive SameOpen : Except TraceError (TraceReader R) → Except TraceError (TraceReader S) →
    Prop where
  | ok {t : TraceReader R} {u : TraceReader S} (h : Alike t u) : SameOpen (.ok t) (.ok u)
  | error {e : TraceError} : SameOpen (.error e) (.error e)

theorem open_alike {r : R} {s : S} (h : SameBytes r s) :
    SameOpen (TraceReader.open r) (TraceReader.open s) := by
  have hbase := readOr_sameRead h .badMagic baseHeaderLen
  unfold TraceReader.open
  generalize readOr .badMagic baseHeaderLen r = x, readOr .badMagic baseHeaderLen s = x' at hbase ⊢
  cases hbase with
  | error => exact .error
  | @ok base r s h =>
    simp only [Effect.except_ok_bind]
    split
    · exact .error
    split
    · exact .error
    -- the header length that both read decides how many bytes are skipped
    have hextra := readOr_sameRead h .truncated (leField base 10 2 - baseHeaderLen)
    generalize readOr .truncated (leField base 10 2 - baseHeaderLen) r = y,
      readOr .truncated (leField base 10 2 - baseHeaderLen) s = y' at hextra ⊢
    cases hextra with
    | error => exact .error
    | @ok extraBuf r s h =>
      simp only [Effect.except_ok_bind]
      cases headerCmdline (UInt16.ofNat (leField base 8 2)) extraBuf with
      | error e => exact .error
      | ok cmdline => exact .ok ⟨h, rfl, rfl, rfl, rfl⟩

/-- The step takes `n` bytes, and what it answers is decided by the bytes that are delivered. -/
def TakesFrom {α : Type} (f : R → Except TraceError α × R) (n : Nat)
    (answer : Bytes → Except TraceError α) : Prop :=
  ∀ r bs, Delivers r bs → ∃ r', f r = (answer bs, r') ∧ Delivers r' (bs.drop n)

theorem readExactOrEof_takesFrom (n : Nat) :
    TakesFrom (@readExactOrEof R _ n) n fun bs =>
      .ok (if (bs.take n).length < n then if (bs.take n).isEmpty then .eof else .partway
        else .full (bs.take n)) := by
  intro r bs hr
  rcases fill_delivers hr n with ⟨r', hfill, hr'⟩
  refine ⟨r', ?_, hr'⟩
  rw [readExactOrEof, hfill]
  -- how far the read got is decided by the delivered bytes
  by_cases hlen : (bs.take n).length < n
  · simp only [if_pos hlen]
  · simp only [if_neg hlen]

theorem readExact_takesFrom (n : Nat) :
    TakesFrom (fun r : R => match ByteIO.readExact n r with
        | (.error _, r) => (.error .truncated, r)
        | (.ok buf, r) => (.ok buf, r)) n
      fun bs => if bs.length < n then .error .truncated else .ok (bs.take n) := by
  intro r bs hr
  rcases readExact_delivers hr n with ⟨r', hread, hr'⟩
  refine ⟨r', ?_, hr'⟩
  simp only [hread]
  by_cases hlen : bs.length < n
  · simp only [if_pos hlen]
  · simp only [if_neg hlen]

/-- The same step inside of both readers. -/
theorem onInner_lockstep {α : Type} {f : R → Except TraceError α × R}
    {g : S → Except TraceError α × S} {n : Nat} {answer : Bytes → Except TraceError α}
    (hf : TakesFrom f n answer) (hg : TakesFrom g n answer) :
    Lockstep Alike (onInner f) (onInner g) := by
  intro t u htu
  rcases htu.inner with ⟨bs, ht, hu⟩
  rcases hf t.inner bs ht with ⟨r, hfr, hr⟩
  rcases hg u.inner bs hu with ⟨s, hgs, hs⟩
  rw [onInner, onInner, hfr, hgs]
  cases answer bs with
  | ok a => exact .ok ⟨⟨_, hr, hs⟩, htu.version, htu.cmdline, htu.lastSeq, htu.poisoned⟩
  | error e => exact .error ⟨⟨_, hr, hs⟩, htu.version, htu.cmdline, htu.lastSeq, htu.poisoned⟩

theorem readExactOrEof_lockstep (n : Nat) :
    Lockstep (@Alike R S _ _) (onInner (readExactOrEof n)) (onInner (readExactOrEof n)) :=
  onInner_lockstep (readExactOrEof_takesFrom n) (readExactOrEof_takesFrom n)

theorem readBody_lockstep (n : Nat) :
    Lockstep (@Alike R S _ _) (readBody n) (readBody n) :=
  onInner_lockstep (readExact_takesFrom n) (readExact_takesFrom n)

theorem checkMonotonic_lockstep (seq : UInt64) :
    Lockstep (@Alike R S _ _) (checkMonotonic seq) (checkMonotonic seq) := by
  have hset : Lockstep (@Alike R S _ _)
      (modify fun t => { t with lastSeq := some seq })
      (modify fun u => { u with lastSeq := some seq } : EStateM TraceError _ PUnit) :=
    .modify fun t u htu => ⟨htu.inner, htu.version, htu.cmdline, rfl, htu.poisoned⟩
  apply Lockstep.get_bind
  intro t u htu
  rw [htu.lastSeq]
  cases u.lastSeq with
  | none => exact hset
  | some previous =>
    by_cases hseq : seq ≤ previous
    · simp only [if_pos hseq]
      exact .throw
    · simp only [if_neg hseq]
      exact hset

variable (crc32 : Bytes → UInt32)

theorem readFrame_lockstep (bodyLen : Nat) :
    Lockstep (@Alike R S _ _) (readFrame crc32 bodyLen) (readFrame crc32 bodyLen) := by
  apply Lockstep.get_bind
  intro t u htu
  simp only [htu.version]
  split
  · exact .throw
  · split
    · exact .throw
    · refine .bind (readBody_lockstep bodyLen) fun body => ?_
      refine .bind (readBody_lockstep 4) fun crcBuf => ?_
      split
      · exact .throw
      · exact .bind (checkMonotonic_lockstep _) fun _ => .pure

theorem readRecord_lockstep :
    Lockstep (@Alike R S _ _) (readRecord crc32) (readRecord crc32) := by
  refine .bind (readExactOrEof_lockstep 4) fun outcome => ?_
  cases outcome with
  | eof => exact .pure
  | partway => exact .throw
  | full lenBuf => exact .map _ (readFrame_lockstep crc32 _)

/-- One item: the same from both readers, which stay alike. -/
theorem next_alike {t : TraceReader R} {u : TraceReader S} (h : Alike t u) :
    (next crc32 t).1 = (next crc32 u).1 ∧ Alike (next crc32 t).2 (next crc32 u).2 := by
  have hread := readRecord_lockstep crc32 t u h
  rw [next, next, h.poisoned]
  split
  · exact ⟨rfl, h⟩
  · generalize readRecord crc32 t = x, readRecord crc32 u = y at hread ⊢
    cases hread with
    | ok h' =>
      rename_i record _ _
      cases record with
      | none => exact ⟨rfl, h'⟩
      | some record => exact ⟨rfl, h'⟩
    | error h' => exact ⟨rfl, h'.inner, h'.version, h'.cmdline, h'.lastSeq, rfl⟩

theorem after_alike (n : Nat) {t : TraceReader R} {u : TraceReader S} (h : Alike t u) :
    Alike (after crc32 n t) (after crc32 n u) := by
  induction n generalizing t u with
  | zero => exact h
  | succ n ih => exact ih (next_alike crc32 h).2

/-- Readers that are alike give the same item to every call. -/
theorem item_alike {t : TraceReader R} {u : TraceReader S} (h : Alike t u) (i : Nat) :
    item crc32 i t = item crc32 i u :=
  (next_alike crc32 (after_alike crc32 i h)).1

end TraceReader

open TraceReader

variable (crc32 : Bytes → UInt32)

/-- Two sources of one byte string give the same trace: they are refused with the same
error, or opened alike, and then give the same records, errors and end. -/
theorem delivery_unseen {r : R} {s : S} {bs : Bytes} (hr : Delivers r bs) (hs : Delivers s bs) :
    match TraceReader.open r, TraceReader.open s with
    | .ok t, .ok u =>
      t.version = u.version ∧ t.cmdline = u.cmdline ∧ ∀ i, item crc32 i t = item crc32 i u
    | .error e, .error e' => e = e'
    | _, _ => False := by
  have hopen := open_alike ⟨bs, hr, hs⟩
  generalize TraceReader.open r = x, TraceReader.open s = y at hopen ⊢
  cases hopen with
  | ok h => exact ⟨h.version, h.cmdline, item_alike crc32 h⟩
  | error => rfl

/-- A trace torn within its first length prefix, in one piece and in three. -/
theorem delivery_unseen_torn :
    ∃ (t : TraceReader Bytes) (u : TraceReader Buffer),
      TraceReader.open (magic ++ [1, 0, 12, 0, 20, 0]) = .ok t ∧
      TraceReader.open ([⟨magic, by decide⟩, ⟨[1, 0, 12, 0, 20], by decide⟩, ⟨[0], by decide⟩] :
        Buffer) = .ok u ∧
      item Crc32.hash 0 t = some (.error .truncated) ∧
      ∀ i, item Crc32.hash i t = item Crc32.hash i u := by
  have hpieces := delivers_buffer
    [⟨magic, by decide⟩, ⟨[1, 0, 12, 0, 20], by decide⟩, ⟨[0], by decide⟩]
  have hsame := delivery_unseen Crc32.hash
    (delivers_list (magic ++ [1, 0, 12, 0, 20, 0])) hpieces
  exact ⟨_, _, rfl, rfl, rfl, hsame.2.2⟩

end Mirrorscope.Trace
