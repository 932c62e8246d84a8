import Mathlib.Algebra.Group.Nat.Defs
import Mathlib.Data.List.Basic

/-! # Byte sources and sinks

A source answers `read n` with at most `n` bytes and an empty answer at the end
of its input; a sink accepts bytes in order and holds fewer than `2 ^ 64` of
them. Both may fail, and a write that fails may have accepted the front of its
bytes. `fill` is the loop every blocking reader runs on top of `read`; a byte
list is the simplest source and a growable vector the simplest sink.
-/

namespace ByteIO

/-- A failed read or write, by its raw code. -/
structure IoError where
  code : Nat
deriving DecidableEq, Repr

/-- A byte source: one `read` asks for up to `n` bytes. -/
class Read (R : Type) where
  read : Nat → R → Except IoError (List UInt8) × R

/-- A byte sink, with the bytes it has accepted so far. -/
class Write (W : Type) where
  writeAll : List UInt8 → W → Except IoError Unit × W
  flush : W → Except IoError Unit × W
  written : W → List UInt8
  written_writeAll : ∀ {bs : List UInt8} {w w' : W},
    writeAll bs w = (.ok (), w') → written w' = written w ++ bs
  /-- A failed write stops anywhere. -/
  written_torn : ∀ {bs : List UInt8} {w w' : W} {e : IoError},
    writeAll bs w = (.error e, w') → ∃ part, part <+: bs ∧ written w' = written w ++ part
  /-- A flush passes on what was accepted. -/
  written_flush : ∀ w : W, written (flush w).2 = written w
  written_length_lt : ∀ w : W, (written w).length < 2 ^ 64

section Pieces

variable {W : Type} [Write W]

/-- Write one piece after the other, up to the first that fails. -/
def writePieces : List (List UInt8) → W → Except IoError Unit × W
  | [], w => (.ok (), w)
  | bs :: pieces, w =>
    match Write.writeAll bs w with
    | (.ok (), w') => writePieces pieces w'
    | (.error e, w') => (.error e, w')

/-- All of the pieces are written. -/
theorem written_writePieces {pieces : List (List UInt8)} {w w' : W}
    (h : writePieces pieces w = (.ok (), w')) :
    Write.written w' = Write.written w ++ pieces.flatten := by
  induction pieces generalizing w with
  | nil =>
    obtain ⟨-, rfl⟩ := Prod.mk.inj h
    simp
  | cons bs pieces ih =>
    rw [writePieces] at h
    split at h
    · rename_i hfirst
      rw [ih h, Write.written_writeAll hfirst, List.flatten_cons, List.append_assoc]
    · cases h

/-- Pieces that could not all be written are cut anywhere. -/
theorem written_writePieces_torn {pieces : List (List UInt8)} {w w' : W} {e : IoError}
    (h : writePieces pieces w = (.error e, w')) :
    ∃ part, part <+: pieces.flatten ∧ Write.written w' = Write.written w ++ part := by
  induction pieces generalizing w with
  | nil => cases h
  | cons bs pieces ih =>
    rw [writePieces] at h
    split at h
    · rename_i hfirst
      obtain ⟨part, hpart, hwritten⟩ := ih h
      refine ⟨bs ++ part, ?_, ?_⟩
      · rw [List.flatten_cons]
        exact (List.prefix_append_right_inj _).mpr hpart
      · rw [hwritten, Write.written_writeAll hfirst, List.append_assoc]
    · rename_i hfirst
      obtain ⟨-, rfl⟩ := Prod.mk.inj h
      obtain ⟨part, hpart, hwritten⟩ := Write.written_torn hfirst
      refine ⟨part, ?_, hwritten⟩
      rw [List.flatten_cons]
      exact hpart.trans (List.prefix_append _ _)

end Pieces

section Fill

variable {R : Type} [Read R]

/-- Read until `n` bytes have arrived or the input ends. Every read that does not
end the loop brings a byte, so `n` rounds of `fuel` are enough. -/
def fillLoop : (fuel : Nat) → Nat → R → Except IoError (List UInt8) × R
  | 0, _, r => (.ok [], r)
  | fuel + 1, n, r =>
    if n = 0 then (.ok [], r)
    else
      match Read.read n r with
      | (.error e, r') => (.error e, r')
      | (.ok [], r') => (.ok [], r')
      | (.ok (b :: bs), r') =>
        match fillLoop fuel (n - (b :: bs).length) r' with
        | (.error e, r'') => (.error e, r'')
        | (.ok rest, r'') => (.ok (b :: bs ++ rest), r'')

/-- Up to `n` bytes, fewer only if the input ends first. -/
def fill (n : Nat) (r : R) : Except IoError (List UInt8) × R := fillLoop n n r

/-- All of `n` bytes, or a failure: `none` stands for an early end of input. -/
def readExact (n : Nat) (r : R) : Except (Option IoError) (List UInt8) × R :=
  match fill n r with
  | (.error e, r') => (.error (some e), r')
  | (.ok bs, r') => if bs.length < n then (.error none, r') else (.ok bs, r')

end Fill

/-! ## Byte lists -/

instance : Read (List UInt8) where
  read n bs := (.ok (bs.take n), bs.drop n)

private theorem fillLoop_list (fuel n : Nat) (bs : List UInt8) (h : n ≤ fuel) :
    fillLoop fuel n bs = (.ok (bs.take n), bs.drop n) := by
  induction fuel generalizing n bs with
  | zero =>
    obtain rfl : n = 0 := by omega
    simp [fillLoop]
  | succ fuel ih =>
    by_cases hn : n = 0
    · simp [fillLoop, hn]
    · cases bs with
      | nil => simp [fillLoop, hn, Read.read]
      | cons b bs =>
        obtain ⟨m, rfl⟩ : ∃ m, n = m + 1 := ⟨n - 1, by omega⟩
        -- one read takes all it can get; what is left over is empty or not wanted
        have hrest := ih (m + 1 - (b :: bs.take m).length) (bs.drop m) (by simp; omega)
        simp only [fillLoop, hn, if_false, Read.read, List.take_succ_cons, List.drop_succ_cons,
          hrest, Prod.mk.injEq, Except.ok.injEq]
        by_cases hm : m ≤ bs.length
        · simp [hm]
        · have hdrop : bs.drop m = [] := List.drop_eq_nil_of_le (by omega)
          simp [hdrop]

/-- Filling from a byte list takes a prefix of it. -/
@[simp] theorem fill_list (n : Nat) (bs : List UInt8) :
    fill n bs = (.ok (bs.take n), bs.drop n) :=
  fillLoop_list n n bs (Nat.le_refl n)

/-- An exact read from a byte list fails just when the list is too short. -/
theorem readExact_list (n : Nat) (bs : List UInt8) :
    readExact n bs =
      (if bs.length < n then .error none else .ok (bs.take n), bs.drop n) := by
  have htake : (bs.take n).length < n ↔ bs.length < n := by
    simp only [List.length_take]
    omega
  by_cases h : bs.length < n
  · simp only [readExact, fill_list, if_pos (htake.mpr h), if_pos h]
  · simp only [readExact, fill_list, if_neg (mt htake.mp h), if_neg h]

/-! ## Byte vectors -/

/-- A growable byte vector, at most `isize::MAX` bytes long. -/
structure ByteVec where
  bytes : List UInt8
  bounded : bytes.length < 2 ^ 63

namespace ByteVec

def empty : ByteVec := ⟨[], by decide⟩

/-- A vector that cannot grow any further refuses the write. -/
def capacityOverflow : IoError := ⟨0⟩

instance : Write ByteVec where
  writeAll bs v :=
    if h : (v.bytes ++ bs).length < 2 ^ 63 then (.ok (), ⟨v.bytes ++ bs, h⟩)
    else (.error capacityOverflow, v)
  flush v := (.ok (), v)
  written v := v.bytes
  written_writeAll := by
    intro bs v v' h
    split at h
    · obtain ⟨-, rfl⟩ := Prod.mk.inj h
      rfl
    · cases h
  written_torn := by
    intro bs v v' e h
    split at h
    · cases h
    · obtain ⟨-, rfl⟩ := Prod.mk.inj h
      exact ⟨[], List.nil_prefix, (List.append_nil _).symm⟩
  written_flush _ := rfl
  written_length_lt := by
    intro v
    exact Nat.lt_trans v.bounded (by decide)

@[simp] theorem written_eq (v : ByteVec) : Write.written v = v.bytes := rfl

theorem writeAll_eq {bs : List UInt8} {v : ByteVec} (h : (v.bytes ++ bs).length < 2 ^ 63) :
    Write.writeAll bs v = (.ok (), ⟨v.bytes ++ bs, h⟩) := by
  simp only [Write.writeAll, dif_pos h]

end ByteVec

end ByteIO
