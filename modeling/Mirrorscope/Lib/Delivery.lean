import Mirrorscope.Lib.Buffered

/-! # What a byte source delivers

A source delivers a byte string when every read takes a piece off its front: of any
size up to what was asked for, but not empty before the end. The loop that fills a
buffer cannot tell two such sources apart.
-/

namespace ByteIO

variable {R : Type} [Read R]

/-- A read for `n` bytes hands over the next piece of `bs`, and `D` holds afterwards. -/
def HandsOver (D : R → List UInt8 → Prop) (n : Nat) (r : R) (bs : List UInt8) : Prop :=
  ∃ piece rest r', bs = piece ++ rest ∧ piece.length ≤ n ∧ (piece = [] → bs = []) ∧
    Read.read n r = (.ok piece, r') ∧ D r' rest

/-- The source delivers `bs`, whatever is asked for and however often. -/
def Delivers (r : R) (bs : List UInt8) : Prop :=
  ∃ D : R → List UInt8 → Prop, D r bs ∧ ∀ r bs, D r bs → ∀ n, 0 < n → HandsOver D n r bs

theorem Delivers.read {r : R} {bs : List UInt8} (h : Delivers r bs) {n : Nat} (hn : 0 < n) :
    HandsOver Delivers n r bs := by
  rcases h with ⟨D, hr, hstep⟩
  rcases hstep r bs hr n hn with ⟨piece, rest, r', hbs, hlen, hend, hread, hr'⟩
  exact ⟨piece, rest, r', hbs, hlen, hend, hread, D, hr', hstep⟩

private theorem fillLoop_delivers (fuel n : Nat) (r : R) (bs : List UInt8) (hfuel : n ≤ fuel)
    (h : Delivers r bs) :
    ∃ r', fillLoop fuel n r = (.ok (bs.take n), r') ∧ Delivers r' (bs.drop n) := by
  induction fuel generalizing n r bs with
  | zero =>
    obtain rfl : n = 0 := by omega
    exact ⟨r, rfl, h⟩
  | succ fuel ih =>
    by_cases hn : n = 0
    · subst hn
      exact ⟨r, rfl, h⟩
    · rcases h.read (by omega : 0 < n) with ⟨piece, rest, r₁, rfl, hlen, hend, hread, hrest⟩
      simp only [fillLoop, hn, ↓reduceIte, hread]
      cases piece with
      | nil =>
        -- an empty piece is the end of the input
        obtain rfl : rest = [] := by simpa using hend rfl
        exact ⟨r₁, by simp, by simpa using hrest⟩
      | cons b piece =>
        have hfuel' : n - (b :: piece).length ≤ fuel := by
          rw [List.length_cons]
          omega
        obtain ⟨r', hloop, hr'⟩ := ih (n - (b :: piece).length) r₁ rest hfuel' hrest
        refine ⟨r', ?_, ?_⟩
        · simp only [hloop, List.take_append, List.take_of_length_le hlen]
        · rw [List.drop_append, List.drop_of_length_le hlen, List.nil_append]
          exact hr'

/-- Filling a buffer takes a prefix of what is delivered, in whatever pieces it comes. -/
theorem fill_delivers {r : R} {bs : List UInt8} (h : Delivers r bs) (n : Nat) :
    ∃ r', fill n r = (.ok (bs.take n), r') ∧ Delivers r' (bs.drop n) :=
  fillLoop_delivers n n r bs (Nat.le_refl n) h

/-- An exact read fails just where the delivered bytes end too early. -/
theorem readExact_delivers {r : R} {bs : List UInt8} (h : Delivers r bs) (n : Nat) :
    ∃ r', readExact n r = (if bs.length < n then .error none else .ok (bs.take n), r') ∧
      Delivers r' (bs.drop n) := by
  obtain ⟨r', hfill, hr'⟩ := fill_delivers h n
  have htake : (bs.take n).length < n ↔ bs.length < n := by
    rw [List.length_take]
    omega
  refine ⟨r', ?_, hr'⟩
  simp only [readExact, hfill, htake]
  split
  · rfl
  · rfl

/-- A byte list delivers itself. -/
theorem delivers_list (bs : List UInt8) : Delivers bs bs := by
  refine ⟨Eq, rfl, ?_⟩
  rintro r _ rfl n hn
  refine ⟨r.take n, r.drop n, r.drop n, (List.take_append_drop n r).symm, List.length_take_le n r,
    ?_, rfl, rfl⟩
  intro htake
  rcases List.take_eq_nil_iff.mp htake with h0 | hnil
  · omega
  · exact hnil

/-- Bytes in pieces are delivered piece by piece. -/
theorem delivers_buffer (b : Buffer) : Delivers b b.bytes := by
  refine ⟨fun b bs => b.bytes = bs, rfl, ?_⟩
  rintro b _ rfl n hn
  have hle : (b.fillBuf.take n).length ≤ b.fillBuf.length := List.length_take_le' n _
  have hfront : b.bytes = b.fillBuf.take n ++ b.bytes.drop (b.fillBuf.take n).length := by
    cases b with
    | nil => simp [Buffer.fillBuf]
    | cons p b =>
      have hle' : (p.1.take n).length ≤ p.1.length := hle
      have hcut : p.1.drop (p.1.take n).length = p.1.drop n := by
        rw [List.length_take, List.drop_eq_drop_iff]
        omega
      rw [Buffer.bytes_cons, Buffer.fillBuf, List.drop_append_of_le_length hle', hcut,
        ← List.append_assoc, List.take_append_drop]
  refine ⟨b.fillBuf.take n, b.bytes.drop (b.fillBuf.take n).length, _, hfront,
    List.length_take_le n _, ?_, rfl, Buffer.bytes_consume hle⟩
  intro hnil
  cases b with
  | nil => rfl
  | cons p b =>
    rcases List.take_eq_nil_iff.mp hnil with h0 | hp
    · omega
    · exact absurd hp p.2

end ByteIO
