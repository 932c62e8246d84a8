import Mathlib.Order.Bounds.Basic
import Mathlib.Order.MinMax
import Mirrorscope.Lib.Checked

/-! # Where an ELF image lies

The load bias of a module and the addresses it covers, from its segments and the
address of its first mapping. The bias is a wrapping difference; the ends of the
range are sums that must not overflow.
-/

namespace Mirrorscope.Unwind

open Checked

/-- A loadable segment, at its stated address. -/
structure Segment where
  address : UInt64
  size : UInt64
deriving DecidableEq, Repr

/-- A half-open range of addresses. -/
structure AddressRange where
  start : UInt64
  finish : UInt64
deriving DecidableEq, Repr

def AddressRange.contains (r : AddressRange) (a : UInt64) : Bool := r.start ≤ a && a < r.finish

/-- Failures while loading a module. -/
inductive UnwindError where
  | io (path : String) (reason : String)
  | elf (reason : String)
  | symbol (reason : String)
deriving DecidableEq, Repr

/-- `u64::MAX`. -/
def maxAddress : UInt64 := 0xFFFFFFFFFFFFFFFF

/-- Take one more segment into account. -/
def extend (found : UInt64 × UInt64) (segment : Segment) : Prog UnwindError (UInt64 × UInt64) := do
  let finish ← add segment.address segment.size
  pure (min found.1 segment.address, max found.2 finish)

/-- The load bias and the mapped range. -/
def bounds (segments : List Segment) (mappingBase : UInt64) :
    Prog UnwindError (UInt64 × AddressRange) := do
  let (minVaddr, maxVaddrEnd) ← segments.foldlM extend (maxAddress, 0)
  if minVaddr = maxAddress then throw (.error (.elf "no loadable segments"))
  else
    let baseAvma := mappingBase - minVaddr
    let start ← add baseAvma minVaddr
    let finish ← add baseAvma maxVaddrEnd
    pure (baseAvma, { start, finish })

/-! ## The image -/

/-- The end of a segment, which may be the end of the address space. -/
def Segment.finish (s : Segment) : Nat := s.address.toNat + s.size.toNat

/-- The image of the segments goes from `lo` up to `hi`. -/
structure Image (segments : List Segment) (lo hi : Nat) : Prop where
  least : IsLeast {a | ∃ s ∈ segments, s.address.toNat = a} lo
  greatest : IsGreatest {e | ∃ s ∈ segments, s.finish = e} hi

theorem extend_of_fits (found : UInt64 × UInt64) {s : Segment} (h : s.finish < 2 ^ 64) :
    ∃ found', extend found s = .ok found' ∧
      found'.1.toNat = min found.1.toNat s.address.toNat ∧
      found'.2.toNat = max found.2.toNat s.finish := by
  refine ⟨_, by rw [extend, add_of_fits h]; rfl, UInt64.toNat_min _ _, ?_⟩
  rw [UInt64.toNat_max, Fits.toNat_add h]
  rfl

theorem extend_of_not_fits {found : UInt64 × UInt64} {s : Segment} (h : ¬ s.finish < 2 ^ 64) :
    extend found s = .error .overflow := by
  rw [extend, add_of_not_fits h]
  rfl

/-- Where no segment reaches the end of the address space, the fold finds the least
address and the greatest end. -/
theorem foldlM_extend {segments : List Segment} (h : ∀ s ∈ segments, s.finish < 2 ^ 64)
    (found : UInt64 × UInt64) :
    ∃ found', segments.foldlM extend found = .ok found' ∧
      IsLeast {a | a = found.1.toNat ∨ ∃ s ∈ segments, s.address.toNat = a} found'.1.toNat ∧
      IsGreatest {e | e = found.2.toNat ∨ ∃ s ∈ segments, s.finish = e} found'.2.toNat := by
  -- The bounds so far stand in for the segments already seen.
  induction segments generalizing found with
  | nil =>
    refine ⟨found, rfl, ⟨.inl rfl, ?_⟩, ⟨.inl rfl, ?_⟩⟩
    · rintro a (rfl | ⟨s, hs, -⟩)
      · exact le_refl _
      · exact absurd hs (List.not_mem_nil)
    · rintro a (rfl | ⟨s, hs, -⟩)
      · exact le_refl _
      · exact absurd hs (List.not_mem_nil)
  | cons t segments ih =>
    obtain ⟨first, hfirst, hmin, hmax⟩ := extend_of_fits found (h t (by simp))
    obtain ⟨found', hfold, hleast, hgreatest⟩ := ih (fun s hs => h s (by simp [hs])) first
    refine ⟨found', by rw [List.foldlM_cons, hfirst]; exact hfold, ?_, ?_⟩
    · rw [hmin] at hleast
      obtain ⟨hmem, hle⟩ := hleast
      constructor
      · rcases hmem with heq | ⟨s, hs, heq⟩
        · rcases min_choice found.1.toNat t.address.toNat with hc | hc
          · exact .inl (heq.trans hc)
          · exact .inr ⟨t, by simp, (heq.trans hc).symm⟩
        · exact .inr ⟨s, by simp [hs], heq⟩
      · rintro a (rfl | ⟨s, hs, rfl⟩)
        · exact (hle (.inl rfl)).trans (min_le_left _ _)
        · rcases List.mem_cons.mp hs with rfl | hs
          · exact (hle (.inl rfl)).trans (min_le_right _ _)
          · exact hle (.inr ⟨s, hs, rfl⟩)
    · rw [hmax] at hgreatest
      obtain ⟨hmem, hle⟩ := hgreatest
      constructor
      · rcases hmem with heq | ⟨s, hs, heq⟩
        · rcases max_choice found.2.toNat t.finish with hc | hc
          · exact .inl (heq.trans hc)
          · exact .inr ⟨t, by simp, (heq.trans hc).symm⟩
        · exact .inr ⟨s, by simp [hs], heq⟩
      · rintro a (rfl | ⟨s, hs, rfl⟩)
        · exact (le_max_left _ _).trans (hle (.inl rfl))
        · rcases List.mem_cons.mp hs with rfl | hs
          · exact (le_max_right _ _).trans (hle (.inl rfl))
          · exact hle (.inr ⟨s, hs, rfl⟩)

theorem foldlM_extend_overflow {segments : List Segment} {s : Segment} (hs : s ∈ segments)
    (h : ¬ s.finish < 2 ^ 64) (found : UInt64 × UInt64) :
    segments.foldlM extend found = .error .overflow := by
  induction segments generalizing found with
  | nil => exact absurd hs (List.not_mem_nil)
  | cons t segments ih =>
    rw [List.foldlM_cons]
    by_cases ht : t.finish < 2 ^ 64
    · obtain ⟨first, hfirst, -⟩ := extend_of_fits found ht
      rw [hfirst]
      refine ih ?_ first
      rcases List.mem_cons.mp hs with rfl | hs
      · exact absurd ht h
      · exact hs
    · rw [extend_of_not_fits ht]
      rfl

section Image

variable {segments : List Segment} {lo hi : Nat}

theorem Image.lo_lt (h : Image segments lo hi) : lo < 2 ^ 64 := by
  obtain ⟨s, -, rfl⟩ := h.least.1
  exact s.address.toNat_lt

theorem Image.lo_le_hi (h : Image segments lo hi) : lo ≤ hi := by
  obtain ⟨s, hs, rfl⟩ := h.least.1
  exact (Nat.le_add_right _ _).trans (h.greatest.2 ⟨s, hs, rfl⟩)

/-- What the fold over the segments finds. -/
theorem Image.foldlM_extend (h : Image segments lo hi) :
    segments.foldlM extend (maxAddress, 0) =
      if hi < 2 ^ 64 then .ok (UInt64.ofNat lo, UInt64.ofNat hi) else .error .overflow := by
  by_cases hfits : hi < 2 ^ 64
  · have hall : ∀ s ∈ segments, s.finish < 2 ^ 64 :=
      fun s hs => (h.greatest.2 ⟨s, hs, rfl⟩).trans_lt hfits
    obtain ⟨⟨lo', hi'⟩, hfold, hleast, hgreatest⟩ :=
      Unwind.foldlM_extend hall (maxAddress, 0)
    -- The fold starts from an address no segment is above and an end none is below.
    have hlo : lo'.toNat = lo := by
      obtain ⟨s, hs, hsa⟩ := h.least.1
      apply le_antisymm
      · exact hleast.2 (.inr ⟨s, hs, hsa⟩)
      · rcases hleast.1 with heq | hmem
        · have hmax : maxAddress.toNat = 2 ^ 64 - 1 := rfl
          have := h.lo_lt
          dsimp only at heq
          omega
        · exact h.least.2 hmem
    have hhi : hi'.toNat = hi := by
      obtain ⟨s, hs, hsa⟩ := h.greatest.1
      apply le_antisymm
      · rcases hgreatest.1 with heq | hmem
        · have hzero : (0 : UInt64).toNat = 0 := rfl
          dsimp only at heq
          omega
        · exact h.greatest.2 hmem
      · exact hgreatest.2 (.inr ⟨s, hs, hsa⟩)
    rw [hfold, if_pos hfits, ← hlo, ← hhi, UInt64.ofNat_toNat, UInt64.ofNat_toNat]
  · obtain ⟨s, hs, hsa⟩ := h.greatest.1
    rw [if_neg hfits]
    exact foldlM_extend_overflow hs (by rwa [hsa]) _

/-- What becomes of the bounds: an error when the image lies at the very last address,
and an overflow when it ends there or its bias does not leave room for it. -/
theorem Image.bounds_eq (h : Image segments lo hi) (mappingBase : UInt64) :
    bounds segments mappingBase =
      let base := mappingBase - UInt64.ofNat lo
      if hi < 2 ^ 64 then
        if lo = 2 ^ 64 - 1 then .error (.error (.elf "no loadable segments"))
        else if base.toNat + hi < 2 ^ 64 then
          .ok (base, { start := base + UInt64.ofNat lo, finish := base + UInt64.ofNat hi })
        else .error .overflow
      else .error .overflow := by
  have hlo := h.lo_lt
  have hle := h.lo_le_hi
  by_cases hfits : hi < 2 ^ 64
  · have htoNat {n : Nat} (hn : n < 2 ^ 64) : (UInt64.ofNat n).toNat = n := by
      rw [UInt64.toNat_ofNat']
      exact Nat.mod_eq_of_lt hn
    -- the address the fold starts from stands for no segment at all
    have hmax : UInt64.ofNat lo = maxAddress ↔ lo = 2 ^ 64 - 1 := by
      rw [← UInt64.toNat_inj, htoNat hlo]
      rfl
    have hstop : (segments.foldlM extend (maxAddress, 0) >>= fun found =>
        (if found.1 = maxAddress then throw (.error (.elf "no loadable segments"))
        else do
          let start ← add (mappingBase - found.1) found.1
          let finish ← add (mappingBase - found.1) found.2
          pure (mappingBase - found.1, { start, finish }) :
            Prog UnwindError (UInt64 × AddressRange))) = bounds segments mappingBase := rfl
    rw [← hstop, h.foldlM_extend, if_pos hfits]
    simp only [hfits, ↓reduceIte, bind, Except.bind, hmax]
    by_cases hlast : lo = 2 ^ 64 - 1
    · simp [hlast, throw, throwThe, MonadExceptOf.throw]
    · simp only [hlast, ↓reduceIte]
      by_cases hroom : (mappingBase - UInt64.ofNat lo).toNat + hi < 2 ^ 64
      · have hstart : Fits (mappingBase - UInt64.ofNat lo) (UInt64.ofNat lo) := by
          rw [Fits, htoNat hlo]
          omega
        have hfinish : Fits (mappingBase - UInt64.ofNat lo) (UInt64.ofNat hi) := by
          rwa [Fits, htoNat hfits]
        simp only [add_of_fits hstart, add_of_fits hfinish, hroom, ↓reduceIte]
        rfl
      · have hfinish : ¬ Fits (mappingBase - UInt64.ofNat lo) (UInt64.ofNat hi) := by
          rwa [Fits, htoNat hfits]
        simp only [add_of_not_fits hfinish, hroom, ↓reduceIte]
        by_cases hstart : Fits (mappingBase - UInt64.ofNat lo) (UInt64.ofNat lo)
        · simp only [add_of_fits hstart]
        · simp only [add_of_not_fits hstart]
  · have hstop : segments.foldlM extend (maxAddress, 0) = .error .overflow := by
      rw [h.foldlM_extend, if_neg hfits]
    rw [bounds, hstop]
    simp only [hfits, ↓reduceIte]
    rfl

end Image

end Mirrorscope.Unwind
