import Mathlib.Data.List.Basic

/-! # Memory with holes

A memory of bytes under 64-bit addresses of which only some are mapped, what it holds
from an address on, and what a copy that stops at the first hole gets of it.
-/

/-- A byte for every address that is mapped. -/
def PartialMemory : Type := UInt64 → Option UInt8

namespace PartialMemory

variable {m : PartialMemory} {start : UInt64} {bs cs : List UInt8} {len : Nat}

/-- The memory holds the bytes from `start` on. -/
def Holds (m : PartialMemory) (start : UInt64) (bs : List UInt8) : Prop :=
  ∀ i b, bs[i]? = some b → m (start + UInt64.ofNat i) = some b

/-- The memory holds zeros from the offset `lo` up to `hi`. -/
def ZeroFrom (m : PartialMemory) (start : UInt64) (lo hi : Nat) : Prop :=
  ∀ i, lo ≤ i → i < hi → m (start + UInt64.ofNat i) = some 0

/-- The mapped bytes from `start` on, up to the first hole. -/
def mapped (m : PartialMemory) (start : UInt64) : Nat → List UInt8
  | 0 => []
  | len + 1 =>
    match m start with
    | none => []
    | some b => b :: m.mapped (start + 1) len

theorem holds_nil (m : PartialMemory) (start : UInt64) : m.Holds start [] :=
  fun i b h => by simp at h

theorem offset_succ (start : UInt64) (i : Nat) :
    start + 1 + UInt64.ofNat i = start + UInt64.ofNat (i + 1) := by
  rw [UInt64.add_assoc, UInt64.ofNat_add, UInt64.add_comm 1]
  rfl

theorem holds_cons {b : UInt8} :
    m.Holds start (b :: bs) ↔ m start = some b ∧ m.Holds (start + 1) bs := by
  constructor
  · intro h
    refine ⟨by simpa using h 0 b rfl, fun i c hc => ?_⟩
    rw [offset_succ]
    exact h (i + 1) c hc
  · rintro ⟨hb, hbs⟩ i c hc
    cases i with
    | zero =>
      obtain rfl : b = c := by simpa using hc
      simpa using hb
    | succ i =>
      rw [← offset_succ]
      exact hbs i c hc

theorem length_mapped (m : PartialMemory) (start : UInt64) (len : Nat) :
    (m.mapped start len).length ≤ len := by
  induction len generalizing start with
  | zero => exact Nat.le_refl 0
  | succ len ih =>
    unfold mapped
    cases m start with
    | none => exact Nat.zero_le _
    | some b => exact Nat.succ_le_succ (ih (start + 1))

theorem holds_mapped (m : PartialMemory) (start : UInt64) (len : Nat) :
    m.Holds start (m.mapped start len) := by
  induction len generalizing start with
  | zero => exact holds_nil m start
  | succ len ih =>
    unfold mapped
    cases hb : m start with
    | none => exact holds_nil m start
    | some b => exact holds_cons.mpr ⟨hb, ih (start + 1)⟩

/-- Bytes that are held, filled up with zeros, are held just where the memory has zeros
too. -/
theorem holds_padded (hlen : bs.length ≤ len) (h : m.Holds start bs) :
    m.Holds start (bs ++ List.replicate (len - bs.length) 0) ↔
      m.ZeroFrom start bs.length len := by
  constructor
  · intro hall i hlo hhi
    refine hall i 0 ?_
    rw [List.getElem?_append_right hlo, List.getElem?_replicate, if_pos (by omega)]
  · intro hzero i b hb
    by_cases hi : i < bs.length
    · rw [List.getElem?_append_left hi] at hb
      exact h i b hb
    · rw [List.getElem?_append_right (by omega), List.getElem?_replicate] at hb
      split at hb
      · obtain rfl := Option.some.inj hb
        exact hzero i (by omega) (by omega)
      · cases hb

end PartialMemory
