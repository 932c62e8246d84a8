import Mathlib.Algebra.Group.Nat.Defs
import Mathlib.Data.List.Basic

/-! # Byte memory

A memory of bytes under 64-bit addresses, read and written by ranges. A range may wrap
around the end of the address space; it is never longer than that space.
-/

/-- A byte for every address. -/
def ByteMemory : Type := UInt64 → UInt8

namespace ByteMemory

/-- The address lies in the range of `len` bytes from `start` on. -/
def Within (start : UInt64) (len : Nat) (x : UInt64) : Prop := (x - start).toNat < len

instance (start : UInt64) (len : Nat) (x : UInt64) : Decidable (Within start len x) :=
  inferInstanceAs (Decidable ((x - start).toNat < len))

/-- The bytes of a range. -/
def range (m : ByteMemory) (start : UInt64) (len : Nat) : List UInt8 :=
  (List.range len).map fun i => m (start + UInt64.ofNat i)

/-- Write bytes from `start` on. -/
def write (m : ByteMemory) (start : UInt64) (data : List UInt8) : ByteMemory :=
  fun x => (data[(x - start).toNat]?).getD (m x)

@[simp] theorem length_range (m : ByteMemory) (start : UInt64) (len : Nat) :
    (m.range start len).length = len := by
  simp [range]

theorem Within.mono {start x : UInt64} {len len' : Nat} (h : Within start len x)
    (hle : len ≤ len') : Within start len' x := Nat.lt_of_lt_of_le h hle

theorem not_within_zero (start x : UInt64) : ¬ Within start 0 x := Nat.not_lt_zero _

/-- The address at an offset is in the ranges that are longer than the offset. -/
theorem within_offset {start : UInt64} {len i : Nat} (hi : i < 2 ^ 64) :
    Within start len (start + UInt64.ofNat i) ↔ i < len := by
  rw [Within, UInt64.add_comm, UInt64.add_sub_cancel, UInt64.toNat_ofNat', Nat.mod_eq_of_lt hi]

/-- An address in a range is the one at its offset. -/
theorem offset_eq (start x : UInt64) : start + UInt64.ofNat (x - start).toNat = x := by
  rw [UInt64.ofNat_toNat, UInt64.add_comm, UInt64.sub_add_cancel]

/-- Outside of the written range nothing changes. -/
theorem write_outside {m : ByteMemory} {start x : UInt64} {data : List UInt8}
    (h : ¬ Within start data.length x) : m.write start data x = m x := by
  rw [write, List.getElem?_eq_none (Nat.le_of_not_lt h)]
  rfl

/-- Inside of it the data is found. -/
theorem write_inside {m : ByteMemory} {start x : UInt64} {data : List UInt8}
    (h : Within start data.length x) : m.write start data x = data.get ⟨(x - start).toNat, h⟩ := by
  rw [write, List.getElem?_eq_getElem h]
  rfl

@[simp] theorem write_nil (m : ByteMemory) (start : UInt64) : m.write start [] = m := rfl

/-- A range is read back as it was written. -/
theorem range_write {m : ByteMemory} {start : UInt64} {data : List UInt8}
    (h : data.length ≤ 2 ^ 64) : (m.write start data).range start data.length = data := by
  apply List.ext_getElem
  · rw [length_range]
  · intro i hi hdata
    have hoffset : (start + UInt64.ofNat i - start).toNat = i := by
      rw [UInt64.add_comm, UInt64.add_sub_cancel, UInt64.toNat_ofNat', Nat.mod_eq_of_lt (by omega)]
    simp only [range, List.getElem_map, List.getElem_range, write, hoffset,
      List.getElem?_eq_getElem hdata, Option.getD_some]

/-- A range depends on its own bytes only. -/
theorem range_congr {m m' : ByteMemory} {start : UInt64} {len : Nat} (hlen : len ≤ 2 ^ 64)
    (h : ∀ x, Within start len x → m x = m' x) : m.range start len = m'.range start len := by
  apply List.map_congr_left
  intro i hi
  have hlt : i < len := List.mem_range.mp hi
  exact h _ ((within_offset (by omega)).mpr hlt)

/-- Copying a range of one memory into another. -/
theorem write_range (m m' : ByteMemory) (start : UInt64) (len : Nat) (x : UInt64) :
    m.write start (m'.range start len) x = if Within start len x then m' x else m x := by
  by_cases h : Within start len x
  · rw [if_pos h, write, range, List.getElem?_map, List.getElem?_range h, Option.map_some,
      offset_eq]
    rfl
  · rw [if_neg h]
    apply write_outside
    rwa [length_range]

/-- Two memories that agree outside of a range differ by a copy of it. -/
theorem write_range_eq {m m' : ByteMemory} {start : UInt64} {len : Nat}
    (h : ∀ x, ¬ Within start len x → m' x = m x) : m.write start (m'.range start len) = m' := by
  funext x
  rw [write_range]
  split
  · rfl
  · rename_i hx
    exact (h x hx).symm

end ByteMemory
