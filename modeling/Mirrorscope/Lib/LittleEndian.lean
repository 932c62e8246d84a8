import Mathlib.Data.List.Basic
import Mathlib.Tactic.Ring

/-! # Little-endian numbers

Fixed-width little-endian encoding of natural numbers as byte lists. `encode w n`
keeps the `w` low bytes of `n`, which is what a narrowing cast followed by a
`to_le_bytes` does; `decode` reads any number of bytes back.
-/

namespace LittleEndian

/-- The `w` low bytes of `n`, least significant first. -/
def encode : (w : Nat) → Nat → List UInt8
  | 0, _ => []
  | w + 1, n => UInt8.ofNat n :: encode w (n / 256)

/-- The number a little-endian byte string stands for. -/
def decode : List UInt8 → Nat
  | [] => 0
  | b :: bs => b.toNat + 256 * decode bs

@[simp] theorem length_encode (w n : Nat) : (encode w n).length = w := by
  induction w generalizing n with
  | zero => rfl
  | succ w ih => simp [encode, ih]

/-- Decoding recovers the number up to what the width can hold. -/
theorem decode_encode (w n : Nat) : decode (encode w n) = n % 256 ^ w := by
  induction w generalizing n with
  | zero => simp [encode, decode, Nat.mod_one]
  | succ w ih =>
    have hpow : (256 : Nat) ^ (w + 1) = 256 * 256 ^ w := by ring
    simp only [encode, decode, ih, hpow, UInt8.toNat_ofNat', Nat.mod_mul]

/-- A number that fits its width survives the round trip. -/
theorem decode_encode_of_lt {w n : Nat} (h : n < 256 ^ w) : decode (encode w n) = n := by
  rw [decode_encode, Nat.mod_eq_of_lt h]

/-- `w` bytes never stand for more than `256 ^ w - 1`. -/
theorem decode_lt (bs : List UInt8) : decode bs < 256 ^ bs.length := by
  induction bs with
  | nil => simp [decode]
  | cons b bs ih =>
    have hb : b.toNat < 256 := b.toNat_lt
    have hpow : (256 : Nat) ^ (b :: bs).length = 256 * 256 ^ bs.length := by
      simp only [List.length_cons]; ring
    simp only [decode, hpow]
    omega

/-- Re-encoding at the original width gives the bytes back. -/
theorem encode_decode (bs : List UInt8) : encode bs.length (decode bs) = bs := by
  induction bs with
  | nil => rfl
  | cons b bs ih =>
    have hb : b.toNat < 256 := b.toNat_lt
    have hdiv : (b.toNat + 256 * decode bs) / 256 = decode bs := by omega
    have hhead : UInt8.ofNat (b.toNat + 256 * decode bs) = b := by
      apply UInt8.toNat_inj.mp
      simp only [UInt8.toNat_ofNat']
      omega
    simp only [List.length_cons, encode, decode, hdiv, hhead, ih]

/-- The same, with the width given separately. -/
theorem encode_decode_of_length {w : Nat} {bs : List UInt8} (h : bs.length = w) :
    encode w (decode bs) = bs := by
  subst h
  exact encode_decode bs

/-! ## Machine words -/

theorem ofNat_mod_u64 (n : UInt64) : UInt64.ofNat (n.toNat % 256 ^ 8) = n := by
  have h : n.toNat % 256 ^ 8 = n.toNat := Nat.mod_eq_of_lt n.toNat_lt
  rw [h, UInt64.ofNat_toNat]

theorem ofNat_mod_u32 (n : UInt32) : UInt32.ofNat (n.toNat % 256 ^ 4) = n := by
  have h : n.toNat % 256 ^ 4 = n.toNat := Nat.mod_eq_of_lt n.toNat_lt
  rw [h, UInt32.ofNat_toNat]

theorem ofNat_mod_u16 (n : UInt16) : UInt16.ofNat (n.toNat % 256 ^ 2) = n := by
  have h : n.toNat % 256 ^ 2 = n.toNat := Nat.mod_eq_of_lt n.toNat_lt
  rw [h, UInt16.ofNat_toNat]

theorem toNat_ofNat_u64 {n : Nat} (h : n < 256 ^ 8) : (UInt64.ofNat n).toNat = n := by
  rw [UInt64.toNat_ofNat']
  exact Nat.mod_eq_of_lt h

theorem toNat_ofNat_u32 {n : Nat} (h : n < 256 ^ 4) : (UInt32.ofNat n).toNat = n := by
  rw [UInt32.toNat_ofNat']
  exact Nat.mod_eq_of_lt h

theorem toNat_ofNat_u16 {n : Nat} (h : n < 256 ^ 2) : (UInt16.ofNat n).toNat = n := by
  rw [UInt16.toNat_ofNat']
  exact Nat.mod_eq_of_lt h

end LittleEndian
