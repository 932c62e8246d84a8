import Mathlib.Data.UInt

/-! # CRC-32

The checksum of IEEE 802.3, bit by bit: reflected polynomial `0xEDB88320`,
initial value and final complement all ones.
-/

namespace Crc32

/-- Shift one bit out of the register. -/
def shift (crc : UInt32) : UInt32 :=
  if crc &&& 1 = 1 then (crc >>> 1) ^^^ 0xEDB88320 else crc >>> 1

/-- Feed one byte. -/
def update (crc : UInt32) (b : UInt8) : UInt32 :=
  Nat.iterate shift 8 (crc ^^^ b.toUInt32)

/-- The checksum of a byte string. -/
def hash (bs : List UInt8) : UInt32 :=
  bs.foldl update 0xFFFFFFFF ^^^ 0xFFFFFFFF

-- the check value of the standard, for the digits 1 to 9
example : hash [0x31, 0x32, 0x33, 0x34, 0x35, 0x36, 0x37, 0x38, 0x39] = 0xCBF43926 := by decide +kernel

end Crc32
