/-
# CRC-32

The checksum that archives keep of their contents: the remainder of a byte
sequence by the polynomial `EDB88320`, least significant bit first, with all bits
turned over before and after.
-/

import LiveBuild.Text.Utf8

namespace LiveBuild
namespace Checksum

/-- The polynomial, lowest power in the highest bit. -/
def polynomial : UInt32 := 0xEDB88320

/-- Division by the polynomial over so many bits. -/
def divide : Nat → UInt32 → UInt32
  | 0, r => r
  | n + 1, r => divide n (if r &&& 1 = 1 then (r >>> 1) ^^^ polynomial else r >>> 1)

/-- One byte more. -/
def step (r : UInt32) (b : UInt8) : UInt32 := divide 8 (r ^^^ b.toUInt32)

/-- The checksum of a byte sequence. -/
def crc32 (s : Bytes) : UInt32 := s.foldl step 0xFFFFFFFF ^^^ 0xFFFFFFFF

/-- The checksum of the nine digits, the value that the definition of CRC-32 names as its check. -/
example : crc32 [0x31, 0x32, 0x33, 0x34, 0x35, 0x36, 0x37, 0x38, 0x39] = 0xCBF43926 := by
  decide +kernel

end Checksum
end LiveBuild
