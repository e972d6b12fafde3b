/-!
# Cyclic redundancy checks

The two checks that the compressed formats carry: CRC-32 (gzip, xz, lzip) and
CRC-64 (xz). Both read their bits in reflected order, start from all ones and
invert the result. A value is extended byte by byte, so the CRC-32 of a
concatenation is that of its second part started from that of the first
(`crc32_append`).
-/

set_option autoImplicit false

namespace DiskStaging.Checksum

/-- Divides one bit out of a reflected CRC-32 register. -/
@[inline] def crc32Bit (register : UInt32) : UInt32 :=
  if register &&& 1 = 1 then (register >>> 1) ^^^ 0xEDB88320 else register >>> 1

/-- Takes one byte into a CRC-32 register. -/
def crc32Byte (register : UInt32) (byte : UInt8) : UInt32 :=
  let r := register ^^^ byte.toUInt32
  crc32Bit (crc32Bit (crc32Bit (crc32Bit (crc32Bit (crc32Bit (crc32Bit (crc32Bit r)))))))

/-- Extends the CRC-32 value `check` by more bytes; the value of nothing is 0. -/
def crc32 (check : UInt32) (bytes : List UInt8) : UInt32 :=
  (bytes.foldl crc32Byte (check ^^^ 0xFFFFFFFF)) ^^^ 0xFFFFFFFF

/-- Divides one bit out of a reflected CRC-64 register. -/
@[inline] def crc64Bit (register : UInt64) : UInt64 :=
  if register &&& 1 = 1 then (register >>> 1) ^^^ 0xC96C5795D7870F42 else register >>> 1

/-- Takes one byte into a CRC-64 register. -/
def crc64Byte (register : UInt64) (byte : UInt8) : UInt64 :=
  let r := register ^^^ byte.toUInt64
  crc64Bit (crc64Bit (crc64Bit (crc64Bit (crc64Bit (crc64Bit (crc64Bit (crc64Bit r)))))))

/-- Extends the CRC-64 value `check` by more bytes; the value of nothing is 0. -/
def crc64 (check : UInt64) (bytes : List UInt8) : UInt64 :=
  (bytes.foldl crc64Byte (check ^^^ 0xFFFFFFFFFFFFFFFF)) ^^^ 0xFFFFFFFFFFFFFFFF

@[simp] theorem crc32_nil (check : UInt32) : crc32 check [] = check := by
  rw [crc32, List.foldl_nil, UInt32.xor_assoc, UInt32.xor_self, UInt32.xor_zero]

theorem crc32_append (check : UInt32) (first second : List UInt8) :
    crc32 check (first ++ second) = crc32 (crc32 check first) second := by
  simp only [crc32, List.foldl_append]
  rw [UInt32.xor_assoc _ 0xFFFFFFFF, UInt32.xor_self, UInt32.xor_zero]

end DiskStaging.Checksum
