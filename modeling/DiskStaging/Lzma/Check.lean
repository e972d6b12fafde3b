import DiskStaging.Checksum.Crc
import DiskStaging.Checksum.Sha256

/-!
# Integrity checks of xz blocks

The header of an xz stream names the check that follows the data of each of its
blocks. The size of every possible check is fixed, so a check of an unknown kind
can be skipped; only the known kinds are compared.
-/

set_option autoImplicit false

namespace DiskStaging.Lzma

open Checksum

/-- The check of the bytes seen so far. -/
inductive Check where
  /-- No check, or one of an unknown kind. -/
  | none
  | crc32 (value : UInt32)
  | crc64 (value : UInt64)
  | sha256 (message : Sha256)

namespace Check

/-- The check of no bytes, for the kind that a stream header names. -/
def ofKind : Nat → Check
  | 1 => .crc32 0
  | 4 => .crc64 0
  | 10 => .sha256 {}
  | _ => .none

/-- How many bytes a check of the given kind takes. -/
def sizeOfKind (kind : Nat) : Nat :=
  if kind = 0 then 0 else 4 <<< ((kind - 1) / 3)

/-- The check with one more byte. -/
def absorb (byte : UInt8) : Check → Check
  | .none => .none
  | .crc32 value => .crc32 (Checksum.crc32 value [byte])
  | .crc64 value => .crc64 (Checksum.crc64 value [byte])
  | .sha256 message => .sha256 (message.absorb byte)

/-- The bytes that the check is written as, if it is known. -/
def bytes : Check → Option Bytes
  | .none => Option.none
  | .crc32 value => some (Bytes.ofLittle 4 value.toNat)
  | .crc64 value => some (Bytes.ofLittle 8 value.toNat)
  | .sha256 message => some message.digest

end Check

end DiskStaging.Lzma
