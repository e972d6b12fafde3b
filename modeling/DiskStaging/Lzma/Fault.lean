/-!
# What can be wrong with LZMA data

All formats of the family report the same few faults.
-/

set_option autoImplicit false

namespace DiskStaging.Lzma

/-- What can be wrong with data in one of the LZMA formats. -/
inductive Fault where
  /-- The data is in none of the formats. -/
  | unknownFormat
  /-- The data asks for an option that is not supported. -/
  | unsupported
  /-- The data contradicts its format. -/
  | corrupt
  /-- Reading goes on behind a fault. -/
  | stale
  deriving DecidableEq, Repr

/-- The wording of each fault. -/
def Fault.message : Fault → String
  | .unknownFormat => "Input format not supported by decoder"
  | .unsupported => "Invalid or unsupported options"
  | .corrupt => "Corrupt input data"
  | .stale => "Internal error"

end DiskStaging.Lzma
