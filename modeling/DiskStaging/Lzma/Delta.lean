/-!
# Delta coding

Bytes may be stored as their difference to the byte a fixed distance before.
Decoding adds that byte again; bytes before the first one count as 0.
-/

set_option autoImplicit false

namespace DiskStaging.Lzma

/-- The last bytes of a delta coded sequence: one for each place modulo the
distance, and the place of the next byte. -/
structure Delta where
  past : Array UInt8
  place : Nat

namespace Delta

/-- No bytes have been seen. -/
def start (distance : Nat) : Delta := ⟨.replicate distance 0, 0⟩

/-- The byte that a difference stands for. -/
def decode (delta : Delta) (difference : UInt8) : UInt8 × Delta :=
  let byte := difference + delta.past.getD delta.place 0
  (byte, ⟨delta.past.setIfInBounds delta.place byte, (delta.place + 1) % delta.past.size⟩)

end Delta

end DiskStaging.Lzma
