/-!
# Adaptive binary range decoding

Every bit of LZMA data is coded against the odds that it is 0, which adapt to
the bits seen so far. The decoder keeps a range and a code inside it: the odds
split the range in two, the code says which part holds the bit, and that part
becomes the new range. When the range is low, both are extended by one byte of
input.

Odds are never certain, so both parts of a range are smaller than the range
(`Range.decide_lt`). This is what bounds the bits that can be decoded between
two bytes of input.
-/

set_option autoImplicit false

namespace DiskStaging.Lzma

/-- The odds that a bit is 0, in units of one in 2048; never certain. -/
structure Odds where
  value : Nat
  pos : 0 < value
  lt : value < 2048

namespace Odds

/-- Nothing is known. -/
def even : Odds := ⟨1024, by decide, by decide⟩

instance : Inhabited Odds := ⟨even⟩

/-- A 0 was seen. -/
def zero (odds : Odds) : Odds where
  value := odds.value + (2048 - odds.value) / 32
  pos := by have := odds.pos; omega
  lt := by have := odds.lt; omega

/-- A 1 was seen. -/
def one (odds : Odds) : Odds where
  value := odds.value - odds.value / 32
  pos := by have := odds.pos; omega
  lt := by have := odds.lt; omega

end Odds

/-- A range and the code inside it. -/
structure Range where
  width : UInt32
  code : UInt32

namespace Range

/-- The whole range, before the first byte of the code is known. -/
def start : Range := ⟨0xFFFFFFFF, 0⟩

/-- Takes one of the first bytes of the code. -/
def fill (range : Range) (byte : UInt8) : Range :=
  ⟨range.width, (range.code <<< 8) ||| byte.toUInt32⟩

/-- Whether a byte is needed before the next bit. -/
def low (range : Range) : Bool := range.width < 0x1000000

/-- Extends a low range by a byte. -/
def extend (range : Range) (byte : UInt8) : Range :=
  ⟨range.width <<< 8, (range.code <<< 8) ||| byte.toUInt32⟩

/-- Decodes a bit against its odds. -/
def decide (range : Range) (odds : Odds) : Range × Odds × Nat :=
  let bound := (range.width >>> 11) * UInt32.ofNat odds.value
  if range.code < bound then (⟨bound, range.code⟩, odds.zero, 0)
  else (⟨range.width - bound, range.code - bound⟩, odds.one, 1)

/-- Decodes a bit that is as likely 0 as 1. -/
def halve (range : Range) : Range × Nat :=
  let half := range.width >>> 1
  let code := range.code - half
  if code < 0x80000000 then (⟨half, code⟩, 1) else (⟨half, range.code⟩, 0)

/-- The lower part of a range that is not low is neither empty nor the whole. -/
theorem bound_bounds (width : UInt32) (odds : Odds) (high : 0x1000000 ≤ width.toNat) :
    0 < ((width >>> 11) * UInt32.ofNat odds.value).toNat ∧
      ((width >>> 11) * UInt32.ofNat odds.value).toNat < width.toNat := by
  have positive := odds.pos
  have small := odds.lt
  have size := width.toNat_lt
  have shifted : (width >>> 11).toNat = width.toNat / 2048 := by
    rw [UInt32.toNat_shiftRight]
    simp [Nat.shiftRight_eq_div_pow]
  have value : (UInt32.ofNat odds.value).toNat = odds.value := by
    rw [UInt32.toNat_ofNat']
    exact Nat.mod_eq_of_lt (by omega)
  have below : width.toNat / 2048 * odds.value < width.toNat := by
    calc width.toNat / 2048 * odds.value
        < width.toNat / 2048 * 2048 := Nat.mul_lt_mul_of_pos_left small (by omega)
      _ ≤ width.toNat := Nat.div_mul_le_self _ _
  have product : ((width >>> 11) * UInt32.ofNat odds.value).toNat =
      width.toNat / 2048 * odds.value := by
    rw [UInt32.toNat_mul, shifted, value]
    exact Nat.mod_eq_of_lt (by omega)
  rw [product]
  exact ⟨Nat.mul_pos (by omega) positive, below⟩

theorem high_of_not_low {range : Range} (high : range.low = false) :
    0x1000000 ≤ range.width.toNat := by
  simpa [low, UInt32.lt_iff_toNat_lt] using high

/-- Every bit makes the range smaller. -/
theorem decide_lt {range : Range} (odds : Odds) (high : range.low = false) :
    (range.decide odds).1.width.toNat < range.width.toNat := by
  have ⟨positive, below⟩ := bound_bounds range.width odds (high_of_not_low high)
  simp only [decide]
  split
  · exact below
  · have fits : (range.width >>> 11) * UInt32.ofNat odds.value ≤ range.width :=
      UInt32.le_iff_toNat_le.mpr (by omega)
    rw [UInt32.toNat_sub_of_le _ _ fits]
    omega

theorem halve_lt {range : Range} (high : range.low = false) :
    range.halve.1.width.toNat < range.width.toNat := by
  have := high_of_not_low high
  have half : (range.width >>> 1).toNat = range.width.toNat / 2 := by
    rw [UInt32.toNat_shiftRight]
    simp [Nat.shiftRight_eq_div_pow]
  simp only [halve]
  split <;> (dsimp only; omega)

end Range

end DiskStaging.Lzma
