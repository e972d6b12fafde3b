/-!
# Bytes and the numbers they spell

A byte string is a list of bytes. Numbers of a fixed width are written in two
orders: the most significant byte first (`big`) or last (`little`).
-/

set_option autoImplicit false

namespace DiskStaging

/-- A byte string. -/
abbrev Bytes := List UInt8

namespace Bytes

/-- The number that the bytes spell, the most significant one first. -/
def big (bytes : Bytes) : Nat :=
  bytes.foldl (fun value byte => value * 256 + byte.toNat) 0

/-- The number that the bytes spell, the least significant one first. -/
def little : Bytes → Nat
  | [] => 0
  | byte :: rest => byte.toNat + 256 * little rest

/-- The lowest `width` bytes of a number, the most significant one first. -/
def ofBig : Nat → Nat → Bytes
  | 0, _ => []
  | width + 1, value => ofBig width (value / 256) ++ [UInt8.ofNat value]

/-- The lowest `width` bytes of a number, the least significant one first. -/
def ofLittle : Nat → Nat → Bytes
  | 0, _ => []
  | width + 1, value => UInt8.ofNat value :: ofLittle width (value / 256)

@[simp] theorem length_ofBig (width value : Nat) : (ofBig width value).length = width := by
  induction width generalizing value with
  | zero => rfl
  | succ width ih => simp [ofBig, ih]

@[simp] theorem length_ofLittle (width value : Nat) : (ofLittle width value).length = width := by
  induction width generalizing value with
  | zero => rfl
  | succ width ih => simp [ofLittle, ih]

/-- One more byte makes numbers wider. -/
theorem wider (width : Nat) : 1 <<< (8 * (width + 1)) = 256 * 1 <<< (8 * width) := by
  rw [Nat.mul_succ, Nat.shiftLeft_add, Nat.shiftLeft_eq _ 8, Nat.mul_comm]

/-- Reading the bytes of a number gives the number modulo its width. -/
theorem little_ofLittle (width value : Nat) :
    little (ofLittle width value) = value % 1 <<< (8 * width) := by
  induction width generalizing value with
  | zero => simp [little, ofLittle, Nat.mod_one]
  | succ width ih =>
    have byte : (UInt8.ofNat value).toNat = value % 256 := UInt8.toNat_ofNat'
    rw [ofLittle, little, ih, byte, wider, Nat.mod_mul]

/-- Bytes that come later count for more. -/
theorem little_append (first second : Bytes) :
    little (first ++ second) = little first + 1 <<< (8 * first.length) * little second := by
  induction first with
  | nil => simp [little]
  | cons byte more ih =>
    rw [List.cons_append, little, ih, little, List.length_cons, wider, Nat.mul_add, Nat.mul_assoc,
      Nat.add_assoc]

end Bytes

end DiskStaging
