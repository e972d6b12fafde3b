import DiskStaging.Lzma.Alone
import DiskStaging.Lzma.Lzip
import DiskStaging.Lzma.Xz

/-!
# Data in any of the LZMA formats

The first byte tells the formats apart: an xz stream and an lzip member start
with bytes that cannot start data behind a bare header.
-/

set_option autoImplicit false

namespace DiskStaging.Lzma

open Coding

/-- Data in one of the formats that has been decoded in part. -/
inductive AnyFormat where
  /-- Nothing has been taken yet. -/
  | start
  | xz (stream : Xz)
  | lzip (stream : Lzip)
  | alone (stream : Alone)

namespace AnyFormat

/-- The format that data with the given first byte is in. -/
def ofFirst (byte : UInt8) : AnyFormat :=
  if byte = 0xFD then .xz (Xz.takeHeader 12 [byte])
  else if byte = 0x4C then .lzip (Lzip.takeHeader [byte])
  else .alone (Alone.takeHeader [byte])

/-- The next move. -/
def move : AnyFormat → Move Fault AnyFormat
  | .start => .ask ofFirst
  | .xz stream => stream.move.map .xz
  | .lzip stream => stream.move.map .lzip
  | .alone stream => stream.move.map .alone

/-- The credit of the format. -/
def credit : AnyFormat → Nat
  | .start => 0
  | .xz stream => stream.credit
  | .lzip stream => stream.credit
  | .alone stream => stream.credit

/-- What one byte of input adds to the credit at most. -/
def byteCredit : Nat := Xz.byteCredit + Lzip.byteCredit + Decoder.byteCredit

theorem credit_ofFirst_lt (byte : UInt8) : (ofFirst byte).credit < byteCredit := by
  have positive := Xz.byteCredit_pos
  have lzip := Lzip.credit_takeHeader_lt [byte]
  have alone := Alone.credit_takeHeader_lt [byte]
  unfold ofFirst byteCredit
  split
  · simp only [credit, Xz.credit_takeHeader]; omega
  · split <;> simp only [credit] <;> omega

/-- A machine keeps its soundness as one of several. -/
theorem sound_map {σ : Type} {f : σ → AnyFormat} {cost : σ → Nat} {gain paid : Nat}
    (same : ∀ state, (f state).credit = cost state) (less : gain ≤ byteCredit)
    {move : Move Fault σ} (inner : move.Sound cost gain paid) :
    (move.map f).Sound credit byteCredit paid := by
  cases move <;> simp only [Move.map, Move.Sound, same] at inner ⊢
  · exact fun byte => Nat.lt_of_lt_of_le (inner byte) (Nat.add_le_add_left less _)
  all_goals exact inner

theorem sound_move (s : AnyFormat) : s.move.Sound credit byteCredit s.credit := by
  cases s with
  | start => exact fun byte => (Nat.zero_add byteCredit).symm ▸ credit_ofFirst_lt byte
  | xz stream => exact sound_map (fun _ => rfl) (by unfold byteCredit; omega) stream.sound_move
  | lzip stream => exact sound_map (fun _ => rfl) (by unfold byteCredit; omega) stream.sound_move
  | alone stream => exact sound_map (fun _ => rfl) (by unfold byteCredit; omega) stream.sound_move

end AnyFormat

/-- Decoding data in any format is a decoding machine. -/
instance : Machine Fault AnyFormat where
  move := AnyFormat.move
  credit := AnyFormat.credit
  gain := AnyFormat.byteCredit
  sound := AnyFormat.sound_move

end DiskStaging.Lzma
