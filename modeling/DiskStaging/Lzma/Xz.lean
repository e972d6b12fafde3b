import DiskStaging.Lzma.Block
import DiskStaging.Lzma.Index

/-!
# Decoding xz streams

An xz stream is a header, any number of blocks, an index and a footer. A byte of
zero where a block could start is the start of the index. The parts are decoded
one after the other by one machine; only blocks put bytes.
-/

set_option autoImplicit false

namespace DiskStaging.Lzma

open Coding

/-- An xz stream that has been decoded in part, by what comes next. Bytes of
headers are gathered last byte first, `missing` counts those still to come, and
`kind` is the kind of check that the stream uses. -/
inductive Xz where
  | header (missing : Nat) (gathered : Bytes)
  | body (kind : Nat) (decoded : List Sizes)
  | blockHeader (kind : Nat) (decoded : List Sizes) (missing : Nat) (gathered : Bytes)
  | block (kind : Nat) (decoded : List Sizes) (block : Block)
  | index (kind : Nat) (index : Index)
  | footer (kind indexSize missing : Nat) (gathered : Bytes)
  | ended
  | broken (why : Fault)

namespace Xz

/-- Nothing has been taken yet. -/
def start : Xz := .header 12 []

/-- A byte of the stream header has been taken. -/
def takeHeader (missing : Nat) (gathered : Bytes) : Xz :=
  if missing > 1 then .header (missing - 1) gathered
  else match readStreamHeader gathered.reverse with
    | .ok kind => .body kind []
    | .error why => .broken why

/-- A byte has been taken where a block or the index starts. -/
def takeFirst (kind : Nat) (decoded : List Sizes) (byte : UInt8) : Xz :=
  if byte = 0 then .index kind (.start decoded.reverse)
  else .blockHeader kind decoded ((byte.toNat + 1) * 4 - 1) [byte]

/-- A byte of a block header has been taken. -/
def takeBlockHeader (kind : Nat) (decoded : List Sizes) (missing : Nat) (gathered : Bytes) : Xz :=
  if missing > 1 then .blockHeader kind decoded (missing - 1) gathered
  else match readBlockHeader gathered.reverse (Check.sizeOfKind kind) with
    | .ok stated => .block kind decoded (.start stated kind)
    | .error why => .broken why

/-- A byte of the index has been taken. -/
def takeIndex (kind : Nat) (listing : Index) (byte : UInt8) : Xz :=
  match listing.step byte with
  | .more listing => .index kind listing
  | .complete size => .footer kind size 12 []
  | .broken => .broken .corrupt

/-- A byte of the footer has been taken. -/
def takeFooter (kind indexSize missing : Nat) (gathered : Bytes) : Xz :=
  if missing > 1 then .footer kind indexSize (missing - 1) gathered
  else match readStreamFooter gathered.reverse indexSize kind with
    | .ok () => .ended
    | .error why => .broken why

/-- The next move. -/
def move : Xz → Move Fault Xz
  | .header missing gathered => .ask fun byte => takeHeader missing (byte :: gathered)
  | .body kind decoded => .ask fun byte => takeFirst kind decoded byte
  | .blockHeader kind decoded missing gathered =>
    .ask fun byte => takeBlockHeader kind decoded missing (byte :: gathered)
  | .block kind decoded current =>
    match current.move with
    | .stop last => .think (.body kind (last.sizes :: decoded))
    | move => move.map (.block kind decoded)
  | .index kind listing => .ask fun byte => takeIndex kind listing byte
  | .footer kind indexSize missing gathered =>
    .ask fun byte => takeFooter kind indexSize missing (byte :: gathered)
  | .ended => .stop .ended
  | .broken why => .fail why

/-! ## Credit -/

/-- The credit of a block pays for what the stream puts. -/
def credit : Xz → Nat
  | .block _ _ current => current.credit + 1
  | _ => 0

/-- What one byte of input adds to the credit at most. -/
@[irreducible] def byteCredit : Nat := Block.byteCredit + 4

theorem byteCredit_pos : 0 < byteCredit := by unfold byteCredit; omega

theorem credit_takeBlockHeader_lt (kind : Nat) (decoded : List Sizes) (missing : Nat)
    (gathered : Bytes) : (takeBlockHeader kind decoded missing gathered).credit < byteCredit := by
  unfold takeBlockHeader
  split
  · exact byteCredit_pos
  · split
    · rename_i stated _
      have := Block.credit_start_lt stated kind
      simp only [credit, byteCredit]
      omega
    · exact byteCredit_pos

theorem credit_takeHeader (missing : Nat) (gathered : Bytes) :
    (takeHeader missing gathered).credit = 0 := by
  unfold takeHeader
  split
  · rfl
  · split <;> rfl

theorem credit_takeFirst (kind : Nat) (decoded : List Sizes) (byte : UInt8) :
    (takeFirst kind decoded byte).credit = 0 := by
  unfold takeFirst
  split <;> rfl

theorem credit_takeIndex (kind : Nat) (listing : Index) (byte : UInt8) :
    (takeIndex kind listing byte).credit = 0 := by
  unfold takeIndex
  split <;> rfl

theorem credit_takeFooter (kind indexSize missing : Nat) (gathered : Bytes) :
    (takeFooter kind indexSize missing gathered).credit = 0 := by
  unfold takeFooter
  split
  · rfl
  · split <;> rfl

theorem sound_move (s : Xz) : s.move.Sound credit byteCredit s.credit := by
  have free {next : Xz} (zero : next.credit = 0) : next.credit < s.credit + byteCredit := by
    have := byteCredit_pos
    omega
  cases s with
  | header missing gathered => exact fun byte => free (credit_takeHeader _ _)
  | body kind decoded => exact fun byte => free (credit_takeFirst _ _ _)
  | blockHeader kind decoded missing gathered =>
    intro byte
    rw [show credit (.blockHeader kind decoded missing gathered) = 0 from rfl, Nat.zero_add]
    exact credit_takeBlockHeader_lt ..
  | block kind decoded current =>
    have inner := current.sound_move
    simp only [move, credit]
    split
    · exact Nat.succ_pos _
    · cases same : current.move <;> simp only [same, Move.Sound, Move.map] at inner ⊢
      · intro byte
        have := inner byte
        simp only [credit, byteCredit]
        omega
      all_goals simp only [credit]; omega
  | index kind listing => exact fun byte => free (credit_takeIndex _ _ _)
  | footer kind indexSize missing gathered => exact fun byte => free (credit_takeFooter _ _ _ _)
  | ended => exact Nat.le_refl _
  | broken why => trivial

end Xz

/-- Decoding an xz stream is a decoding machine. -/
instance : Machine Fault Xz where
  move := Xz.move
  credit := Xz.credit
  gain := Xz.byteCredit
  sound := Xz.sound_move

end DiskStaging.Lzma
