import DiskStaging.Bytes
import DiskStaging.Checksum.Crc
import DiskStaging.Lzma.Decoder

/-!
# Lzip members

An lzip member is LZMA data with an end marker, between a header of magic bytes,
a version and the size of the dictionary, and a footer with a check, the decoded
size and, from version 1 on, the size of the member.
-/

set_option autoImplicit false

namespace DiskStaging.Lzma

open Coding

/-- The sizes and the check of a member so far. -/
structure LzipFrame where
  version : UInt8
  packed : Nat
  unpacked : Nat
  check : UInt32

/-- An lzip member that has been decoded in part. Bytes are gathered last byte first. -/
inductive Lzip where
  | header (gathered : Bytes)
  | data (frame : LzipFrame) (decoder : Decoder)
  | footer (frame : LzipFrame) (gathered : Bytes)
  | ended
  | broken (why : Fault)

namespace Lzip

/-- The bytes that every member starts with. -/
def magic : Bytes := [0x4C, 0x5A, 0x49, 0x50]

/-- The size of a dictionary that a byte stands for: a power of two, less a
number of sixteenths of it. -/
def dictionarySize? (byte : UInt8) : Option Nat :=
  let power := byte.toNat % 32
  let sixteenths := byte.toNat / 32
  if power < 12 || power > 29 || (power = 12 && sixteenths > 0) then none
  else some (1 <<< power - sixteenths <<< (power - 4))

/-- The header with one more byte of it gathered. -/
def takeHeader (gathered : Bytes) : Lzip :=
  match gathered with
  | [] | [_] | [_, _] | [_, _, _] | [_, _, _, _] =>
    if gathered.reverse = magic.take gathered.length then .header gathered
    else .broken .unknownFormat
  | [version, _, _, _, _] => if version > 1 then .broken .unsupported else .header gathered
  | dictionary :: version :: _ =>
    match dictionarySize? dictionary with
    | none => .broken .corrupt
    | some size => .data ⟨version, 6, 0, 0⟩ (.start ⟨3, 0, 2⟩ size none true)

/-- The footer with one more byte of it gathered. -/
def takeFooter (frame : LzipFrame) (gathered : Bytes) : Lzip :=
  let size := if frame.version = 0 then 12 else 20
  if gathered.length < size then .footer frame gathered
  else
    let footer := gathered.reverse
    let stated := Bytes.ofLittle 4 frame.check.toNat ++ Bytes.ofLittle 8 frame.unpacked ++
      (if frame.version = 0 then [] else Bytes.ofLittle 8 (frame.packed + size))
    if footer = stated then .ended else .broken .corrupt

/-- The next move. -/
def move : Lzip → Move Fault Lzip
  | .header gathered => .ask fun byte => takeHeader (byte :: gathered)
  | .data frame decoder =>
    match decoder.move with
    | .ask next => .ask fun byte => .data { frame with packed := frame.packed + 1 } (next byte)
    | .put byte next => .put byte (.data
        { frame with
          unpacked := frame.unpacked + 1, check := Checksum.crc32 frame.check [byte] } next)
    | .think next => .think (.data frame next)
    | .pause next => .pause (.data frame next)
    | .stop _ => .think (.footer frame [])
    | .fail why => .fail why
  | .footer frame gathered => .ask fun byte => takeFooter frame (byte :: gathered)
  | .ended => .stop .ended
  | .broken why => .fail why

/-- The credit of the decoder pays for what is put. -/
def credit : Lzip → Nat
  | .data _ decoder => decoder.credit + 1
  | _ => 0

/-- What one byte of input adds to the credit at most. -/
@[irreducible] def byteCredit : Nat := Decoder.byteCredit + 1

theorem credit_takeHeader_lt (gathered : Bytes) : (takeHeader gathered).credit < byteCredit := by
  have positive : 0 < byteCredit := by unfold byteCredit; omega
  unfold takeHeader
  repeat' split
  all_goals try exact positive
  have := Decoder.credit_start_lt ⟨3, 0, 2⟩ ‹Nat› none true
  simp only [credit, byteCredit]
  omega

theorem credit_takeFooter (frame : LzipFrame) (gathered : Bytes) :
    (takeFooter frame gathered).credit = 0 := by
  unfold takeFooter
  dsimp only
  repeat' split
  all_goals rfl

theorem sound_move (s : Lzip) : s.move.Sound credit byteCredit s.credit := by
  cases s with
  | header gathered =>
    intro byte
    rw [show credit (.header gathered) = 0 from rfl, Nat.zero_add]
    exact credit_takeHeader_lt _
  | data frame decoder =>
    have inner := decoder.sound_move
    simp only [move]
    split <;> rename_i same <;> simp only [same, Decoder.Sound, Move.Sound] at inner
    · intro byte
      have := inner byte
      simp only [credit, byteCredit]
      omega
    · simp only [Move.Sound, credit]; omega
    · simp only [Move.Sound, credit]; omega
    · simp only [Move.Sound, credit]; omega
    · simp [Move.Sound, credit]
    · trivial
  | footer frame gathered =>
    have positive : 0 < byteCredit := by unfold byteCredit; omega
    intro byte
    rw [credit_takeFooter]
    exact Nat.add_pos_right _ positive
  | ended => exact Nat.le_refl _
  | broken why => trivial

end Lzip

/-- Decoding an lzip member is a decoding machine. -/
instance : Machine Fault Lzip where
  move := Lzip.move
  credit := Lzip.credit
  gain := Lzip.byteCredit
  sound := Lzip.sound_move

end DiskStaging.Lzma
