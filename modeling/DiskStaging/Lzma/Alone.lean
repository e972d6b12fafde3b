import DiskStaging.Bytes
import DiskStaging.Lzma.Decoder

/-!
# The old formats around LZMA data

Two older formats hold a single run of LZMA data. The first one starts with the
properties, the size of the dictionary and the decoded size, and has no magic
bytes. So data counts as being in this format only if its header looks likely:
the dictionary has a usual size, and the decoded size is unknown or moderate.

The second one (lzip) has magic bytes, a version, the size of the dictionary, and
behind the data a check, the decoded size and, from version 1, its own size. Its
data always ends with a marker.
-/

set_option autoImplicit false

namespace DiskStaging.Lzma

open Coding

/-! ## Data behind a bare header -/

/-- Data behind a bare header that has been decoded in part. The bytes of the
header are gathered last byte first. -/
inductive Alone where
  | header (gathered : Bytes)
  | data (decoder : Decoder)
  | broken (why : Fault)

namespace Alone

/-- Whether a dictionary has a usual size: a power of two, or half as much again. -/
def usualDictionary (size : UInt32) : Bool :=
  let bits := size - 1
  let bits := bits ||| (bits >>> 2)
  let bits := bits ||| (bits >>> 3)
  let bits := bits ||| (bits >>> 4)
  let bits := bits ||| (bits >>> 8)
  let bits := bits ||| (bits >>> 16)
  size = 0xFFFFFFFF || bits + 1 = size

/-- The decoded size that eight bytes state; all ones mean that it is unknown. -/
def statedSize (bytes : Bytes) : Option Nat :=
  let size := Bytes.little bytes
  if size = 1 <<< 64 - 1 then none else some size

/-- The header with one more byte of it gathered. -/
def takeHeader (gathered : Bytes) : Alone :=
  let header := gathered.reverse
  match Properties.ofByte? (header.getD 0 0) with
  | none => .broken .unknownFormat
  | some properties =>
    let dictionary := Bytes.little ((header.drop 1).take 4)
    let size := statedSize (header.drop 5)
    if header.length = 5 && !usualDictionary (UInt32.ofNat dictionary) then .broken .unknownFormat
    else if header.length < 13 then .header gathered
    else if size.any (· ≥ 1 <<< 38) then .broken .unknownFormat
    else .data (.start properties dictionary size true)

/-- The next move. -/
def move : Alone → Move Fault Alone
  | .header gathered => .ask fun byte => takeHeader (byte :: gathered)
  | .data decoder => decoder.move.map .data
  | .broken why => .fail why

/-- The credit of the decoder pays for what is put. -/
def credit : Alone → Nat
  | .data decoder => decoder.credit
  | _ => 0

theorem credit_takeHeader_lt (gathered : Bytes) :
    (takeHeader gathered).credit < Decoder.byteCredit := by
  have positive : 0 < Decoder.byteCredit := by unfold Decoder.byteCredit; omega
  unfold takeHeader
  dsimp only
  split
  · exact positive
  · split
    · exact positive
    · split
      · exact positive
      · split
        · exact positive
        · exact Decoder.credit_start_lt ..

theorem sound_move (s : Alone) : s.move.Sound credit Decoder.byteCredit s.credit := by
  cases s with
  | header gathered =>
    intro byte
    rw [show credit (.header gathered) = 0 from rfl, Nat.zero_add]
    exact credit_takeHeader_lt _
  | data decoder =>
    have inner := decoder.sound_move
    simp only [move]
    cases same : decoder.move <;> rw [same] at inner <;> exact inner
  | broken why => trivial

end Alone

/-- Decoding data behind a bare header is a decoding machine. -/
instance : Machine Fault Alone where
  move := Alone.move
  credit := Alone.credit
  gain := Decoder.byteCredit
  sound := Alone.sound_move

end DiskStaging.Lzma
