import DiskStaging.Bytes
import DiskStaging.Checksum.Crc
import DiskStaging.Lzma.Fault
import DiskStaging.Lzma.Stage

/-!
# Headers of xz streams and blocks

An xz stream is framed by a header and a footer of twelve bytes each, and every
block starts with a header that states the filters its data went through. Sizes
are written in groups of seven bits, the lowest first, in the shortest way.

When several things are wrong with a header, the first check in the order of the
definitions below decides what is reported.
-/

set_option autoImplicit false

namespace DiskStaging.Lzma

/-! ## Numbers of variable length -/

/-- A number that is being read: its value and the bytes read so far. -/
structure Varint where
  value : Nat
  size : Nat

namespace Varint

def start : Varint := ⟨0, 0⟩

/-- What one more byte leads to: the number goes on, is complete, or is not
written as it should be. -/
inductive Found where
  | more (number : Varint)
  | complete (value : Nat)
  | broken

/-- Reads one more byte. No number has more than nine bytes, and a last byte of
zero would be superfluous. -/
def step (number : Varint) (byte : UInt8) : Found :=
  let value := number.value + (byte.toNat % 128) <<< (7 * number.size)
  if byte < 128 then
    if byte = 0 && number.size > 0 then .broken else .complete value
  else if number.size + 1 = 9 then .broken
  else .more ⟨value, number.size + 1⟩

/-- Reads a number off the front of the given bytes. -/
def read? (number : Varint) : Bytes → Option (Nat × Bytes)
  | [] => none
  | byte :: rest =>
    match number.step byte with
    | .more number => number.read? rest
    | .complete value => some (value, rest)
    | .broken => none

/-- How many bytes a number is written in. -/
def width (value : Nat) : Nat :=
  if value < 128 then 1 else width (value / 128) + 1

end Varint

/-! ## Stream header and footer -/

/-- The bytes that every stream starts with. -/
def streamMagic : Bytes := [0xFD, 0x37, 0x7A, 0x58, 0x5A, 0x00]

/-- The bytes that every stream ends with. -/
def footerMagic : Bytes := [0x59, 0x5A]

/-- The kind of check that the two flag bytes name. -/
def checkKind (flags : Bytes) : Except Fault Nat :=
  let low := flags.getD 1 0
  if flags.getD 0 0 ≠ 0 || low ≥ 16 then .error .unsupported else .ok low.toNat

/-- Whether the bytes are the check of the content. -/
def checked (content check : Bytes) : Bool :=
  (Checksum.crc32 0 content).toNat = Bytes.little check

/-- The kind of check that a stream header names. -/
def readStreamHeader (header : Bytes) : Except Fault Nat :=
  let flags := (header.drop 6).take 2
  if header.take 6 ≠ streamMagic then .error .unknownFormat
  else if !checked flags (header.drop 8) then .error .corrupt
  else checkKind flags

/-- Checks a stream footer against the size of the index and the kind of check
that the header names. -/
def readStreamFooter (footer : Bytes) (indexSize kind : Nat) : Except Fault Unit :=
  let content := (footer.drop 4).take 6
  if footer.drop 10 ≠ footerMagic then .error .corrupt
  else if !checked content (footer.take 4) then .error .corrupt
  else do
    let footerKind ← checkKind (content.drop 4)
    if (Bytes.little (content.take 4) + 1) * 4 ≠ indexSize || footerKind ≠ kind then
      .error .corrupt

/-! ## Block headers -/

/-- How the data of a block is packed: the filters it went through, the one to undo
first standing first, and the size of the dictionary of its chunks. -/
structure Packing where
  filters : List Filter
  dictionary : Nat

/-- What a block header states. -/
structure BlockHeader where
  /-- The size of the header itself. -/
  size : Nat
  packed : Option Nat
  unpacked : Option Nat
  packing : Packing

/-- One step of the packing as a header states it. -/
inductive PackingStep where
  | filter (filter : Filter)
  | chunks (dictionary : Nat)

/-- The size of a dictionary that a byte stands for. -/
def dictionarySize (bits : Nat) : Nat :=
  if bits = 40 then 1 <<< 32 - 1 else (2 + bits % 2) <<< (bits / 2 + 11)

/-- The instruction set that the number of a step stands for. -/
def InstructionSet.ofNumber? : Nat → Option InstructionSet
  | 0x04 => some .x86
  | 0x05 => some .powerPC
  | 0x06 => some .itanium
  | 0x07 => some .arm
  | 0x08 => some .thumb
  | 0x09 => some .sparc
  | 0x0A => some .arm64
  | _ => none

/-- A step by its number and its properties. -/
def PackingStep.ofProperties (number : Nat) (properties : Bytes) : Except Fault PackingStep :=
  match number, properties with
  | 0x03, [distance] => .ok (.filter (.delta (distance.toNat + 1)))
  | 0x21, [bits] =>
    if bits > 40 then .error .unsupported else .ok (.chunks (dictionarySize bits.toNat))
  | _, _ =>
    match InstructionSet.ofNumber? number with
    | none => .error .unsupported
    | some set =>
      if properties.length = 0 || properties.length = 4 then
        .ok (.filter (.branch set (Bytes.little properties)))
      else .error .unsupported

/-- Reads that many steps off the front of the given bytes. -/
def readSteps : Nat → Bytes → Except Fault (List PackingStep × Bytes)
  | 0, bytes => .ok ([], bytes)
  | count + 1, bytes =>
    match Varint.start.read? bytes with
    | none => .error .corrupt
    | some (number, bytes) =>
      if number ≥ 1 <<< 62 then .error .corrupt
      else match Varint.start.read? bytes with
        | none => .error .corrupt
        | some (size, bytes) =>
          if bytes.length < size then .error .corrupt
          else do
            let step ← PackingStep.ofProperties number (bytes.take size)
            let (steps, bytes) ← readSteps count (bytes.drop size)
            .ok (step :: steps, bytes)

/-- The packing in the given steps: the chunks come last, and only there, and every
filter can be undone. -/
def Packing.ofSteps : List PackingStep → Option Packing
  | [.chunks dictionary] => some ⟨[], dictionary⟩
  | .filter filter :: rest =>
    if filter.isUsable then
      (Packing.ofSteps rest).map fun packing =>
        ⟨packing.filters ++ [filter], packing.dictionary⟩
    else none
  | _ => none

/-- Reads a size that a header states if the flag is set. -/
def readSize (stated : Bool) (bytes : Bytes) : Except Fault (Option Nat × Bytes) :=
  if stated then
    match Varint.start.read? bytes with
    | none => .error .corrupt
    | some (value, bytes) => .ok (some value, bytes)
  else .ok (none, bytes)

/-- The greatest size that any part of a stream may have. -/
def greatestSize : Nat := 1 <<< 63 - 1

/-- Reads a block header, given with its leading size byte and its check. -/
def readBlockHeader (header : Bytes) (checkSize : Nat) : Except Fault BlockHeader :=
  let size := header.length
  let content := header.take (size - 4)
  let flags := (header.getD 1 0).toNat
  if !checked content (header.drop (size - 4)) then .error .corrupt
  else if flags / 4 % 16 ≠ 0 then .error .unsupported
  else do
    let (packed, bytes) ← readSize (flags / 64 % 2 = 1) (content.drop 2)
    if packed.any fun packed =>
        packed = 0 || size + packed + checkSize > greatestSize then
      .error .corrupt
    let (unpacked, bytes) ← readSize (flags / 128 = 1) bytes
    let (steps, padding) ← readSteps (flags % 4 + 1) bytes
    if padding.any (· ≠ 0) then .error .unsupported
    match Packing.ofSteps steps with
    | none => .error .unsupported
    | some packing => .ok ⟨size, packed, unpacked, packing⟩

end DiskStaging.Lzma
