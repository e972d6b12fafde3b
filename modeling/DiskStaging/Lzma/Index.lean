import DiskStaging.Lzma.Header

/-!
# The index of an xz stream

Behind its blocks, a stream lists their sizes: the number of blocks, for each of
them the size without padding and the size of its content, zero bytes up to a
multiple of four, and a check of all this. Reading the index compares it with
the blocks that were decoded.
-/

set_option autoImplicit false

namespace DiskStaging.Lzma

/-- The size of a block without padding and the size of its content. -/
abbrev Sizes := Nat × Nat

/-- Which part of an index comes next. -/
inductive IndexPart where
  /-- The number of blocks. -/
  | count (number : Varint)
  /-- The size without padding of a block; so many blocks follow it. -/
  | unpadded (more : Nat) (number : Varint)
  /-- The size of the content of a block. -/
  | unpacked (more unpadded : Nat) (number : Varint)
  /-- Zero bytes, and then the check. -/
  | padding (left : Nat)
  /-- The rest of the check. -/
  | check (expected : Bytes)

/-- An index that has been read in part: the blocks that were decoded, those
that were listed so far, and the check and the number of the bytes so far. -/
structure Index where
  decoded : List Sizes
  listed : List Sizes
  check : UInt32
  size : Nat
  part : IndexPart

namespace Index

/-- The index behind the given blocks, with its leading zero byte read. -/
def start (decoded : List Sizes) : Index :=
  ⟨decoded, [], Checksum.crc32 0 [0], 1, .count .start⟩

/-- The sizes of all blocks with padding, of all contents, and of all entries. -/
def totals (blocks : List Sizes) : Nat × Nat × Nat :=
  blocks.foldl (fun (packed, contents, entries) (unpadded, unpacked) =>
    (packed + (unpadded + 3) / 4 * 4, contents + unpacked,
      entries + (Varint.width unpadded + Varint.width unpacked))) (0, 0, 0)

/-- Whether what is listed so far does not go beyond the decoded blocks. -/
def within (index : Index) : Bool :=
  let (packed, unpacked, entries) := totals index.listed
  let (allPacked, allUnpacked, allEntries) := totals index.decoded
  packed ≤ allPacked && unpacked ≤ allUnpacked && entries ≤ allEntries

/-- What one more byte leads to. -/
inductive Found where
  | more (index : Index)
  /-- The index is complete; it has that many bytes. -/
  | complete (size : Nat)
  | broken

/-- Goes on behind the last entry. -/
def endEntries (index : Index) : Index :=
  { index with part := .padding ((4 - index.size % 4) % 4) }

/-- Compares a byte of the check. -/
def compare (index : Index) (byte : UInt8) : Bytes → Found
  | [] => .broken
  | expected :: rest =>
    if byte ≠ expected then .broken
    else if rest.isEmpty then .complete index.size
    else .more { index with part := .check rest }

/-- Reads one more byte. -/
def step (index : Index) (byte : UInt8) : Found :=
  let before := index.check
  let index := { index with check := Checksum.crc32 before [byte], size := index.size + 1 }
  match index.part with
  | .count number =>
    match number.step byte with
    | .broken => .broken
    | .more number => .more { index with part := .count number }
    | .complete count =>
      if count ≠ index.decoded.length then .broken
      else match count with
        | 0 => .more index.endEntries
        | more + 1 => .more { index with part := .unpadded more .start }
  | .unpadded more number =>
    match number.step byte with
    | .broken => .broken
    | .more number => .more { index with part := .unpadded more number }
    | .complete unpadded =>
      if unpadded < 5 || unpadded > greatestSize / 4 * 4 then .broken
      else .more { index with part := .unpacked more unpadded .start }
  | .unpacked more unpadded number =>
    match number.step byte with
    | .broken => .broken
    | .more number => .more { index with part := .unpacked more unpadded number }
    | .complete unpacked =>
      let index := { index with listed := index.listed ++ [(unpadded, unpacked)] }
      if !index.within then .broken
      else match more with
        | 0 => .more index.endEntries
        | more + 1 => .more { index with part := .unpadded more .start }
  | .padding 0 =>
    if index.listed ≠ index.decoded then .broken
    else index.compare byte (Bytes.ofLittle 4 before.toNat)
  | .padding (left + 1) =>
    if byte = 0 then .more { index with part := .padding left } else .broken
  | .check expected => index.compare byte expected

end Index

end DiskStaging.Lzma
