import DiskStaging.Bytes

/-!
# Disk images by their header

The leading bytes of an object tell what it is: compressed data, an image in one
of the container formats, or a raw image. A container format is recognised by
magic bytes; for two of them the header behind the magic is checked as well.
Anything that is not empty and has no known magic is a raw image.
-/

set_option autoImplicit false

namespace DiskStaging

/-- The formats of disk images. -/
inductive ImageFormat where
  | raw
  | qcow2
  | vmdk
  | vdi
  | vhd
  | vhdx
  deriving DecidableEq, Repr, Inhabited

/-- The name of a format. -/
def ImageFormat.name : ImageFormat → String
  | .raw => "raw"
  | .qcow2 => "qcow2"
  | .vmdk => "vmdk"
  | .vdi => "vdi"
  | .vhd => "vhd"
  | .vhdx => "vhdx"

/-- Whether images in this format have to be staged before they are converted. -/
def ImageFormat.needsScratch (format : ImageFormat) : Bool := format ≠ .raw

/-- How an object may be compressed. -/
inductive Compression where
  | gzip
  | xz
  deriving DecidableEq, Repr, Inhabited

/-- The name of a compression. -/
def Compression.name : Compression → String
  | .gzip => "gz"
  | .xz => "xz"

/-- What is wrong with the header of an image. -/
inductive HeaderFault where
  | empty
  | qcow2Truncated (size : Nat)
  | qcow2Version (version : Nat)
  | qcow2ClusterBits (bits : Nat)
  | vmdkTruncated
  | vmdkVersion (version : Nat)
  deriving DecidableEq, Repr

/-- The size of the smallest qcow2 header. -/
def qcow2HeaderSize : Nat := 72

/-- The wording of each fault. -/
def HeaderFault.message : HeaderFault → String
  | .empty => "Image is empty"
  | .qcow2Truncated size =>
    "Truncated qcow2 header: " ++ toString size ++ " of " ++ toString qcow2HeaderSize ++ " bytes"
  | .qcow2Version version => "Unsupported qcow2 version: " ++ toString version
  | .qcow2ClusterBits bits => "Invalid qcow2 cluster bits: " ++ toString bits
  | .vmdkTruncated => "Truncated vmdk header"
  | .vmdkVersion version => "Unsupported vmdk version: " ++ toString version

namespace Image

/-- The bytes of the given number from an offset on, or fewer at the end. -/
def field (header : Bytes) (offset size : Nat) : Bytes := (header.drop offset).take size

/-- The magic bytes of each compression. -/
def compressionMagic : Compression → Bytes
  | .gzip => [0x1F, 0x8B, 0x08]
  | .xz => [0xFD, 0x37, 0x7A, 0x58, 0x5A, 0x00]

/-- The compression of data with the given leading bytes, if any. -/
def compression? (header : Bytes) : Option Compression :=
  [Compression.gzip, .xz].find? fun compression =>
    (compressionMagic compression).isPrefixOf header

/-- The container formats in the order in which they are looked for, with the
offset and the bytes of their magic. -/
def magics : List (ImageFormat × Nat × Bytes) := [
  (.qcow2, 0, [0x51, 0x46, 0x49, 0xFB]),
  (.vmdk, 0, [0x4B, 0x44, 0x4D, 0x56]),
  (.vhdx, 0, [0x76, 0x68, 0x64, 0x78, 0x66, 0x69, 0x6C, 0x65]),
  (.vhd, 0, [0x63, 0x6F, 0x6E, 0x65, 0x63, 0x74, 0x69, 0x78]),
  (.vdi, 0x40, [0x7F, 0x10, 0xDA, 0xBE])]

/-- Checks the version and the cluster size of a qcow2 header. -/
def checkQcow2 (header : Bytes) : Except HeaderFault Unit :=
  let version := (field header 4 4).big
  let clusterBits := (field header 20 4).big
  if header.length < qcow2HeaderSize then .error (.qcow2Truncated header.length)
  else if version ≠ 2 ∧ version ≠ 3 then .error (.qcow2Version version)
  else if clusterBits < 9 ∨ 21 < clusterBits then .error (.qcow2ClusterBits clusterBits)
  else .ok ()

/-- Checks the version of a vmdk header. -/
def checkVmdk (header : Bytes) : Except HeaderFault Unit :=
  let version := (field header 4 4).little
  if header.length < 8 then .error .vmdkTruncated
  else if version ≠ 1 ∧ version ≠ 2 ∧ version ≠ 3 then .error (.vmdkVersion version)
  else .ok ()

/-- Checks the header of an image whose magic was found. -/
def check (header : Bytes) : ImageFormat → Except HeaderFault Unit
  | .qcow2 => checkQcow2 header
  | .vmdk => checkVmdk header
  | _ => .ok ()

/-- The format of an image with the given leading bytes. -/
def format (header : Bytes) : Except HeaderFault ImageFormat :=
  if header.isEmpty then .error .empty
  else
    match magics.find? fun (_, offset, magic) => field header offset magic.length = magic with
    | none => .ok .raw
    | some (found, _, _) => (check header found).map fun () => found

end Image

end DiskStaging
