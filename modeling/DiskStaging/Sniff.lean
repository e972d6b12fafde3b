import DiskStaging.Stream.Content

/-!
# Classifying content

The leading bytes of some content tell whether it is compressed. If it is, it is
unpacked once, and what comes out is classified as an image; it is not looked at
as compressed data again. The bytes that were looked at stay in the content.
-/

set_option autoImplicit false

namespace DiskStaging

/-- How many leading bytes are looked at if nothing else is asked for. -/
def sniffSize : Int := 512

/-- What content turned out to be. -/
structure Sniffed where
  format : ImageFormat
  compression : Option Compression
  deriving DecidableEq, Repr

/-- The kinds of faults that show that the header of an image cannot be read. -/
def headerKinds : List Kind := [.io, .value, .endOfData, .xzData, .deflateData]

/-- What looking at the header reports when it meets a fault. -/
def headerFault (fault : Fault) : Fault :=
  if headerKinds.any fault.isA then .unreadableHeader fault else fault

/-- Shows the leading bytes of content. -/
def header (size : Int) : Act Content Bytes := fun content =>
  match Content.peek size content with
  | .error fault content => .error (headerFault fault) content
  | ending => ending

/-- Classifies an image with the given leading bytes. -/
def classify (compression : Option Compression) (leading : Bytes) : Act Content Sniffed :=
  match Image.format leading with
  | .error why => throw (.header why)
  | .ok format => pure ⟨format, compression⟩

/-- Classifies content, and unpacks it if it is compressed. -/
def sniff (size : Int) : Act Content Sniffed := do
  let leading ← header size
  match Image.compression? leading with
  | none => classify none leading
  | some compression =>
    Content.unpack compression
    classify (some compression) (← header size)

end DiskStaging
