import DiskStaging.Stream.Buffered
import DiskStaging.Stream.Gzip
import DiskStaging.Stream.Xz

/-!
# Unpacking compressed data

An unpacker reads compressed data from below and gives what it decodes to,
through a buffer.
-/

set_option autoImplicit false

namespace DiskStaging

/-- The state of unpacking compressed data. -/
inductive Unpacker where
  | gzip (kept : Bytes) (member : Gzip) (pushed : Option Bytes)
  | xz (kept : Bytes) (row : XzRow)

namespace Unpacker

variable {σ : Type}

/-- Unpacking that has not begun yet. -/
def start : Compression → Unpacker
  | .gzip => .gzip [] {} none
  | .xz => .xz [] {}

/-- The state of gzip data, seen as that of an unpacker. -/
def ofGzip : Bytes × (Gzip × (Option Bytes × σ)) → Unpacker × σ
  | (kept, member, pushed, state) => (.gzip kept member pushed, state)

/-- The state of xz data, seen as that of an unpacker. -/
def ofXz : Bytes × (XzRow × σ) → Unpacker × σ
  | (kept, row, state) => (.xz kept row, state)

/-- Reads what the data decodes to. -/
def read (below : Reader σ) (size : Option Nat) : Act (Unpacker × σ) Bytes :=
  fun (unpacker, state) =>
    match unpacker with
    | .gzip kept member pushed =>
      Ending.inside ofGzip (Buffered.read (Gzip.reader below) size (kept, member, pushed, state))
    | .xz kept row =>
      Ending.inside ofXz (Buffered.read (XzRow.reader below) size (kept, row, state))

/-- A bound on the bytes that can still be given. -/
def left (below : Reader σ) : Unpacker × σ → Nat
  | (.gzip kept member pushed, state) =>
    (Buffered.reader (Gzip.reader below)).left (kept, member, pushed, state)
  | (.xz kept row, state) => (Buffered.reader (XzRow.reader below)).left (kept, row, state)

/-- What compressed data decodes to. -/
def reader (below : Reader σ) : Reader (Unpacker × σ) where
  read := read below
  left := left below
  thrifty size := by
    rintro ⟨⟨kept, member, pushed⟩ | ⟨kept, row⟩, state⟩
    · exact ((Buffered.reader (Gzip.reader below)).thrifty size _).inside
        ofGzip fun _ => rfl
    · exact ((Buffered.reader (XzRow.reader below)).thrifty size _).inside
        ofXz fun _ => rfl

end Unpacker

end DiskStaging
