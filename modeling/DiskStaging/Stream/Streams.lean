import DiskStaging.Stream.Lookahead
import DiskStaging.Stream.Source
import DiskStaging.Stream.Unpacker

/-!
# Streams over one source

The root stream looks ahead into a source. Further streams are opened over older
ones and give what the bytes of those decode to. Several streams may be open over
the same one; what one of them takes, the others do not see any more.

Closing a stream closes the one below it, down to the source. A closed stream
cannot be read, and closing it again does nothing.
-/

set_option autoImplicit false

namespace DiskStaging

/-- A root stream and the streams that were opened over it, so many of them. -/
inductive Streams : Nat → Type where
  | root (source : Source) (front : Lookahead) : Streams 0
  /-- Opens a stream over an older one; the root has the number 0. -/
  | atop {count : Nat} (below : Fin (count + 1)) (unpacker : Unpacker) (front : Lookahead)
      (older : Streams count) : Streams (count + 1)

namespace Streams

variable {α : Type} {count : Nat}

/-! ## Reading -/

/-- The state of a root stream. -/
def ofRoot : Lookahead × Source → Streams 0
  | (front, source) => .root source front

/-- The state of the newest stream. -/
def ofNewest (below : Fin (count + 1)) : Lookahead × (Unpacker × Streams count) →
    Streams (count + 1)
  | (front, unpacker, older) => .atop below unpacker front older

/-- The state of the streams older than the newest one. -/
def ofOlder (below : Fin (count + 1)) (unpacker : Unpacker) (front : Lookahead)
    (older : Streams count) : Streams (count + 1) :=
  .atop below unpacker front older

/-- The bytes of the root stream. -/
def rootReader : Reader (Streams 0) where
  read size := fun (.root source front) =>
    Ending.inside ofRoot (Lookahead.read Source.reader size (front, source))
  left := fun (.root source front) => (Lookahead.reader Source.reader).left (front, source)
  thrifty size := fun (.root source front) =>
    ((Lookahead.reader Source.reader).thrifty size (front, source)).inside ofRoot fun _ => rfl

/-- The bytes of the newest stream, given those of the older ones. -/
def newestReader (older : Fin (count + 1) → Reader (Streams count)) :
    Reader (Streams (count + 1)) where
  read size := fun (.atop below unpacker front streams) =>
    Ending.inside (ofNewest below)
      (Lookahead.read (Unpacker.reader (older below)) size (front, unpacker, streams))
  left := fun (.atop below unpacker front streams) =>
    (Lookahead.reader (Unpacker.reader (older below))).left (front, unpacker, streams)
  thrifty size := fun (.atop below unpacker front streams) =>
    ((Lookahead.reader (Unpacker.reader (older below))).thrifty size
      (front, unpacker, streams)).inside (ofNewest below) fun _ => rfl

/-- The bytes of an older stream. -/
def olderReader (reader : Reader (Streams count)) : Reader (Streams (count + 1)) where
  read size := fun (.atop below unpacker front streams) =>
    Ending.inside (ofOlder below unpacker front) (reader.read size streams)
  left := fun (.atop _ _ _ streams) => reader.left streams
  thrifty size := fun (.atop below unpacker front streams) =>
    (reader.thrifty size streams).inside (ofOlder below unpacker front) fun _ => rfl

/-- The bytes of each stream. -/
def reader : (count : Nat) → Fin (count + 1) → Reader (Streams count)
  | 0, _ => rootReader
  | count + 1, i =>
    if old : i.val < count + 1 then olderReader (reader count ⟨i, old⟩)
    else newestReader (reader count)

/-- What a stream gives to those who read it. -/
def read (i : Fin (count + 1)) (size : Option Nat) : Act (Streams count) Bytes :=
  (reader count i).read size

/-- Shows the next bytes of a stream. -/
def peek (size : Option Int) : {count : Nat} → Fin (count + 1) → Act (Streams count) Bytes
  | 0, _ => fun (.root source front) =>
    Ending.inside ofRoot (Lookahead.peek Source.reader size (front, source))
  | count + 1, i => fun (.atop below unpacker front older) =>
    if old : i.val < count + 1 then
      Ending.inside (ofOlder below unpacker front) (peek size ⟨i, old⟩ older)
    else
      Ending.inside (ofNewest below)
        (Lookahead.peek (Unpacker.reader (reader count below)) size (front, unpacker, older))

/-! ## Opening and closing -/

/-- Opens a source. -/
def ofSource (source : Source) : Streams 0 := .root source {}

/-- Opens a stream that unpacks what another one gives. -/
def unpack (compression : Compression) (below : Fin (count + 1)) (streams : Streams count) :
    Streams (count + 1) :=
  .atop below (.start compression) {} streams

/-- A stream that was closed keeps nothing. -/
def closedFront : Lookahead := { closed := true }

/-- Closes a stream and those below it. -/
def close : {count : Nat} → Fin (count + 1) → Act (Streams count) Unit
  | 0, _ => fun (.root source front) =>
    if front.closed then .ok () (.root source front)
    else Ending.inside (.root · closedFront) (source.close)
  | count + 1, i => fun (.atop below unpacker front older) =>
    if old : i.val < count + 1 then
      Ending.inside (ofOlder below unpacker front) (close ⟨i, old⟩ older)
    else if front.closed then .ok () (.atop below unpacker front older)
    else Ending.inside (ofOlder below unpacker closedFront) (close below older)

/-- The fronts of all streams, the root first. -/
def fronts : {count : Nat} → Streams count → List Lookahead
  | _, .root _ front => [front]
  | _, .atop _ _ front older => older.fronts ++ [front]

/-- The source of all streams. -/
def source : {count : Nat} → Streams count → Source
  | _, .root source _ => source
  | _, .atop _ _ _ older => older.source

/-- An action on the source itself, past all streams. -/
def onSource (act : Act Source α) : {count : Nat} → Act (Streams count) α
  | 0 => fun (.root source front) => Ending.inside (.root · front) (act source)
  | _ + 1 => fun (.atop below unpacker front older) =>
    Ending.inside (ofOlder below unpacker front) (onSource act older)

end Streams

end DiskStaging
