import DiskStaging.Stream.Streams

/-!
# The content of an object

The content of an object is what the newest of some streams gives: at first the
bytes of the source themselves, later perhaps what these decode to.
-/

set_option autoImplicit false

namespace DiskStaging

/-- The streams through which the content of an object is read. -/
structure Content where
  {count : Nat}
  streams : Streams count

namespace Content

variable {α : Type}

/-- The content that a source gives. -/
def ofSource (source : Source) : Content := ⟨.ofSource source⟩

/-- The source of the content. -/
def source (content : Content) : Source := content.streams.source

/-- An action on the streams, given the number of the newest one. -/
def onNewest (act : {count : Nat} → Fin (count + 1) → Act (Streams count) α) : Act Content α :=
  fun ⟨streams⟩ => Ending.inside Content.mk (act (Fin.last _) streams)

/-- Shows the next bytes of the content. -/
def peek (size : Option Int) : Act Content Bytes := onNewest (Streams.peek size)

/-- Reads the next bytes of the content. -/
def read (size : Option Nat) : Act Content Bytes := onNewest (Streams.read · size)

/-- Closes all streams of the content. -/
def close : Act Content Unit := onNewest Streams.close

/-- Closes the source behind the back of the streams. -/
def closeSource : Act Content Unit := fun ⟨streams⟩ =>
  Ending.inside Content.mk (Streams.onSource Source.close streams)

/-- Unpacks the content. -/
def unpack (compression : Compression) : Act Content Unit := fun ⟨streams⟩ =>
  .ok () ⟨streams.unpack compression (Fin.last _)⟩

end Content

end DiskStaging
