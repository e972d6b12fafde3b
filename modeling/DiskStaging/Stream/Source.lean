import DiskStaging.Stream.Reader

/-!
# Sources

A source gives the content of an object as it arrives: each read gives a piece
whose size is up to the connection, reading may break off at some position, and
closing may go wrong. A source that was closed gives nothing any more.

A source remembers how often it was closed and what was asked of it.
-/

set_option autoImplicit false

namespace DiskStaging

/-- Where reading a source breaks off, and how. -/
structure Break where
  position : Nat
  fault : Fault
  deriving Repr, Inhabited

/-- A source of bytes. -/
structure Source where
  /-- The bytes that were not read yet. -/
  rest : Bytes
  /-- The number of bytes read so far. -/
  position : Nat := 0
  /-- The most bytes that one read gives. -/
  most : Option Nat := none
  failure : Option Break := none
  /-- What closing the source raises. -/
  closeFault : Option Fault := none
  /-- How often the source was closed. -/
  closes : Nat := 0
  /-- The sizes that reads asked for, the latest one first. -/
  asked : List (Option Nat) := []
  deriving Repr, Inhabited

/-- The bytes in front, at most as many as a limit allows, if there is one. -/
def atMost (limit : Option Nat) (bytes : Bytes) : Bytes :=
  match limit with
  | none => bytes
  | some most => bytes.take most

theorem length_atMost_le (limit : Option Nat) (bytes : Bytes) :
    (atMost limit bytes).length ≤ bytes.length := by
  cases limit with
  | none => exact Nat.le_refl _
  | some most => exact List.length_take_le' most bytes

namespace Source

/-- Whether a source was closed. -/
def closed (source : Source) : Bool := 0 < source.closes

/-- The fault that reading at the present position raises. -/
def fault? (source : Source) : Option Fault :=
  if source.closed then some .contentClosed
  else source.failure.bind fun failure =>
    if failure.position ≤ source.position then some failure.fault else none

/-- The piece that the next read gives. -/
def piece (source : Source) (size : Option Nat) : Bytes :=
  atMost size <| atMost source.most <|
    atMost (source.failure.map (·.position - source.position)) source.rest

/-- Reads the next piece. -/
def read (size : Option Nat) : Act Source Bytes := fun source =>
  match source.fault? with
  | some fault => .error fault { source with asked := size :: source.asked }
  | none =>
    let given := source.piece size
    .ok given { source with
      rest := source.rest.drop given.length
      position := source.position + given.length
      asked := size :: source.asked }

/-- Closes a source. -/
def close : Act Source Unit := fun source =>
  let source := { source with closes := source.closes + 1 }
  match source.closeFault with
  | some fault => .error fault source
  | none => .ok () source

theorem length_piece_le (source : Source) (size : Option Nat) :
    (source.piece size).length ≤ source.rest.length :=
  Nat.le_trans (length_atMost_le ..) (Nat.le_trans (length_atMost_le ..) (length_atMost_le ..))

/-- The bytes of a source. -/
def reader : Reader Source where
  read := read
  left source := source.rest.length
  thrifty size source := by
    cases broken : source.fault? with
    | some fault => simp [read, broken, Ending.Within]
    | none =>
      have fits := source.length_piece_le size
      simp only [read, broken, Ending.Within, List.length_drop]
      omega

end Source

end DiskStaging
