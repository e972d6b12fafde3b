import DiskStaging.Lzma.Check
import DiskStaging.Lzma.Chunks
import DiskStaging.Lzma.Header

/-!
# Blocks of an xz stream

The data of a block is chunked LZMA data, whose bytes may have to go through
further stages. Zero bytes fill it up to a multiple of four, and the check of the
decoded bytes follows.

A block header may state the size of the data before and after decoding. Data
that asks for more input than stated, or puts more output, is broken. This shows
only when the data goes on although it should be complete: with more room in the
first case, and with more input in the second.
-/

set_option autoImplicit false

namespace DiskStaging.Lzma

open Coding

/-- The sizes of a block and what is known of its content so far. -/
structure BlockFrame where
  headerSize : Nat
  statedPacked : Option Nat
  statedUnpacked : Option Nat
  checkSize : Nat
  packed : Nat
  unpacked : Nat
  check : Check

/-- A block that has been decoded in part, by what comes next. -/
inductive Block where
  /-- Chunks, the stages behind them, and bytes that are ready to be put. -/
  | data (chunks : Chunks) (stages : List Stage) (ready : Bytes) (frame : BlockFrame)
  /-- The last bytes of the data; all of its input has been taken. -/
  | tail (ready : Bytes) (frame : BlockFrame)
  /-- Zero bytes; so many are left. -/
  | padding (left : Nat) (frame : BlockFrame)
  /-- The check: bytes to compare, or just to skip, and whether all agreed so far. -/
  | check (expected : List (Option UInt8)) (agreed : Bool) (frame : BlockFrame)
  | broken

namespace BlockFrame

/-- Whether all input that the header states has been taken. -/
def allTaken (frame : BlockFrame) : Bool := frame.statedPacked = some frame.packed

/-- Whether all output that the header states has been put. -/
def allPut (frame : BlockFrame) : Bool := frame.statedUnpacked = some frame.unpacked

/-- Whether the sizes that the header states are those of the data. -/
def fits (frame : BlockFrame) : Bool :=
  frame.statedPacked.all (· = frame.packed) && frame.statedUnpacked.all (· = frame.unpacked)

/-- The frame with one byte of input taken. -/
def take (frame : BlockFrame) : BlockFrame := { frame with packed := frame.packed + 1 }

/-- The frame with one byte of output put. -/
def put (frame : BlockFrame) (byte : UInt8) : BlockFrame :=
  { frame with unpacked := frame.unpacked + 1, check := frame.check.absorb byte }

/-- The bytes of the check that is to come. -/
def expected (frame : BlockFrame) : List (Option UInt8) :=
  match frame.check.bytes with
  | none => List.replicate frame.checkSize none
  | some bytes => bytes.map some

/-- The size of the block without padding, as the index states it. -/
def unpadded (frame : BlockFrame) : Nat := frame.headerSize + frame.packed + frame.checkSize

end BlockFrame

namespace Block

/-- Nothing behind the header has been taken yet. -/
def start (header : BlockHeader) (checkKind : Nat) : Block :=
  .data (.start header.packing.dictionary) (header.packing.filters.map Stage.undo) [] {
    headerSize := header.size
    statedPacked := header.packed
    statedUnpacked := header.unpacked
    checkSize := Check.sizeOfKind checkKind
    packed := 0
    unpacked := 0
    check := .ofKind checkKind }

/-- The move where more output than stated is due. -/
def overrun (frame : BlockFrame) : Move Fault Block :=
  if frame.allTaken then .fail .corrupt else .ask fun _ => .broken

/-- Puts a byte of the content, unless all is put. -/
def putMove (byte : UInt8) (frame : BlockFrame) (next : BlockFrame → Block) : Move Fault Block :=
  if frame.allPut then overrun frame else .put byte (next (frame.put byte))

/-- The next move within the data when no byte is ready, given the move of the chunks. -/
def dataMove (stages : List Stage) (frame : BlockFrame) : Move Fault Chunks → Move Fault Block
  | .ask next =>
    if frame.allTaken then
      if frame.allPut then .fail .corrupt else .pause .broken
    else .ask fun byte => .data (next byte) stages [] frame.take
  | .put byte next =>
    match Stage.feedAll stages [byte] with
    | ([], stages) => .think (.data next stages [] frame)
    | (byte :: ready, stages) => putMove byte frame (.data next stages ready)
  | .think next => .think (.data next stages [] frame)
  | .pause next =>
    if frame.allPut then overrun frame else .pause (.data next stages [] frame)
  | .stop _ => .think (.tail (Stage.finishAll stages []) frame)
  | .fail why => .fail why

/-- The next move. -/
def move : Block → Move Fault Block
  | .data chunks stages [] frame => dataMove stages frame chunks.move
  | .data chunks stages (byte :: ready) frame => putMove byte frame (.data chunks stages ready)
  | .tail [] frame =>
    if frame.fits then .think (.padding ((4 - frame.packed % 4) % 4) frame) else .fail .corrupt
  | .tail (byte :: ready) frame => putMove byte frame (.tail ready)
  | .padding 0 frame => .think (.check frame.expected true frame)
  | .padding (left + 1) frame => .ask fun byte =>
    if byte = 0 then .padding left frame else .broken
  | .check [] agreed frame => if agreed then .stop (.check [] agreed frame) else .fail .corrupt
  | .check (expected :: rest) agreed frame => .ask fun byte =>
    .check rest (agreed && expected.all (· = byte)) frame
  | .broken => .fail .corrupt

/-- What the index has to state of a decoded block: its size without padding,
and the size of its content. -/
def sizes : Block → Nat × Nat
  | .data _ _ _ frame | .tail _ frame | .padding _ frame | .check _ _ frame =>
    (frame.unpadded, frame.unpacked)
  | .broken => (0, 0)

/-! ## Credit -/

/-- The credit of the chunks pays for what they put, and once more for what leaves
the stages. -/
def credit : Block → Nat
  | .data chunks stages ready _ => 2 * chunks.credit + 4 + Stage.heldByAll stages + ready.length
  | .tail ready _ => 3 + ready.length
  | .padding .. => 2
  | .check .. => 1
  | .broken => 0

/-- What one byte of input adds to the credit at most. -/
@[irreducible] def byteCredit : Nat := 2 * Chunks.byteCredit

theorem byteCredit_pos : 0 < byteCredit := by
  unfold byteCredit Chunks.byteCredit
  omega

theorem credit_start_lt (header : BlockHeader) (checkKind : Nat) :
    (start header checkKind).credit < byteCredit + 3 := by
  have := Chunks.credit_start_lt header.packing.dictionary
  simp only [credit, start, Stage.heldByAll_undo, List.length_nil, byteCredit]
  omega

theorem sound_overrun (frame : BlockFrame) (paid : Nat) :
    (overrun frame).Sound credit byteCredit paid := by
  have := byteCredit_pos
  unfold overrun
  split
  · trivial
  · intro byte
    simp only [credit]
    omega

theorem sound_putMove (byte : UInt8) (frame : BlockFrame) (next : BlockFrame → Block) (paid : Nat)
    (less : (next (frame.put byte)).credit < paid) :
    (putMove byte frame next).Sound credit byteCredit paid := by
  unfold putMove
  split
  · exact sound_overrun frame paid
  · exact less

theorem sound_dataMove (chunks : Chunks) (stages : List Stage) (frame : BlockFrame) :
    (dataMove stages frame chunks.move).Sound credit byteCredit
      (2 * chunks.credit + 4 + Stage.heldByAll stages) := by
  have inner := chunks.sound_move
  unfold dataMove
  split <;> rename_i same <;> simp only [same, Move.Sound] at inner
  · split
    · split
      · trivial
      · simp only [Move.Sound, credit]; omega
    · intro byte
      have := inner byte
      simp only [credit, byteCredit, List.length_nil]
      omega
  · rename_i byte next
    have kept := Stage.length_feedAll stages [byte]
    split <;> rename_i fed <;>
      simp only [fed, List.length_nil, List.length_cons] at kept
    · simp only [Move.Sound, credit, List.length_nil]; omega
    · apply sound_putMove
      simp only [credit]
      omega
  · simp only [Move.Sound, credit, List.length_nil]; omega
  · split
    · exact sound_overrun ..
    · simp only [Move.Sound, credit, List.length_nil]; omega
  · simp only [Move.Sound, credit, Stage.length_finishAll, List.length_nil]; omega
  · trivial

theorem sound_move (s : Block) : s.move.Sound credit byteCredit s.credit := by
  have := byteCredit_pos
  cases s with
  | data chunks stages ready frame =>
    cases ready with
    | nil => exact sound_dataMove chunks stages frame
    | cons byte ready =>
      apply sound_putMove
      simp only [credit, List.length_cons]
      omega
  | tail ready frame =>
    cases ready with
    | nil =>
      simp only [move]
      split
      · simp [Move.Sound, credit]
      · trivial
    | cons byte ready =>
      apply sound_putMove
      simp only [credit, List.length_cons]
      omega
  | padding left frame =>
    cases left with
    | zero => simp [move, Move.Sound, credit]
    | succ left =>
      intro byte
      dsimp only
      split <;> simp only [credit] <;> omega
  | check expected agreed frame =>
    cases expected with
    | nil => cases agreed <;> simp [move, Move.Sound, credit]
    | cons expected rest =>
      intro byte
      simp only [credit]
      omega
  | broken => trivial

end Block

/-- Decoding a block is a decoding machine. -/
instance : Machine Fault Block where
  move := Block.move
  credit := Block.credit
  gain := Block.byteCredit
  sound := Block.sound_move

end DiskStaging.Lzma
