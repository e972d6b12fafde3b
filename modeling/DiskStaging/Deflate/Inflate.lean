import DiskStaging.Bytes
import DiskStaging.Coding.Machine
import DiskStaging.Deflate.Code

/-!
# Inflating deflate data

The deflate format of RFC 1951 as a decoding machine. Compressed data is a
sequence of blocks; a block is stored, or coded with the fixed codes, or coded
with codes that it states itself. All but stored bytes is read bit by bit, the
lowest bit of a byte first, so the state holds the bits of the last byte that
are still unread, and a phase says what the next bit is for.

A copy may reach back at most to the first byte put. That is checked when the
copy is about to put its first byte, and only there is room needed for it.
-/

set_option autoImplicit false

namespace DiskStaging.Deflate

open Coding

/-- What can be wrong with deflate data. -/
inductive Fault where
  | blockType
  | storedLengths
  | tooManySymbols
  | codeLengths
  | lengthRepeat
  | missingEndOfBlock
  | literalLengths
  | distances
  | literalCode
  | distanceCode
  | tooFarBack
  deriving DecidableEq, Repr

/-- The wording of each fault. -/
def Fault.message : Fault → String
  | .blockType => "invalid block type"
  | .storedLengths => "invalid stored block lengths"
  | .tooManySymbols => "too many length or distance symbols"
  | .codeLengths => "invalid code lengths set"
  | .lengthRepeat => "invalid bit length repeat"
  | .missingEndOfBlock => "invalid code -- missing end-of-block"
  | .literalLengths => "invalid literal/lengths set"
  | .distances => "invalid distances set"
  | .literalCode => "invalid literal/length code"
  | .distanceCode => "invalid distance code"
  | .tooFarBack => "invalid distance too far back"

/-! ## The tables of the format -/

/-- The code for literals and lengths in blocks with fixed codes. Its last two
symbols have no meaning. -/
def fixedLiterals : Code :=
  .ofLengths (List.replicate 144 8 ++ List.replicate 112 9 ++ List.replicate 24 7 ++
    List.replicate 8 8)

/-- The code for distances in blocks with fixed codes. Its last two symbols
have no meaning. -/
def fixedDistances : Code := .ofLengths (List.replicate 32 5)

/-- The symbols of code lengths in the order in which their lengths are stated. -/
def lengthOrder : List Nat := [16, 17, 18, 0, 8, 7, 9, 6, 10, 5, 11, 4, 12, 3, 13, 2, 14, 1, 15]

/-- The shortest copy of each length symbol from 257, and the number of bits that add to it. -/
def copyLengths : Array (Nat × Nat) := #[
  (3, 0), (4, 0), (5, 0), (6, 0), (7, 0), (8, 0), (9, 0), (10, 0), (11, 1), (13, 1), (15, 1),
  (17, 1), (19, 2), (23, 2), (27, 2), (31, 2), (35, 3), (43, 3), (51, 3), (59, 3), (67, 4),
  (83, 4), (99, 4), (115, 4), (131, 5), (163, 5), (195, 5), (227, 5), (258, 0)]

/-- The shortest distance of each distance symbol, and the number of bits that add to it. -/
def copyDistances : Array (Nat × Nat) := #[
  (1, 0), (2, 0), (3, 0), (4, 0), (5, 1), (7, 1), (9, 2), (13, 2), (17, 3), (25, 3), (33, 4),
  (49, 4), (65, 5), (97, 5), (129, 6), (193, 6), (257, 7), (385, 7), (513, 8), (769, 8),
  (1025, 9), (1537, 9), (2049, 10), (3073, 10), (4097, 11), (6145, 11), (8193, 12), (12289, 12),
  (16385, 13), (24577, 13)]

/-- No copy is longer than this. -/
def longestCopy : Nat := 258

/-! ## States -/

/-- The codes that a block is about to state: how many lengths of literals and
of distances, the code the lengths are written in, and the lengths read so far,
the last one first. -/
structure Plan where
  literals : Nat
  distances : Nat
  code : Code
  lengths : List Nat
  size : Nat

/-- What a number that is being read stands for. -/
inductive Field where
  /-- The last-block flag and the block type. -/
  | head
  /-- The size of a stored block and its complement. -/
  | storedSize
  /-- How many lengths of each kind a block states. -/
  | planSizes
  /-- A length of the code that the lengths are written in; so many follow it. -/
  | orderLength (literals distances left : Nat) (lengths : List Nat)
  /-- How often to repeat a length, if there is one, beyond the least number. -/
  | repeatCount (plan : Plan) (length : Option Nat) (least : Nat)
  /-- What to add to the length of a copy. -/
  | copyLength (base : Nat)
  /-- What to add to the distance of a copy of the given length. -/
  | copyDistance (length base : Nat)

/-- What the symbol that is being read stands for. -/
inductive Want where
  | length (plan : Plan)
  | literal
  | distance (length : Nat)

/-- What the machine is doing. -/
inductive Phase where
  /-- Reads a number: bits still missing, bits read, and the number they spell. -/
  | number (missing shift value : Nat) (field : Field)
  /-- Reads the code of a symbol. -/
  | walk (position : Code.Walk) (want : Want)
  /-- Takes a byte of a stored block; so many follow it. -/
  | stored (more : Nat)
  /-- Puts a byte of a stored block; so many follow it. -/
  | storedByte (byte : UInt8) (more : Nat)
  /-- Puts a literal byte. -/
  | literal (byte : UInt8)
  /-- Puts a byte from that far back; so many follow it. -/
  | copy (more distance : Nat)
  | done
  | broken (why : Fault)

/-- What the bytes that a phase still has to put cost. -/
def Phase.credit : Phase → Nat
  | .copy more _ => more + 2
  | .storedByte .. | .literal _ => 1
  | _ => 0

/-- A deflate stream that has been read in part: the bits of its last byte that
are still unread, the bytes put, whether the current block is the last one, and
the codes of the current block. -/
structure Inflate where
  hold : Nat
  count : Nat
  window : Array UInt8
  last : Bool
  literals : Code
  distances : Code
  phase : Phase

namespace Inflate

/-- Nothing has been read yet. -/
def start : Inflate :=
  ⟨0, 0, #[], false, fixedLiterals, fixedDistances, .number 3 0 0 .head⟩

/-- The data turns out to be broken. -/
def fail (s : Inflate) (why : Fault) : Inflate := { s with phase := .broken why }

/-- Goes on to the code of a literal or a length. -/
def nextSymbol (s : Inflate) : Inflate := { s with phase := .walk .start .literal }

/-- Goes on behind a block. The bits behind the last block are of no meaning. -/
def endBlock (s : Inflate) : Inflate :=
  if s.last then { s with hold := 0, count := 0, phase := .done }
  else { s with phase := .number 3 0 0 .head }

/-- Goes on to copy bytes that were put before. -/
def copy (s : Inflate) (length distance : Nat) : Inflate :=
  { s with phase := .copy (min length longestCopy - 1) distance }

/-- The codes of a block are stated: checks them and goes on to the block's data. -/
def useCodes (s : Inflate) (plan : Plan) : Inflate :=
  let lengths := plan.lengths.reverse
  let literals := lengths.take plan.literals
  let distances := lengths.drop plan.literals
  if literals.getD 256 0 = 0 then s.fail .missingEndOfBlock
  else if !Code.usable literals true then s.fail .literalLengths
  else if !Code.usable distances true then s.fail .distances
  else nextSymbol { s with literals := .ofLengths literals, distances := .ofLengths distances }

/-- Goes on to the next stated length, or to the block's data behind the last one. -/
def nextLength (s : Inflate) (plan : Plan) : Inflate :=
  if plan.size < plan.literals + plan.distances then
    { s with phase := .walk .start (.length plan) }
  else s.useCodes plan

/-- The lengths of the code for lengths are stated: checks it and goes on to the lengths. -/
def useOrder (s : Inflate) (literals distances : Nat) (stated : List Nat) : Inflate :=
  let lengths := (List.range 19).map fun symbol =>
    ((lengthOrder.zip stated).lookup symbol).getD 0
  if Code.usable lengths false then
    s.nextLength ⟨literals, distances, .ofLengths lengths, [], 0⟩
  else s.fail .codeLengths

/-- A number has been read. -/
def takeNumber (s : Inflate) (value : Nat) : Field → Inflate
  | .head =>
    let s := { s with last := value % 2 = 1 }
    match value / 2 with
    | 0 => { s with hold := 0, count := 0, phase := .number 32 0 0 .storedSize }
    | 1 => nextSymbol { s with literals := fixedLiterals, distances := fixedDistances }
    | 2 => { s with phase := .number 14 0 0 .planSizes }
    | _ => s.fail .blockType
  | .storedSize =>
    let size := value % 65536
    if value / 65536 ≠ 65535 - size then s.fail .storedLengths
    else if size = 0 then s.endBlock
    else { s with phase := .stored (size - 1) }
  | .planSizes =>
    let literals := value % 32 + 257
    let distances := value / 32 % 32 + 1
    let orders := value / 1024 + 4
    if literals > 286 ∨ distances > 30 then s.fail .tooManySymbols
    else { s with phase := .number 3 0 0 (.orderLength literals distances (orders - 1) []) }
  | .orderLength literals distances left lengths =>
    match left with
    | 0 => s.useOrder literals distances (lengths.reverse ++ [value])
    | left + 1 =>
      { s with phase := .number 3 0 0 (.orderLength literals distances left (value :: lengths)) }
  | .repeatCount _ none _ => s.fail .lengthRepeat
  | .repeatCount plan (some length) least =>
    let count := least + value
    if plan.size + count > plan.literals + plan.distances then s.fail .lengthRepeat
    else s.nextLength { plan with
      lengths := List.replicate count length ++ plan.lengths, size := plan.size + count }
  | .copyLength base => { s with phase := .walk .start (.distance (base + value)) }
  | .copyDistance length base => s.copy length (base + value)

/-- The symbol of a code length has been read. The symbols from 16 repeat a
length: the one before, or 0. -/
def takeLength (s : Inflate) (plan : Plan) (symbol : Nat) : Inflate :=
  let count (bits : Nat) (length : Option Nat) (least : Nat) : Inflate :=
    { s with phase := .number bits 0 0 (.repeatCount plan length least) }
  match symbol with
  | 16 => count 2 plan.lengths.head? 3
  | 17 => count 3 (some 0) 3
  | 18 => count 7 (some 0) 11
  | _ => s.nextLength { plan with lengths := symbol :: plan.lengths, size := plan.size + 1 }

/-- The symbol of a literal, of the block's end or of a copy's length has been read. -/
def takeLiteral (s : Inflate) (symbol : Nat) : Inflate :=
  if symbol < 256 then { s with phase := .literal (UInt8.ofNat symbol) }
  else if symbol = 256 then s.endBlock
  else match copyLengths[symbol - 257]? with
    | none => s.fail .literalCode
    | some (base, 0) => { s with phase := .walk .start (.distance base) }
    | some (base, bits) => { s with phase := .number bits 0 0 (.copyLength base) }

/-- The symbol of a copy's distance has been read. -/
def takeDistance (s : Inflate) (length symbol : Nat) : Inflate :=
  match copyDistances[symbol]? with
  | none => s.fail .distanceCode
  | some (base, 0) => s.copy length base
  | some (base, bits) => { s with phase := .number bits 0 0 (.copyDistance length base) }

/-- One bit of a symbol has been read. A code for lengths without symbols reads
every bit as the length 0. -/
def takeWalk (s : Inflate) (walk : Code.Walk) (bit : Nat) : Want → Inflate
  | .length plan =>
    match plan.code.step walk bit with
    | .symbol symbol => s.takeLength plan symbol
    | .more walk => { s with phase := .walk walk (.length plan) }
    | .nothing => s.takeLength plan 0
  | .literal =>
    match s.literals.step walk bit with
    | .symbol symbol => s.takeLiteral symbol
    | .more walk => { s with phase := .walk walk .literal }
    | .nothing => s.fail .literalCode
  | .distance length =>
    match s.distances.step walk bit with
    | .symbol symbol => s.takeDistance length symbol
    | .more walk => { s with phase := .walk walk (.distance length) }
    | .nothing => s.fail .distanceCode

/-- Spends one of the held bits. -/
def spend (s : Inflate) : Inflate := { s with hold := s.hold / 2, count := s.count - 1 }

/-- Puts a byte into the window and goes on to the given phase. -/
def keep (s : Inflate) (byte : UInt8) (phase : Phase) : Inflate :=
  { s with window := s.window.push byte, phase }

/-- Holds the bits of a new byte. -/
def load (s : Inflate) (byte : UInt8) : Inflate := { s with hold := byte.toNat, count := 8 }

/-- The next move. -/
def move (s : Inflate) : Move Fault Inflate :=
  match s.phase with
  | .number missing shift value field =>
    if s.count = 0 then .ask s.load
    else
      let value := value + (s.hold % 2) <<< shift
      if missing ≤ 1 then .think (s.spend.takeNumber value field)
      else .think { s.spend with phase := .number (missing - 1) (shift + 1) value field }
  | .walk walk want =>
    if s.count = 0 then .ask s.load
    else .think (s.spend.takeWalk walk (s.hold % 2) want)
  | .stored more => .ask fun byte => { s with phase := .storedByte byte more }
  | .storedByte byte more =>
    match more with
    | 0 => .put byte (s.keep byte (.stored 0)).endBlock
    | more + 1 => .put byte (s.keep byte (.stored more))
  | .literal byte => .put byte (s.keep byte (.walk .start .literal))
  | .copy more distance =>
    if distance ≤ s.window.size then
      let byte := s.window.getD (s.window.size - distance) 0
      match more with
      | 0 => .put byte (s.keep byte (.walk .start .literal))
      | more + 1 => .put byte (s.keep byte (.copy more distance))
    else .pause (s.fail .tooFarBack)
  | .done => .stop s
  | .broken why => .fail why

/-! ## Credit -/

/-- The credit that one unread bit is worth. -/
def bitCredit : Nat := longestCopy + 2

/-- Every unread bit pays for a copy of the greatest length. -/
def credit (s : Inflate) : Nat := s.count * bitCredit + s.phase.credit

/-- A bound on the credit behind a phase that has used up its bit. -/
def ceiling (s : Inflate) : Nat := s.count * bitCredit + longestCopy + 1

theorem credit_fail_le (s : Inflate) (why : Fault) : (s.fail why).credit ≤ s.ceiling := by
  simp only [credit, ceiling, fail, Phase.credit]; omega

theorem credit_number_le (s : Inflate) (missing shift value : Nat) (field : Field) :
    credit { s with phase := .number missing shift value field } ≤ s.ceiling := by
  simp only [credit, ceiling, Phase.credit]; omega

theorem credit_walk_le (s : Inflate) (position : Code.Walk) (want : Want) :
    credit { s with phase := .walk position want } ≤ s.ceiling := by
  simp only [credit, ceiling, Phase.credit]; omega

theorem credit_endBlock_le (s : Inflate) : s.endBlock.credit ≤ s.count * bitCredit := by
  unfold endBlock
  split <;> simp [credit, Phase.credit]

theorem credit_copy_le (s : Inflate) (length distance : Nat) :
    (s.copy length distance).credit ≤ s.ceiling := by
  simp only [credit, ceiling, copy, Phase.credit, longestCopy]; omega

theorem credit_nextSymbol_le (s : Inflate) : s.nextSymbol.credit ≤ s.ceiling :=
  s.credit_walk_le _ _

theorem credit_useCodes_le (s : Inflate) (plan : Plan) : (s.useCodes plan).credit ≤ s.ceiling := by
  unfold useCodes
  dsimp only
  split
  · exact s.credit_fail_le _
  · split
    · exact s.credit_fail_le _
    · split
      · exact s.credit_fail_le _
      · exact credit_nextSymbol_le _

theorem credit_nextLength_le (s : Inflate) (plan : Plan) :
    (s.nextLength plan).credit ≤ s.ceiling := by
  unfold nextLength
  split
  · exact s.credit_walk_le _ _
  · exact s.credit_useCodes_le plan

theorem credit_useOrder_le (s : Inflate) (literals distances : Nat) (stated : List Nat) :
    (s.useOrder literals distances stated).credit ≤ s.ceiling := by
  unfold useOrder
  dsimp only
  split
  · exact s.credit_nextLength_le _
  · exact s.credit_fail_le _

theorem ceiling_endBlock (s : Inflate) : s.count * bitCredit ≤ s.ceiling := by
  simp only [ceiling]; omega

theorem credit_takeNumber_le (s : Inflate) (value : Nat) (field : Field) :
    (s.takeNumber value field).credit ≤ s.ceiling := by
  cases field with
  | head =>
    simp only [takeNumber]
    split
    · simp only [credit, ceiling, Phase.credit]; omega
    · exact credit_nextSymbol_le _
    · exact credit_number_le _ _ _ _ _
    · exact credit_fail_le _ _
  | storedSize =>
    simp only [takeNumber]
    split
    · exact s.credit_fail_le _
    · split
      · exact Nat.le_trans s.credit_endBlock_le s.ceiling_endBlock
      · simp only [credit, ceiling, Phase.credit]; omega
  | planSizes =>
    simp only [takeNumber]
    split
    · exact s.credit_fail_le _
    · exact s.credit_number_le _ _ _ _
  | orderLength literals distances left lengths =>
    cases left with
    | zero => exact s.credit_useOrder_le _ _ _
    | succ left => exact s.credit_number_le _ _ _ _
  | repeatCount plan length least =>
    cases length with
    | none => exact s.credit_fail_le _
    | some length =>
      simp only [takeNumber]
      split
      · exact s.credit_fail_le _
      · exact s.credit_nextLength_le _
  | copyLength base => exact s.credit_walk_le _ _
  | copyDistance length base => exact s.credit_copy_le _ _

theorem credit_takeLength_le (s : Inflate) (plan : Plan) (symbol : Nat) :
    (s.takeLength plan symbol).credit ≤ s.ceiling := by
  unfold takeLength
  dsimp only
  split
  · exact s.credit_number_le _ _ _ _
  · exact s.credit_number_le _ _ _ _
  · exact s.credit_number_le _ _ _ _
  · exact s.credit_nextLength_le _

theorem credit_takeLiteral_le (s : Inflate) (symbol : Nat) :
    (s.takeLiteral symbol).credit ≤ s.ceiling := by
  unfold takeLiteral
  split
  · simp only [credit, ceiling, Phase.credit, longestCopy]; omega
  · split
    · exact Nat.le_trans s.credit_endBlock_le s.ceiling_endBlock
    · split
      · exact s.credit_fail_le _
      · exact s.credit_walk_le _ _
      · exact s.credit_number_le _ _ _ _

theorem credit_takeDistance_le (s : Inflate) (length symbol : Nat) :
    (s.takeDistance length symbol).credit ≤ s.ceiling := by
  unfold takeDistance
  split
  · exact s.credit_fail_le _
  · exact s.credit_copy_le _ _
  · exact s.credit_number_le _ _ _ _

theorem credit_takeWalk_le (s : Inflate) (walk : Code.Walk) (bit : Nat) (want : Want) :
    (s.takeWalk walk bit want).credit ≤ s.ceiling := by
  cases want with
  | length plan =>
    simp only [takeWalk]
    split
    · exact s.credit_takeLength_le _ _
    · exact s.credit_walk_le _ _
    · exact s.credit_takeLength_le _ _
  | literal =>
    simp only [takeWalk]
    split
    · exact s.credit_takeLiteral_le _
    · exact s.credit_walk_le _ _
    · exact s.credit_fail_le _
  | distance length =>
    simp only [takeWalk]
    split
    · exact s.credit_takeDistance_le _ _
    · exact s.credit_walk_le _ _
    · exact s.credit_fail_le _

theorem ceiling_spend_lt (s : Inflate) (held : s.count ≠ 0) : s.spend.ceiling < s.credit := by
  obtain ⟨count, counted⟩ := Nat.exists_eq_succ_of_ne_zero held
  simp only [ceiling, spend, credit, counted, Nat.succ_sub_one, Nat.succ_mul, bitCredit]
  omega

/-- What one byte of input adds to the credit at most. -/
def byteCredit : Nat := 8 * bitCredit + 2

theorem credit_load_lt (s : Inflate) (byte : UInt8) (empty : s.count = 0) :
    (s.load byte).credit < s.credit + byteCredit := by
  simp only [credit, load, empty, byteCredit]
  omega

theorem sound_move (s : Inflate) : s.move.Sound credit byteCredit s.credit := by
  unfold move
  split
  · split
    · exact fun byte => s.credit_load_lt byte ‹_›
    · dsimp only
      split
      · exact Nat.lt_of_le_of_lt (s.spend.credit_takeNumber_le _ _) (s.ceiling_spend_lt ‹_›)
      · exact Nat.lt_of_le_of_lt (s.spend.credit_number_le _ _ _ _) (s.ceiling_spend_lt ‹_›)
  · split
    · exact fun byte => s.credit_load_lt byte ‹_›
    · exact Nat.lt_of_le_of_lt (s.spend.credit_takeWalk_le _ _ _) (s.ceiling_spend_lt ‹_›)
  · rename_i phase
    intro byte
    simp only [credit, phase, Phase.credit, byteCredit]
    omega
  · rename_i phase
    split
    · refine Nat.lt_of_le_of_lt (credit_endBlock_le _) ?_
      simp only [credit, keep, phase, Phase.credit]
      omega
    · simp only [Move.Sound, credit, keep, phase, Phase.credit]
      omega
  · rename_i phase
    simp only [Move.Sound, credit, keep, phase, Phase.credit]
    omega
  · rename_i phase
    split
    · dsimp only
      split <;>
      · simp only [Move.Sound, credit, keep, phase, Phase.credit]
        omega
    · simp only [Move.Sound, credit, fail, phase, Phase.credit]
      omega
  · exact Nat.le_refl _
  · trivial

end Inflate

/-- Inflating is a decoding machine: every bit that is read pays for the bytes
that it makes the machine put. -/
instance : Machine Fault Inflate where
  move := Inflate.move
  credit := Inflate.credit
  gain := Inflate.byteCredit
  sound := Inflate.sound_move

end DiskStaging.Deflate
