import DiskStaging.Coding.Machine
import DiskStaging.Lzma.Fault
import DiskStaging.Lzma.Range

/-!
# Decoding LZMA symbols

LZMA data is a sequence of symbols: a literal byte, or a copy of bytes that
were put before, at a new distance or at one of the four distances used last.
Every decision of a symbol is coded in bits against adaptive odds, and the odds
to use depend on the symbols and bytes before.

The decoder is a machine that decodes one bit per move. Its phase says which
decision the next bit belongs to. Where the decoded size is known, the data may
end once it is reached and the range decoder has no code left; an end marker,
which is a copy from the greatest distance, ends data of unknown size.
-/

set_option autoImplicit false

namespace DiskStaging.Lzma

open Coding

/-- How literals and positions choose their odds: the high bits of the byte
before, the low bits of the position for literals, and those for the rest. -/
structure Properties where
  context : Nat
  literalPosition : Nat
  position : Nat

/-- The properties that a byte stands for. -/
def Properties.ofByte? (byte : UInt8) : Option Properties :=
  let value := byte.toNat
  let rest := value % 45
  let properties : Properties := ⟨rest % 9, rest / 9, value / 45⟩
  if value > 224 ∨ properties.context + properties.literalPosition > 4 then none
  else some properties

/-- No copy is longer than this. -/
def longestCopy : Nat := 273

/-! ## Where the odds of each decision stand

`condition` tells the kinds of the last symbols, `position` the low bits of the
place in the output. -/

namespace Place

def match? (condition position : Nat) : Nat := condition * 16 + position
def repeat? (condition : Nat) : Nat := 192 + condition
def last? (condition : Nat) : Nat := 204 + condition
def second? (condition : Nat) : Nat := 216 + condition
def third? (condition : Nat) : Nat := 228 + condition
def longer? (condition position : Nat) : Nat := 240 + condition * 16 + position
def slot (length : Nat) : Nat := 432 + min (length - 2) 3 * 64
def nearDistance (base slot : Nat) : Nat := 688 + base - slot - 1
def alignment : Nat := 803
def lengths (again : Bool) : Nat := if again then 1333 else 819
def shortLength (again : Bool) (position : Nat) : Nat := lengths again + 2 + position * 8
def mediumLength (again : Bool) (position : Nat) : Nat := lengths again + 130 + position * 8
def longLength (again : Bool) : Nat := lengths again + 258
def literal (row : Nat) : Nat := 1847 + row * 768

end Place

/-- Which decision the next bit belongs to, or what else is due. In `again`,
a copy at a distance used before is told from one at a new distance. -/
inductive Phase where
  /-- Takes a byte of the first code; so many are missing. -/
  | fill (missing : Nat)
  /-- A literal or a copy? At the end of the decoded size, only an end marker may follow. -/
  | symbol (atEnd : Bool)
  /-- The bits of a literal. -/
  | literal (base bits : Nat)
  /-- The bits of a literal that so far agree with the byte at the last distance. -/
  | likeLast (base bits byte : Nat)
  /-- A distance used before? -/
  | repeat?
  /-- The last distance? -/
  | last?
  /-- More than one byte at the last distance? -/
  | longer?
  /-- The second last distance? -/
  | second?
  /-- The third last distance? -/
  | third?
  /-- A length beyond the short ones? -/
  | notShort? (again : Bool)
  /-- A length beyond the medium ones? -/
  | long? (again : Bool)
  /-- The bits of a length. -/
  | length (again : Bool) (base size least bits : Nat)
  /-- The bits of the slot of a new distance. -/
  | slot (length bits : Nat)
  /-- The bits of a far distance between the highest two and the lowest four. -/
  | middle (length missing value : Nat)
  /-- The low bits of a distance, the lowest first: the length of the copy, the
  distance without these bits, their odds, and the bits read. -/
  | low (length base place shift missing bits : Nat)
  /-- Puts a literal. -/
  | write (byte : UInt8)
  /-- Puts a byte from the last distance; so many follow it. -/
  | copy (more : Nat)
  /-- An end marker has been decoded. -/
  | marker
  | broken

/-- What the bytes that a phase still has to put cost. -/
def Phase.credit : Phase → Nat
  | .symbol false => 1
  | .write _ => 2
  | .copy more => more + 2
  | _ => 0

/-- LZMA data that has been decoded in part. `left` is the number of bytes
still to be put, if it is known, and `markable` says whether an end marker may
follow them. The distances are less by one than how far back they reach, and
the window holds the bytes that a copy may reach. -/
structure Decoder where
  properties : Properties
  reach : Nat
  range : Range
  odds : Array Odds
  condition : Nat
  distance : Nat
  second : Nat
  third : Nat
  fourth : Nat
  window : Array UInt8
  left : Option Nat
  markable : Bool
  phase : Phase

namespace Decoder

/-- Nothing is known about what is to come. -/
def freshOdds (properties : Properties) : Array Odds :=
  .replicate (Place.literal (1 <<< (properties.context + properties.literalPosition))) .even

/-- The greatest distance back that a dictionary of the stated size allows. -/
def reachOf (dictionary : Nat) : Nat := (max dictionary 4096 + 15) / 16 * 16

/-- Nothing has been decoded yet. -/
def start (properties : Properties) (dictionary : Nat) (left : Option Nat) (markable : Bool) :
    Decoder :=
  ⟨properties, reachOf dictionary, .start, freshOdds properties, 0, 0, 0, 0, 0, #[], left,
    markable, .fill 5⟩

/-- Forgets all odds and distances, but not the bytes put. -/
def renew (s : Decoder) (properties : Properties) : Decoder :=
  { s with
    properties, odds := freshOdds properties
    condition := 0, distance := 0, second := 0, third := 0, fourth := 0 }

/-- Goes on to data of the given decoded size, with odds, distances and bytes kept. -/
def restart (s : Decoder) (left : Nat) : Decoder :=
  { s with range := .start, left := some left, markable := false, phase := .fill 5 }

/-- The low bits of the place in the output. -/
def position (s : Decoder) : Nat := s.window.size % 1 <<< s.properties.position

/-- The byte put that many bytes before the last one. -/
def back (s : Decoder) (distance : Nat) : UInt8 :=
  s.window.getD (s.window.size - 1 - distance) 0

/-- The odds to use for the next bit; none for a bit that is as likely 0 as 1. -/
def place (s : Decoder) : Option Nat :=
  match s.phase with
  | .symbol _ => some (Place.match? s.condition s.position)
  | .literal base bits => some (base + bits)
  | .likeLast base bits byte => some (base + 256 + byte / 128 * 256 + bits)
  | .repeat? => some (Place.repeat? s.condition)
  | .last? => some (Place.last? s.condition)
  | .longer? => some (Place.longer? s.condition s.position)
  | .second? => some (Place.second? s.condition)
  | .third? => some (Place.third? s.condition)
  | .notShort? again => some (Place.lengths again)
  | .long? again => some (Place.lengths again + 1)
  | .length _ base _ _ bits => some (base + bits)
  | .slot length bits => some (Place.slot length + bits)
  | .low _ _ place _ _ bits => some (place + bits)
  | _ => none

/-- The data turns out to be broken. -/
def fail (s : Decoder) : Decoder := { s with phase := .broken }

/-- Goes on to copy that many bytes from the last distance. -/
def copy (s : Decoder) (length : Nat) : Decoder :=
  { s with phase := .copy (min length longestCopy - 1) }

/-- Whether an end marker may come next. -/
def mayEnd (s : Decoder) : Bool :=
  match s.left with
  | none => true
  | some left => left == 0 && s.markable

/-- The length of a copy at a new distance and the distance have been decoded. -/
def reachBack (s : Decoder) (length distance : Nat) : Decoder :=
  if distance = 0xFFFFFFFF then
    if s.mayEnd then { s with phase := .marker } else s.fail
  else if distance < min s.window.size s.reach then
    copy { s with
      distance, second := s.distance, third := s.second, fourth := s.third } length
  else s.fail

/-- A byte has been decoded. -/
def takeLiteral (s : Decoder) (bits : Nat) : Decoder :=
  let condition :=
    if s.condition ≤ 3 then 0 else if s.condition ≤ 9 then s.condition - 3 else s.condition - 6
  { s with condition, phase := .write (UInt8.ofNat bits) }

/-- The row of odds for a literal. -/
def literalBase (s : Decoder) : Nat :=
  let before := if s.window.isEmpty then 0 else (s.back 0).toNat
  let place := s.window.size % 1 <<< s.properties.literalPosition
  Place.literal (place <<< s.properties.context + before >>> (8 - s.properties.context))

/-- Goes on to a literal. After a copy, the byte at its distance is unlikely. -/
def startLiteral (s : Decoder) : Decoder :=
  if s.condition < 7 then { s with phase := .literal s.literalBase 1 }
  else { s with phase := .likeLast s.literalBase 1 (s.back s.distance).toNat }

/-- Goes on to the length of a copy at a distance used before. -/
def startRepeat (s : Decoder) : Decoder :=
  { s with condition := if s.condition < 7 then 8 else 11, phase := .notShort? true }

/-- The length of a copy has been decoded. -/
def takeLength (s : Decoder) (again : Bool) (length : Nat) : Decoder :=
  if again then s.copy length else { s with phase := .slot length 1 }

/-- The slot of a distance has been decoded: the two highest bits of the
distance, and how many bits follow them. -/
def takeSlot (s : Decoder) (length slot : Nat) : Decoder :=
  if slot < 4 then s.reachBack length slot
  else
    let missing := slot / 2 - 1
    let high := 2 + slot % 2
    if slot < 14 then
      let base := high <<< missing
      { s with phase := .low length base (Place.nearDistance base slot) 0 missing 1 }
    else { s with phase := .middle length (missing - 4) high }

/-- The next bit has been decoded. -/
def answer (s : Decoder) (bit : Nat) : Decoder :=
  match s.phase with
  | .symbol _ => if bit = 0 then s.startLiteral else { s with phase := .repeat? }
  | .literal base bits =>
    let bits := 2 * bits + bit
    if bits < 256 then { s with phase := .literal base bits } else s.takeLiteral (bits - 256)
  | .likeLast base bits byte =>
    let grown := 2 * bits + bit
    if grown ≥ 256 then s.takeLiteral (grown - 256)
    else if byte / 128 = bit then { s with phase := .likeLast base grown (byte % 128 * 2) }
    else { s with phase := .literal base grown }
  | .repeat? =>
    if bit = 0 then
      { s with condition := if s.condition < 7 then 7 else 10, phase := .notShort? false }
    else if s.window.isEmpty then s.fail
    else { s with phase := .last? }
  | .last? => { s with phase := if bit = 0 then .longer? else .second? }
  | .longer? =>
    if bit = 0 then copy { s with condition := if s.condition < 7 then 9 else 11 } 1
    else s.startRepeat
  | .second? =>
    if bit = 0 then startRepeat { s with distance := s.second, second := s.distance }
    else { s with phase := .third? }
  | .third? =>
    if bit = 0 then
      startRepeat { s with distance := s.third, second := s.distance, third := s.second }
    else
      startRepeat { s with
        distance := s.fourth, second := s.distance, third := s.second, fourth := s.third }
  | .notShort? again =>
    if bit = 0 then
      { s with phase := .length again (Place.shortLength again s.position) 8 2 1 }
    else { s with phase := .long? again }
  | .long? again =>
    if bit = 0 then
      { s with phase := .length again (Place.mediumLength again s.position) 8 10 1 }
    else { s with phase := .length again (Place.longLength again) 256 18 1 }
  | .length again base size least bits =>
    let bits := 2 * bits + bit
    if bits < size then { s with phase := .length again base size least bits }
    else s.takeLength again (least + bits - size)
  | .slot length bits =>
    let bits := 2 * bits + bit
    if bits < 64 then { s with phase := .slot length bits }
    else s.takeSlot length (bits - 64)
  | .middle length missing value =>
    let value := 2 * value + bit
    if missing ≤ 1 then { s with phase := .low length (value * 16) Place.alignment 0 4 1 }
    else { s with phase := .middle length (missing - 1) value }
  | .low length base place shift missing bits =>
    let base := base + bit <<< shift
    if missing ≤ 1 then s.reachBack length base
    else { s with phase := .low length base place (shift + 1) (missing - 1) (2 * bits + bit) }
  | _ => s.fail

/-- Decodes the next bit. -/
def decodeBit (s : Decoder) : Decoder :=
  match s.place with
  | none =>
    let (range, bit) := s.range.halve
    answer { s with range } bit
  | some place =>
    let (range, odds, bit) := s.range.decide (s.odds.getD place .even)
    answer { s with range, odds := s.odds.setIfInBounds place odds } bit

/-- Decodes the next bit, after a byte of input if the range is low. -/
def nextBit (s : Decoder) : Move Fault Decoder :=
  if s.range.low then .ask fun byte => { s with range := s.range.extend byte }
  else .think s.decodeBit

/-- Makes a byte one that a copy may reach. -/
def keep (s : Decoder) (byte : UInt8) : Decoder := { s with window := s.window.push byte }

/-- Puts a byte and goes on to the given phase, unless all bytes were put. -/
def put (s : Decoder) (byte : UInt8) (phase : Phase) : Move Fault Decoder :=
  match s.left with
  | none => .put byte { s with window := s.window.push byte, phase }
  | some 0 => .fail .corrupt
  | some (left + 1) => .put byte { s with window := s.window.push byte, left := some left, phase }

/-- Ends the data, if the range decoder has no code left. -/
def finish (s : Decoder) (otherwise : Move Fault Decoder) : Move Fault Decoder :=
  if s.range.low then .ask fun byte => { s with range := s.range.extend byte }
  else if s.range.code = 0 then .stop s
  else otherwise

/-- The next move. -/
def move (s : Decoder) : Move Fault Decoder :=
  match s.phase with
  | .fill missing =>
    .ask fun byte =>
      if missing ≥ 5 && byte ≠ 0 then s.fail
      else
        let range := s.range.fill byte
        if missing ≤ 1 then { s with range, phase := .symbol false }
        else { s with range, phase := .fill (missing - 1) }
  | .symbol false =>
    if s.left = some 0 then
      s.finish (if s.markable then .think { s with phase := .symbol true } else .fail .corrupt)
    else s.nextBit
  | .write byte => s.put byte (.symbol false)
  | .copy more =>
    s.put (s.back s.distance) (match more with | 0 => .symbol false | more + 1 => .copy more)
  | .marker => s.finish (.fail .corrupt)
  | .broken => .fail .corrupt
  | _ => s.nextBit

/-! ## Credit -/

/-- Every unit of the range pays for a copy of the greatest length. -/
def credit (s : Decoder) : Nat := s.range.width.toNat * (longestCopy + 2) + s.phase.credit

/-- What a decoded bit leads to keeps the range and puts no more than a longest copy. -/
def Follows (s next : Decoder) : Prop :=
  next.range = s.range ∧ next.phase.credit < longestCopy + 2

theorem follows_fail (s : Decoder) : s.Follows s.fail :=
  ⟨rfl, by simp [fail, Phase.credit, longestCopy]⟩

theorem follows_copy (s : Decoder) (length : Nat) : s.Follows (s.copy length) :=
  ⟨rfl, by simp only [copy, Phase.credit, longestCopy]; omega⟩

theorem follows_reachBack (s : Decoder) (length distance : Nat) :
    s.Follows (s.reachBack length distance) := by
  unfold reachBack
  split
  · split
    · exact ⟨rfl, by simp [Phase.credit, longestCopy]⟩
    · exact s.follows_fail
  · split
    · exact follows_copy _ length
    · exact s.follows_fail

theorem follows_takeLiteral (s : Decoder) (bits : Nat) : s.Follows (s.takeLiteral bits) :=
  ⟨rfl, by simp [takeLiteral, Phase.credit, longestCopy]⟩

theorem follows_startLiteral (s : Decoder) : s.Follows s.startLiteral := by
  unfold startLiteral
  split <;> exact ⟨rfl, by simp [Phase.credit, longestCopy]⟩

theorem follows_startRepeat (s : Decoder) : s.Follows s.startRepeat :=
  ⟨rfl, by simp [startRepeat, Phase.credit, longestCopy]⟩

theorem follows_takeLength (s : Decoder) (again : Bool) (length : Nat) :
    s.Follows (s.takeLength again length) := by
  unfold takeLength
  split
  · exact s.follows_copy length
  · exact ⟨rfl, by simp [Phase.credit, longestCopy]⟩

theorem follows_takeSlot (s : Decoder) (length slot : Nat) :
    s.Follows (s.takeSlot length slot) := by
  unfold takeSlot
  dsimp only
  split
  · exact s.follows_reachBack length slot
  · split <;> exact ⟨rfl, by simp [Phase.credit, longestCopy]⟩

theorem follows_answer (s : Decoder) (bit : Nat) : s.Follows (s.answer bit) := by
  unfold answer
  split <;> (try dsimp only)
  · split
    · exact s.follows_startLiteral
    · exact ⟨rfl, by simp [Phase.credit, longestCopy]⟩
  · split
    · exact ⟨rfl, by simp [Phase.credit, longestCopy]⟩
    · exact s.follows_takeLiteral _
  · split
    · exact s.follows_takeLiteral _
    · split <;> exact ⟨rfl, by simp [Phase.credit, longestCopy]⟩
  · split
    · exact ⟨rfl, by simp [Phase.credit, longestCopy]⟩
    · split
      · exact s.follows_fail
      · exact ⟨rfl, by simp [Phase.credit, longestCopy]⟩
  · exact ⟨rfl, by split <;> simp [Phase.credit, longestCopy]⟩
  · split
    · exact follows_copy _ 1
    · exact s.follows_startRepeat
  · split
    · exact follows_startRepeat _
    · exact ⟨rfl, by simp [Phase.credit, longestCopy]⟩
  · split <;> exact follows_startRepeat _
  · split <;> exact ⟨rfl, by simp [Phase.credit, longestCopy]⟩
  · split <;> exact ⟨rfl, by simp [Phase.credit, longestCopy]⟩
  · split
    · exact ⟨rfl, by simp [Phase.credit, longestCopy]⟩
    · exact s.follows_takeLength _ _
  · split
    · exact ⟨rfl, by simp [Phase.credit, longestCopy]⟩
    · exact s.follows_takeSlot _ _
  · split <;> exact ⟨rfl, by simp [Phase.credit, longestCopy]⟩
  · split
    · exact s.follows_reachBack _ _
    · exact ⟨rfl, by simp [Phase.credit, longestCopy]⟩
  · exact s.follows_fail

theorem credit_decodeBit_lt (s : Decoder) (high : s.range.low = false) :
    s.decodeBit.credit < s.credit := by
  have spend {range : Range} (lt : range.width.toNat < s.range.width.toNat) {next : Decoder}
      (kept : next.range = range) (small : next.phase.credit < longestCopy + 2) :
      next.credit < s.credit := by
    have : (range.width.toNat + 1) * (longestCopy + 2) ≤
        s.range.width.toNat * (longestCopy + 2) := Nat.mul_le_mul_right _ lt
    simp only [credit, kept, Nat.succ_mul] at this ⊢
    omega
  unfold decodeBit
  split
  · have ⟨kept, small⟩ := follows_answer { s with range := s.range.halve.1 } s.range.halve.2
    exact spend (Range.halve_lt high) kept small
  · rename_i place _
    have ⟨kept, small⟩ := follows_answer
      { s with
        range := (s.range.decide (s.odds.getD place .even)).1
        odds := s.odds.setIfInBounds place (s.range.decide (s.odds.getD place .even)).2.1 }
      (s.range.decide (s.odds.getD place .even)).2.2
    exact spend (Range.decide_lt _ high) kept small

/-- What one byte of input adds to the credit at most. -/
@[irreducible] def byteCredit : Nat := 1 <<< 32 * (longestCopy + 2) + 2

theorem credit_start_lt (properties : Properties) (dictionary : Nat) (left : Option Nat)
    (markable : Bool) : (start properties dictionary left markable).credit < byteCredit := by
  simp only [credit, start, Phase.credit, byteCredit]
  have := Nat.mul_le_mul_right (longestCopy + 2) (Nat.le_of_lt Range.start.width.toNat_lt)
  omega

theorem credit_restart_lt (s : Decoder) (left : Nat) : (s.restart left).credit < byteCredit := by
  simp only [credit, restart, Phase.credit, byteCredit]
  have := Nat.mul_le_mul_right (longestCopy + 2) (Nat.le_of_lt Range.start.width.toNat_lt)
  omega

theorem credit_range_lt (s : Decoder) (range : Range) :
    credit { s with range } + 1 < s.credit + byteCredit := by
  have := Nat.mul_lt_mul_of_pos_right range.width.toNat_lt (show 0 < longestCopy + 2 by decide)
  simp only [credit, byteCredit]
  omega

/-- What is known of a move that decodes a bit or looks for the end. -/
theorem nextBit_cases (s : Decoder) :
    (s.nextBit = .think s.decodeBit ∧ s.decodeBit.credit < s.credit) ∨
      s.nextBit = .ask fun byte => { s with range := s.range.extend byte } := by
  unfold nextBit
  split
  · exact .inr rfl
  · rename_i high
    exact .inl ⟨rfl, s.credit_decodeBit_lt (by simpa using high)⟩

/-- The moves that respect the credit of the state they are made in. -/
abbrev Sound (s : Decoder) (move : Move Fault Decoder) : Prop :=
  move.Sound credit byteCredit s.credit

theorem sound_nextBit (s : Decoder) : s.Sound s.nextBit := by
  rcases s.nextBit_cases with ⟨same, less⟩ | same
  · rw [same]; exact less
  · rw [same]; exact fun byte => Nat.lt_of_succ_lt (s.credit_range_lt _)

theorem sound_finish (s : Decoder) (otherwise : Move Fault Decoder)
    (sound : s.Sound otherwise) : s.Sound (s.finish otherwise) := by
  unfold finish
  split
  · exact fun byte => Nat.lt_of_succ_lt (s.credit_range_lt _)
  · split
    · exact Nat.le_refl _
    · exact sound

theorem sound_put (s : Decoder) (byte : UInt8) (phase : Phase)
    (less : phase.credit < s.phase.credit) : s.Sound (s.put byte phase) := by
  unfold put
  split
  · simp only [Move.Sound, credit]; omega
  · trivial
  · simp only [Move.Sound, credit]; omega

theorem sound_move (s : Decoder) : s.Sound s.move := by
  unfold move
  split
  · rename_i phase
    intro byte
    have fill := s.credit_range_lt (s.range.fill byte)
    have same : (s.range.fill byte).width = s.range.width := rfl
    simp only [credit, phase, Phase.credit, same] at fill ⊢
    split
    · simp only [fail]; omega
    · split <;> (simp only [same]; omega)
  · rename_i phase
    split
    · apply sound_finish
      split
      · simp [Move.Sound, credit, phase, Phase.credit]
      · trivial
    · exact s.sound_nextBit
  · rename_i phase
    exact s.sound_put _ _ (by simp [phase, Phase.credit])
  · rename_i phase
    apply s.sound_put
    rw [phase]
    split <;> simp only [Phase.credit] <;> omega
  · exact s.sound_finish _ trivial
  · trivial
  · exact s.sound_nextBit

end Decoder

/-- Decoding LZMA data is a decoding machine: every bit makes the range smaller,
and what the range loses pays for the bytes put. -/
instance : Machine Fault Decoder where
  move := Decoder.move
  credit := Decoder.credit
  gain := Decoder.byteCredit
  sound := Decoder.sound_move

end DiskStaging.Lzma
