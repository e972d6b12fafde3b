import DiskStaging.Bytes

/-!
# Branches with absolute targets

Machine code packs better when its branches name the place they lead to and not
the distance to it. Decoding recognises the branches again and gives them their
distance back.

What counts as a branch depends on the instruction set. A window of a fixed size
slides over the code and shows one instruction at a time. A branch in the window
is decoded and leaves it as a whole; else the window slides on to the next place
where an instruction may start. Bytes that never fill a window stay as they are.
-/

set_option autoImplicit false

namespace DiskStaging.Lzma

/-- An instruction set whose branches can be stored with absolute targets. -/
inductive InstructionSet where
  | x86
  | powerPC
  | itanium
  | arm
  | thumb
  | sparc
  | arm64
  deriving DecidableEq, Repr

namespace InstructionSet

/-- How many bytes show a branch. -/
def window : InstructionSet → Nat
  | .x86 => 5
  | .itanium => 16
  | _ => 4

/-- How many bytes instructions are apart at least; code starts at a multiple of it. -/
def stride : InstructionSet → Nat
  | .x86 => 1
  | .thumb => 2
  | .itanium => 16
  | _ => 4

end InstructionSet

namespace Branch

/-! ## Instructions of one word

Each function is given the position and the instruction there, and decodes the
instruction if it is a branch.
-/

/-- The bits of a word that a mask picks. -/
def pick (mask word : UInt32) : UInt32 := word &&& mask

/-- Branches with link of the ARM instruction set. Their targets count words and
are relative to the place two instructions further. -/
def arm (position word : UInt32) : Option UInt32 :=
  if word >>> 24 = 0xEB then
    let target := ((word <<< 2) - (position + 8)) >>> 2
    some (pick 0x00FFFFFF target ||| 0xEB000000)
  else none

/-- Branches with link of the Thumb instruction set: two half words, each with
eleven bits of the target, the high ones first. -/
def thumb (position word : UInt32) : Option UInt32 :=
  if pick 0xF800F800 word = 0xF800F000 then
    let source : UInt32 := pick 0x7FF word <<< 11 ||| pick 0x7FF (word >>> 16)
    let target := ((source <<< 1) - (position + 4)) >>> 1
    some (pick 0x7FF (target >>> 11) ||| pick 0x7FF target <<< 16 ||| 0xF800F000)
  else none

/-- Relative branches with link of the PowerPC instruction set. -/
def powerPC (position word : UInt32) : Option UInt32 :=
  if pick 0xFC000003 word = 0x48000001 then
    some (pick 0x03FFFFFF (pick 0x03FFFFFC word - position) ||| 0x48000001)
  else none

/-- Calls of the SPARC instruction set whose distance fits into 23 bits. -/
def sparc (position word : UInt32) : Option UInt32 :=
  if word >>> 22 = 0x100 || word >>> 22 = 0x1FF then
    let target := ((word <<< 2) - position) >>> 2
    let sign : UInt32 := if pick 0x400000 target = 0 then 0 else 0x3FC00000
    some (pick 0x3FFFFF target ||| sign ||| 0x40000000)
  else none

/-- Branches with link of the ARM64 instruction set, and the computation of page
addresses that are not far away. -/
def arm64 (position word : UInt32) : Option UInt32 :=
  if word >>> 26 = 0x25 then
    some (pick 0x03FFFFFF (word - (position >>> 2)) ||| 0x94000000)
  else if pick 0x9F000000 word = 0x90000000 then
    let source := pick 3 (word >>> 29) ||| pick 0x001FFFFC (word >>> 3)
    if pick 0x001C0000 (source + 0x00020000) ≠ 0 then none
    else
      let target := source - (position >>> 12)
      let sign : UInt32 := if pick 0x00020000 target = 0 then 0 else 0x00E00000
      some (pick 0x9000001F word ||| pick 3 target <<< 29 |||
        pick 0x0003FFFC target <<< 3 ||| sign)
  else none

/-! ## Bundles of instructions

Itanium code comes in bundles of 16 bytes: five bits say which units the three
instructions of the bundle, of 41 bits each, are for.
-/

/-- The instructions of a bundle that are for a branch unit, one bit for each. -/
def branchUnits (bundle : Nat) : Nat :=
  [0, 0, 0, 0, 0, 0, 0, 0, 0, 0, 0, 0, 0, 0, 0, 0,
    4, 4, 6, 6, 0, 0, 7, 7, 4, 4, 0, 0, 4, 4, 0, 0].getD (bundle % 32) 0

/-- Relative calls of the Itanium instruction set. The target counts bundles; its
highest bit stands apart from the others. -/
def itanium (position : UInt32) (word : Nat) : Nat :=
  if word >>> 37 = 5 && word >>> 9 % 8 = 0 then
    let source := UInt32.ofNat (word >>> 13 % 1 <<< 20 + (word >>> 36 % 2) <<< 20)
    let target := (((source <<< 4) - position) >>> 4).toNat
    word - (word >>> 13 % 1 <<< 20) <<< 13 - (word >>> 36 % 2) <<< 36
      + (target % 1 <<< 20) <<< 13 + (target >>> 20 % 2) <<< 36
  else word

/-- Decodes one instruction of a bundle. -/
def itaniumSlot (position : UInt32) (bundle slot : Nat) : Nat :=
  if (branchUnits bundle).testBit slot then
    let start := 5 + 41 * slot
    let word := bundle >>> start % 1 <<< 41
    bundle - word <<< start + itanium position word <<< start
  else bundle

/-! ## Instructions of the x86 family

Calls and jumps are an opcode byte and a distance of four bytes. Instructions may
start anywhere, so an opcode that stands within the distance of another one is
likely to be no instruction. Opcodes that were passed over leave a mark.
-/

/-- What is known of the opcodes before some position. -/
structure Opcodes where
  /-- Where the last one stood. -/
  last : UInt32
  /-- Which of the last places hold an opcode that was no branch, the nearest one
  in the lowest bit, and in the upper four bits which of them had a likely target. -/
  marks : UInt8

namespace Opcodes

/-- No opcode has been seen. -/
def none : Opcodes := ⟨0 - 5, 0⟩

/-- Marks that are so many places further away. -/
def age : Nat → UInt8 → UInt8
  | 0, marks => marks
  | places + 1, marks => age places ((marks &&& 0x77) <<< 1)

/-- The marks as seen from an opcode at the given position. -/
def marksAt (opcodes : Opcodes) (position : UInt32) : UInt8 :=
  let places := (position - opcodes.last).toNat
  if places > 5 then 0 else age places opcodes.marks

end Opcodes

/-- Whether the highest byte of a target is that of a short distance. -/
def isLikely (byte : UInt8) : Bool := byte = 0 || byte = 0xFF

/-- Whether an opcode behind such marks may start a branch. -/
def isAllowed (marks : UInt8) : Bool :=
  let places := marks >>> 1
  places < 0x10 && (places = 0 || places = 1 || places = 2 || places = 4)

/-- The distance that an absolute target stands for. Where a marked opcode shares
bytes with the target, those bytes must not look like a likely target of it;
if they would, they are stored inverted. -/
def x86Distance (marks : UInt8) (position target : UInt32) : UInt32 :=
  let distance := target - (position + 5)
  if marks = 0 then distance
  else
    let shift : UInt32 := if marks >>> 1 = 1 then 16 else if marks >>> 1 = 2 then 8 else 0
    if isLikely (distance >>> shift).toUInt8 then
      (distance ^^^ ((0x100 <<< shift) - 1)) - (position + 5)
    else distance

/-- A distance as it is written: the highest byte repeats the bit below it. -/
def x86Signed (distance : UInt32) : UInt32 :=
  pick 0x00FFFFFF distance ||| (if pick 0x01000000 distance = 0 then 0 else 0xFF000000)

/-- Decodes the branch at the given position, if there is one, and takes note of
the opcode there. -/
def x86 (position : UInt32) (opcodes : Opcodes) (opcode : UInt8) (target : UInt32) :
    Option UInt32 × Opcodes :=
  if opcode ≠ 0xE8 && opcode ≠ 0xE9 then (none, opcodes)
  else
    let marks := opcodes.marksAt position
    let likely := isLikely (target >>> 24).toUInt8
    if likely && isAllowed marks then
      (some (x86Signed (x86Distance marks position target)), ⟨position, 0⟩)
    else (none, ⟨position, marks ||| 1 ||| (if likely then 0x10 else 0)⟩)

/-! ## The contents of a window -/

/-- An instruction of one word, its lowest byte first. -/
def littleWord (decode : UInt32 → Option UInt32) (bytes : Bytes) : Option Bytes :=
  (decode (UInt32.ofNat (Bytes.little bytes))).map (Bytes.ofLittle 4 ·.toNat)

/-- An instruction of one word, its highest byte first. -/
def bigWord (decode : UInt32 → Option UInt32) (bytes : Bytes) : Option Bytes :=
  (decode (UInt32.ofNat (Bytes.big bytes))).map (Bytes.ofBig 4 ·.toNat)

/-- Decodes a full window at the given position, if it shows a branch. -/
def ofWindow (set : InstructionSet) (position : UInt32) (opcodes : Opcodes) (bytes : Bytes) :
    Option Bytes × Opcodes :=
  match set with
  | .x86 =>
    let opcode := bytes.headD 0
    let (distance, opcodes) :=
      x86 position opcodes opcode (UInt32.ofNat (Bytes.little (bytes.drop 1)))
    (distance.map (opcode :: Bytes.ofLittle 4 ·.toNat), opcodes)
  | .powerPC => (bigWord (powerPC position) bytes, opcodes)
  | .itanium =>
    (some (Bytes.ofLittle 16 ([0, 1, 2].foldl (itaniumSlot position) (Bytes.little bytes))),
      opcodes)
  | .arm => (littleWord (arm position) bytes, opcodes)
  | .thumb => (littleWord (thumb position) bytes, opcodes)
  | .sparc => (bigWord (sparc position) bytes, opcodes)
  | .arm64 => (littleWord (arm64 position) bytes, opcodes)

/-- A decoded branch is as long as the window that showed it. -/
theorem length_of_ofWindow {set : InstructionSet} {position : UInt32} {opcodes : Opcodes}
    {bytes whole : Bytes} (shown : (ofWindow set position opcodes bytes).1 = some whole) :
    whole.length = set.window := by
  cases set with
  | x86 =>
    obtain ⟨_, _, rfl⟩ := Option.map_eq_some_iff.1 shown
    simp [InstructionSet.window]
  | itanium =>
    cases shown
    simp [InstructionSet.window]
  | powerPC | sparc =>
    obtain ⟨_, _, rfl⟩ := Option.map_eq_some_iff.1 shown
    simp [InstructionSet.window]
  | arm | thumb | arm64 =>
    obtain ⟨_, _, rfl⟩ := Option.map_eq_some_iff.1 shown
    simp [InstructionSet.window]

end Branch

/-- Code that has been decoded up to some position. -/
structure Branch where
  set : InstructionSet
  /-- The position of the first byte in the window. -/
  position : UInt32
  opcodes : Branch.Opcodes
  /-- The bytes in the window. -/
  held : Bytes

namespace Branch

/-- No code has been seen; the first byte has the given position. -/
def start (set : InstructionSet) (position : UInt32) : Branch := ⟨set, position, .none, []⟩

/-- The window with the first bytes decoded and taken out. -/
def release (branch : Branch) (opcodes : Opcodes) (decoded held : Bytes) : Bytes × Branch :=
  (decoded, { branch with
    position := branch.position + UInt32.ofNat decoded.length, opcodes, held })

/-- One more byte of code: what leaves the window. -/
def step (branch : Branch) (byte : UInt8) : Bytes × Branch :=
  let bytes := branch.held ++ [byte]
  if bytes.length < branch.set.window then ([], { branch with held := bytes })
  else
    match ofWindow branch.set branch.position branch.opcodes bytes with
    | (some whole, opcodes) =>
      branch.release opcodes whole (bytes.drop branch.set.window)
    | (none, opcodes) =>
      branch.release opcodes (bytes.take branch.set.stride) (bytes.drop branch.set.stride)

/-- A byte that enters the window leaves it once. -/
theorem length_step (branch : Branch) (byte : UInt8) :
    (branch.step byte).1.length + (branch.step byte).2.held.length = branch.held.length + 1 := by
  unfold step
  dsimp only
  split
  · simp
  · rename_i full
    split
    · rename_i whole opcodes shown
      have long := length_of_ofWindow (congrArg Prod.fst shown)
      simp only [release, List.length_drop]
      simp only [List.length_append, List.length_singleton] at full ⊢
      omega
    · simp only [release, ← List.length_append, List.take_append_drop]
      simp

end Branch

end DiskStaging.Lzma
