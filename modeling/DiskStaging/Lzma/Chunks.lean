import DiskStaging.Lzma.Decoder

/-!
# LZMA data in chunks

Inside an xz stream, LZMA data comes as a sequence of chunks (the LZMA2
format). A control byte starts each chunk and says whether its bytes are coded
or stored as they are, how much of the decoder's memory is forgotten, and, for
coded chunks, the high bits of the decoded size. A zero byte ends the data.

Forgetting the dictionary makes the decoder hand out all it has put before it
goes on, which is why there has to be room behind such a control byte.
-/

set_option autoImplicit false

namespace DiskStaging.Lzma

open Coding

/-- What the next byte of chunked data is for, or what else is due. -/
inductive ChunkPhase where
  /-- Takes a control byte. -/
  | control
  /-- Goes on behind a forgotten dictionary. -/
  | forgotten (next : ChunkPhase)
  /-- Takes the middle byte of the decoded size of a coded chunk. -/
  | decodedHigh (control : UInt8)
  /-- Takes the lowest byte of the decoded size. -/
  | decodedLow (control : UInt8) (decoded : Nat)
  /-- Takes the high byte of the coded size. -/
  | codedHigh (control : UInt8) (decoded : Nat)
  /-- Takes the low byte of the coded size. -/
  | codedLow (control : UInt8) (decoded coded : Nat)
  /-- Takes the properties of a coded chunk. -/
  | properties (decoded coded : Nat)
  /-- Decodes a coded chunk; so many bytes of it are still to be taken. -/
  | coded (left : Nat)
  /-- Takes the high byte of the size of a stored chunk. -/
  | storedHigh
  /-- Takes the low byte of the size of a stored chunk. -/
  | storedLow (size : Nat)
  /-- Waits for room for a stored byte; so many follow it. -/
  | stored (more : Nat)
  /-- Takes a stored byte. -/
  | storedTake (more : Nat)
  /-- Puts a stored byte. -/
  | storedPut (byte : UInt8) (more : Nat)
  | ended
  | broken

/-- What going on from a phase costs until the next byte is taken. -/
def ChunkPhase.credit : ChunkPhase → Nat
  | .forgotten next => next.credit + 1
  | .coded _ => 1
  | .stored _ => 1
  | .storedPut .. => 2
  | _ => 0

/-- Chunked data that has been decoded in part, and whether the next chunk must
forget the dictionary and state the properties. -/
structure Chunks where
  decoder : Decoder
  needsReset : Bool
  needsProperties : Bool
  phase : ChunkPhase

namespace Chunks

/-- Nothing has been decoded yet. -/
def start (dictionary : Nat) : Chunks :=
  ⟨.start ⟨0, 0, 0⟩ dictionary (some 0) false, true, true, .control⟩

/-- Forgets all bytes put. -/
def forget (s : Chunks) : Chunks :=
  { s with decoder := { s.decoder with window := #[] } }

/-- A control byte has been taken. -/
def takeControl (s : Chunks) (control : UInt8) : Chunks :=
  let reset := control ≥ 0xE0 || control = 1
  if control = 0 then { s with phase := .ended }
  else if !reset && s.needsReset then { s with phase := .broken }
  else
    let needsProperties := reset || s.needsProperties
    let s := { s with needsReset := false, needsProperties }
    if control ≥ 0x80 then
      if control ≥ 0xC0 then
        let s := { s with needsProperties := false }
        if reset then { s.forget with phase := .forgotten (.decodedHigh control) }
        else { s with phase := .decodedHigh control }
      else if needsProperties then { s with phase := .broken }
      else { s with phase := .decodedHigh control }
    else if control > 2 then { s with phase := .broken }
    else if reset then { s.forget with phase := .forgotten .storedHigh }
    else { s with phase := .storedHigh }

/-- Forgets all odds and distances. -/
def renew (s : Chunks) (properties : Properties) : Chunks :=
  { s with decoder := s.decoder.renew properties }

/-- Goes on to a coded chunk of the given sizes, both of them one less. -/
def startCoded (s : Chunks) (decoded coded : Nat) : Chunks :=
  { s with decoder := s.decoder.restart (decoded + 1), phase := .coded (coded + 1) }

/-- The sizes of a coded chunk have been taken. -/
def takeSizes (s : Chunks) (control : UInt8) (decoded coded : Nat) : Chunks :=
  if control ≥ 0xC0 then { s with phase := .properties decoded coded }
  else if control ≥ 0xA0 then (s.renew s.decoder.properties).startCoded decoded coded
  else s.startCoded decoded coded

/-- The next move. -/
def move : Chunks → Move Fault Chunks
  | ⟨decoder, needsReset, needsProperties, phase⟩ =>
    let goOn (decoder : Decoder) (phase : ChunkPhase) : Chunks :=
      ⟨decoder, needsReset, needsProperties, phase⟩
    match phase with
    | .control => .ask (goOn decoder .control).takeControl
    | .forgotten next => .pause (goOn decoder next)
    | .decodedHigh control => .ask fun byte =>
      goOn decoder (.decodedLow control (control.toNat % 32 * 65536 + byte.toNat * 256))
    | .decodedLow control decoded => .ask fun byte =>
      goOn decoder (.codedHigh control (decoded + byte.toNat))
    | .codedHigh control decoded => .ask fun byte =>
      goOn decoder (.codedLow control decoded (byte.toNat * 256))
    | .codedLow control decoded coded => .ask fun byte =>
      (goOn decoder .broken).takeSizes control decoded (coded + byte.toNat)
    | .properties decoded coded => .ask fun byte =>
      match Properties.ofByte? byte with
      | none => goOn decoder .broken
      | some properties => ((goOn decoder .broken).renew properties).startCoded decoded coded
    | .coded left =>
      match decoder.move with
      | .ask next => .ask fun byte =>
        match left with
        | 0 => goOn (next byte) .broken
        | left + 1 => goOn (next byte) (.coded left)
      | .put byte next => .put byte (goOn next (.coded left))
      | .think next => .think (goOn next (.coded left))
      | .pause next => .pause (goOn next (.coded left))
      | .stop last => if left = 0 then .think (goOn last .control) else .fail .corrupt
      | .fail why => .fail why
    | .storedHigh => .ask fun byte => goOn decoder (.storedLow (byte.toNat * 256))
    | .storedLow size => .ask fun byte => goOn decoder (.stored (size + byte.toNat))
    | .stored more => .pause (goOn decoder (.storedTake more))
    | .storedTake more => .ask fun byte => goOn decoder (.storedPut byte more)
    | .storedPut byte more =>
      .put byte (goOn (decoder.keep byte)
        (match more with | 0 => .control | more + 1 => .stored more))
    | .ended => .stop (goOn decoder .ended)
    | .broken => .fail .corrupt

/-! ## Credit -/

/-- The credit of the decoder pays for what a chunk puts. -/
def credit (s : Chunks) : Nat := s.decoder.credit + s.phase.credit

/-- What one byte of input adds to the credit at most. -/
@[irreducible] def byteCredit : Nat := Decoder.byteCredit + 3

theorem credit_start_lt (dictionary : Nat) : (start dictionary).credit < byteCredit := by
  have := Decoder.credit_start_lt ⟨0, 0, 0⟩ dictionary (some 0) false
  simp only [credit, start, ChunkPhase.credit, byteCredit]
  omega

theorem credit_startCoded_lt (s : Chunks) (decoded coded paid : Nat) :
    (s.startCoded decoded coded).credit < paid + byteCredit := by
  have := s.decoder.credit_restart_lt (decoded + 1)
  simp only [credit, startCoded, ChunkPhase.credit, byteCredit]
  omega

theorem credit_takeSizes_lt (s : Chunks) (control : UInt8) (decoded coded : Nat) :
    (s.takeSizes control decoded coded).credit < s.decoder.credit + byteCredit := by
  unfold takeSizes
  split
  · simp only [credit, ChunkPhase.credit, byteCredit]; omega
  · split <;> exact credit_startCoded_lt ..

theorem credit_takeControl_lt (s : Chunks) (control : UInt8) :
    (s.takeControl control).credit < s.decoder.credit + byteCredit := by
  have small {next : Chunks} (same : next.decoder.credit = s.decoder.credit)
      (cheap : next.phase.credit ≤ 1) : next.credit < s.decoder.credit + byteCredit := by
    simp only [credit, byteCredit]; omega
  unfold takeControl
  dsimp only
  repeat' split
  all_goals exact small rfl (by simp [ChunkPhase.credit])

theorem sound_move (s : Chunks) : s.move.Sound credit byteCredit s.credit := by
  have paid (next : Chunks) (more : Nat) (less : next.credit < s.decoder.credit + byteCredit) :
      next.credit < s.decoder.credit + more + byteCredit := by omega
  obtain ⟨decoder, needsReset, needsProperties, phase⟩ := s
  cases phase with
  | control => exact fun byte => paid _ _ (credit_takeControl_lt _ byte)
  | codedLow control decoded coded => exact fun byte => paid _ _ (credit_takeSizes_lt _ _ _ _)
  | properties decoded coded =>
    intro byte
    dsimp only
    split
    · simp only [credit, ChunkPhase.credit, byteCredit]; omega
    · exact credit_startCoded_lt ..
  | coded left =>
    have inner := decoder.sound_move
    simp only [move]
    split <;> rename_i same <;> simp only [same, Decoder.Sound, Move.Sound] at inner
    · intro byte
      have := inner byte
      split <;> simp only [credit, ChunkPhase.credit, byteCredit] <;> omega
    · simp only [Move.Sound, credit, ChunkPhase.credit]; omega
    · simp only [Move.Sound, credit, ChunkPhase.credit]; omega
    · simp only [Move.Sound, credit, ChunkPhase.credit]; omega
    · split
      · simp only [Move.Sound, credit, ChunkPhase.credit]; omega
      · trivial
    · trivial
  | forgotten next => simp [move, Move.Sound, credit, ChunkPhase.credit]
  | stored more => simp [move, Move.Sound, credit, ChunkPhase.credit]
  | storedPut byte more =>
    have kept : (decoder.keep byte).credit = decoder.credit := rfl
    simp only [move, Move.Sound, credit, kept, ChunkPhase.credit]
    split <;> simp only [ChunkPhase.credit] <;> omega
  | ended => exact Nat.le_refl _
  | broken => trivial
  | _ =>
    simp only [move, Move.Sound, credit, ChunkPhase.credit, byteCredit]
    intro byte
    omega

end Chunks

/-- Decoding chunked data is a decoding machine. -/
instance : Machine Fault Chunks where
  move := Chunks.move
  credit := Chunks.credit
  gain := Chunks.byteCredit
  sound := Chunks.sound_move

end DiskStaging.Lzma
