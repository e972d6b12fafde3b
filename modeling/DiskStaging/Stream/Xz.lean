import DiskStaging.Coding.Fed
import DiskStaging.Lzma.AnyFormat
import DiskStaging.Stream.Reader

/-!
# Reading xz data

Xz data is a row of streams. The first one is followed by others until the data
ends, or until something comes that cannot be the start of a stream, which is
ignored. The streams may be in any of the LZMA formats.

A read gives what one block of input, or what was left of it, decodes to, as soon
as that is anything at all.
-/

set_option autoImplicit false

namespace DiskStaging

open Coding

/-- The decoder of one stream. -/
abbrev XzDecoder := Fed Lzma.Fault Lzma.AnyFormat

/-- The state of reading xz data. -/
structure XzRow where
  decoder : XzDecoder := .fresh .start
  /-- Whether the row is over. -/
  finished : Bool := false

namespace XzRow

variable {σ : Type}

/-- Decodes a block of input. -/
def decode (decoder : XzDecoder) (block : Bytes) (room : Nat) :
    Fed.Decoded Lzma.Fault Lzma.AnyFormat :=
  decoder.decode .stale block room

theorem decode_bound_of_fault (decoder : XzDecoder) (block : Bytes) (room more : Nat)
    (going : decoder.machine.stopped = false) {why : Lzma.Fault}
    (failed : (decode decoder block room).fault = some why) :
    (decode decoder block room).feed.bound
        ((decode decoder block room).feed.held.length + more) ≤
      decoder.bound ((decoder.held ++ block).length + more) :=
  Fed.decode_bound_of_fault _ decoder block room more going failed

/-- Gives what was decoded, if anything. -/
def give (given : Bytes) : Option Bytes := if given.isEmpty then none else some given

theorem turnCost_give_le (given : Bytes) : turnCost (give given) ≤ max 1 given.length := by
  unfold give
  split <;> simp only [turnCost] <;> omega

theorem decode_bound (decoder : XzDecoder) (block : Bytes) {room : Nat} (space : 0 < room)
    (more : Nat) (going : decoder.machine.stopped = false)
    (fed : decoder.hungry = true → decoder.held ++ block ≠ [])
    (sane : (decode decoder block room).fault = none) :
    turnCost (give (decode decoder block room).given) +
        (decode decoder block room).feed.bound
          ((decode decoder block room).feed.held.length + more) ≤
      decoder.bound ((decoder.held ++ block).length + more) :=
  Nat.le_trans (Nat.add_le_add_right (turnCost_give_le _) _)
    (Fed.decode_bound _ decoder block space more going fed sane)

/-- Input for the stream behind the present one, which may be held already. -/
def nextInput (below : Reader σ) (held : Bytes) : Act σ Bytes :=
  if held.isEmpty then below.read (some blockSize) else pure held

/-- Decodes the first block of a stream. What is no stream ends the row. -/
def firstBlock (decoder : XzDecoder) (block : Bytes) (room : Nat) (state : σ) :
    Ending (XzRow × σ) (Option Bytes) :=
  match decode decoder block room with
  | ⟨decoder, _, some _⟩ => .ok (some []) (⟨decoder, true⟩, state)
  | ⟨decoder, given, none⟩ => .ok (give given) (⟨decoder, false⟩, state)

/-- Begins the stream behind the present one, if there is one. -/
def nextStream (below : Reader σ) (room : Nat) : Act (XzRow × σ) (Option Bytes) :=
  fun (row, state) =>
    match nextInput below row.decoder.held state with
    | .error fault state => .error fault (row, state)
    | .ok [] state => .ok (some []) ({ row with finished := true }, state)
    | .ok (byte :: more) state => firstBlock (.fresh .start) (byte :: more) room state

/-- Input for the present stream, if its decoder needs it. -/
def moreInput (below : Reader σ) (hungry : Bool) : Act σ Bytes := fun state =>
  if hungry then
    match below.read (some blockSize) state with
    | .ok [] state => .error .cutShort state
    | ending => ending
  else .ok [] state

/-- Goes on with the present stream. -/
def sameStream (below : Reader σ) (room : Nat) : Act (XzRow × σ) (Option Bytes) :=
  fun (⟨decoder, finished⟩, state) =>
    match moreInput below decoder.hungry state with
    | .error fault state => .error fault (⟨decoder, finished⟩, state)
    | .ok block state =>
      match decode decoder block room with
      | ⟨decoder, _, some why⟩ => .error (.lzma why) (⟨decoder, finished⟩, state)
      | ⟨decoder, given, none⟩ => .ok (give given) (⟨decoder, finished⟩, state)

/-- Decodes one block. -/
def turn (below : Reader σ) (room : Nat) : Act (XzRow × σ) (Option Bytes) := fun (row, state) =>
  if row.finished then .ok (some []) (row, state)
  else if row.decoder.machine.stopped then nextStream below room (row, state)
  else sameStream below room (row, state)

/-! ## Every read comes to its end -/

/-- A bound on the bytes that can still be given. -/
def left (below : Reader σ) (state : XzRow × σ) : Nat :=
  state.1.decoder.bound (state.1.decoder.held.length + below.left state.2)

theorem nextInput_within (below : Reader σ) (held : Bytes) (state : σ) :
    match nextInput below held state with
    | .ok block after => block.length + below.left after ≤ held.length + below.left state
    | .error _ after => below.left after ≤ below.left state := by
  have spent := below.thrifty (some blockSize) state
  unfold nextInput
  cases held with
  | nil =>
    simp only [List.isEmpty_nil, if_true]
    cases read : below.read (some blockSize) state <;> rw [read] at spent <;>
      simpa [Ending.Within] using spent
  | cons => exact Nat.le_refl _

theorem held_of_nextInput {below : Reader σ} {held : Bytes} {state after : σ}
    (read : nextInput below held state = .ok [] after) : held = [] := by
  unfold nextInput at read
  split at read
  · simpa using ‹held.isEmpty›
  · cases read
    rfl

theorem moreInput_within (below : Reader σ) (hungry : Bool) (state : σ) :
    Ending.Within below.left List.length (below.left state) (moreInput below hungry state) := by
  have spent := below.thrifty (some blockSize) state
  unfold moreInput
  split
  · split
    · rename_i read
      rw [read] at spent
      simpa [Ending.Within] using spent
    · exact spent
  · simp [Ending.Within]

theorem moreInput_ne_nil {below : Reader σ} {state after : σ} {block : Bytes}
    (read : moreInput below true state = .ok block after) : block ≠ [] := by
  unfold moreInput at read
  simp only [if_true] at read
  split at read
  · cases read
  · rename_i some
    rintro rfl
    exact some _ read

theorem stopped_fresh : (Fed.fresh Lzma.AnyFormat.start).machine.stopped = false := rfl

theorem fresh_bound_le (decoder : XzDecoder) (input : Nat) :
    (Fed.fresh Lzma.AnyFormat.start).bound input ≤ decoder.bound input :=
  Fed.bound_fresh_le rfl decoder input

theorem firstBlock_within (below : Reader σ) (decoder : XzDecoder) {block : Bytes} {room : Nat}
    (space : 0 < room) (some : block ≠ []) (going : decoder.machine.stopped = false)
    (empty : decoder.held = []) (state : σ) :
    Ending.Within (left below) turnCost (decoder.bound (block.length + below.left state))
      (firstBlock decoder block room state) := by
  have failed := decode_bound_of_fault decoder block room (below.left state)
  have given := decode_bound decoder block space (below.left state)
  rw [empty, List.nil_append] at failed given
  unfold firstBlock
  generalize decode decoder block room = decoded at *
  obtain ⟨next, content, fault⟩ := decoded
  cases fault with
  | some why =>
    simpa only [Ending.Within, left, turnCost, List.length_nil, Nat.zero_add] using failed going rfl
  | none => simpa only [Ending.Within, left] using given going (fun _ => some) rfl

theorem nextStream_within (below : Reader σ) {room : Nat} (space : 0 < room)
    (state : XzRow × σ) :
    Ending.Within (left below) turnCost (left below state) (nextStream below room state) := by
  obtain ⟨⟨decoder, finished⟩, state⟩ := state
  have spent := nextInput_within below decoder.held state
  simp only [nextStream]
  cases read : nextInput below decoder.held state with
  | error fault after =>
    rw [read] at spent
    exact decoder.bound_mono (Nat.add_le_add_left spent _)
  | ok block after =>
    rw [read] at spent
    cases block with
    | nil =>
      have none := held_of_nextInput read
      have less := decoder.bound_mono spent
      simpa [Ending.Within, left, turnCost, none] using less
    | cons byte more =>
      have fewer := decoder.bound_mono spent
      have begun := fresh_bound_le decoder ((byte :: more).length + below.left after)
      exact (firstBlock_within below (.fresh .start) space (List.cons_ne_nil _ _) stopped_fresh
        rfl after).mono (Nat.le_trans begun fewer)

theorem sameStream_within (below : Reader σ) {room : Nat} (space : 0 < room)
    (state : XzRow × σ) (going : state.1.decoder.machine.stopped = false) :
    Ending.Within (left below) turnCost (left below state) (sameStream below room state) := by
  obtain ⟨⟨decoder, finished⟩, state⟩ := state
  have spent := moreInput_within below decoder.hungry state
  simp only [sameStream]
  cases read : moreInput below decoder.hungry state with
  | error fault after =>
    rw [read] at spent
    exact decoder.bound_mono (Nat.add_le_add_left spent _)
  | ok block after =>
    rw [read] at spent
    have fed : decoder.hungry = true → decoder.held ++ block ≠ [] := by
      intro hungry
      rw [hungry] at read
      simp [moreInput_ne_nil read]
    have fewer : decoder.bound ((decoder.held ++ block).length + below.left after) ≤
        decoder.bound (decoder.held.length + below.left state) := by
      simp only [Ending.Within] at spent
      refine decoder.bound_mono ?_
      rw [List.length_append]
      omega
    have failed := decode_bound_of_fault decoder block room (below.left after)
    have given := decode_bound decoder block space (below.left after)
    dsimp only
    generalize decode decoder block room = decoded at *
    obtain ⟨next, content, fault⟩ := decoded
    cases fault with
    | some why =>
      have less := Nat.le_trans (failed going rfl) fewer
      simpa only [Ending.Within, left] using less
    | none =>
      have less := Nat.le_trans (given going fed rfl) fewer
      simpa only [Ending.Within, left] using less

/-- A turn with room for output is paid for. -/
theorem turn_thrifty (below : Reader σ) {room : Nat} (space : 0 < room) :
    Thrifty (left below) turnCost (turn below room) := by
  intro state
  simp only [turn]
  split
  · simp [Ending.Within, turnCost]
  · split
    · exact nextStream_within below space state
    · rename_i going
      exact sameStream_within below space state (by simpa using going)

/-- Reads what xz data decodes to, a piece at a time. -/
def read (below : Reader σ) (size : Option Nat) : Act (XzRow × σ) Bytes := fun state =>
  if space : 0 < size.getD largestCount then
    untilGiven (turn below (size.getD largestCount)) (turn_thrifty below space) state
  else .ok [] state

/-- What xz data decodes to. -/
def reader (below : Reader σ) : Reader (XzRow × σ) where
  read := read below
  left := left below
  thrifty size state := by
    unfold read
    split
    · exact untilGiven_thrifty _ state
    · simp [Ending.Within]

end XzRow

end DiskStaging
