import DiskStaging.Checksum.Crc
import DiskStaging.Stream.Pushback

/-!
# Reading gzip data

Gzip data is a row of members, each a header, deflate data and a trailer with the
check value and the size of the content. Zero bytes may pad the space between
members and behind the last one; anything else that is no member is a fault.

A read gives what one block of input, or what was left of it, decodes to, as soon
as that is anything at all. So the trailer is looked at when the next bytes are
asked for, not together with the last ones.
-/

set_option autoImplicit false

namespace DiskStaging

open Coding Deflate

/-- The state of reading gzip data. -/
structure Gzip where
  /-- Whether a header comes next. -/
  between : Bool := true
  inflate : Pending Deflate.Fault Inflate := .of Inflate.start
  /-- The check value of what the member gave so far. -/
  check : UInt32 := 0
  /-- The size of what the member gave so far. -/
  size : Nat := 0

namespace Gzip

variable {σ φ : Type}

/-! ## Headers and trailers -/

/-- The flags of a member's header that announce a further field. -/
def hasExtra (flags : UInt8) : Bool := flags &&& 4 ≠ 0

@[inherit_doc hasExtra] def hasName (flags : UInt8) : Bool := flags &&& 8 ≠ 0

@[inherit_doc hasExtra] def hasComment (flags : UInt8) : Bool := flags &&& 16 ≠ 0

@[inherit_doc hasExtra] def hasHeaderCheck (flags : UInt8) : Bool := flags &&& 2 ≠ 0

/-- The one compression method there is. -/
def deflateMethod : UInt8 := 8

/-- Skips a field that may be missing. -/
def skipIf (present : Bool) (skip : Act φ Unit) : Act φ Unit := if present then skip else pure ()

/-- Skips a field of the given size. -/
def skipSized (input : Reader φ) (size : Nat) : Act φ Unit := do
  let _ ← input.exactly size

/-- Skips a field that states its size, a number of 16 bits. -/
def skipExtra (input : Reader φ) : Act φ Unit := do
  let size ← input.exactly 2
  skipSized input (Bytes.little size % 1 <<< 16)

/-- Skips a field that ends with a zero byte, or where the data ends. -/
def skipText (input : Reader φ) : Act φ Unit := do
  let _ ← input.skipTo (· = 0)

/-- Skips the fields behind the fixed part of a header. -/
def skipFields (input : Reader φ) (flags : UInt8) : Act φ Unit := do
  skipIf (hasExtra flags) (skipExtra input)
  skipIf (hasName flags) (skipText input)
  skipIf (hasComment flags) (skipText input)
  skipIf (hasHeaderCheck flags) (skipSized input 2)

/-- Reads a member's header behind its magic. -/
def readFixed (input : Reader φ) : Act φ Bool := do
  let fixed ← input.exactly 8
  if fixed.head? ≠ some deflateMethod then
    throw (.gzip .method)
  else
    skipFields input (fixed[1]?.getD 0)
    return true

/-- Reads the header of a member; there may be none where the data ends. -/
def readHeader (input : Reader φ) : Act φ Bool := do
  let magic ← input.read (some 2)
  if magic.isEmpty then
    return false
  else if magic ≠ [0x1F, 0x8B] then
    throw (.gzip (.magic magic))
  else
    readFixed input

/-- Reads the trailer of a member and compares it with what the member gave. -/
def readTrailer (input : Reader φ) (check : UInt32) (size : Nat) : Act φ Unit := do
  let trailer ← input.exactly 8
  if Bytes.little (trailer.take 4) ≠ check.toNat then
    throw (.gzip (.check (Bytes.little (trailer.take 4)) check.toNat))
  else if Bytes.little (trailer.drop 4) ≠ size % 1 <<< 32 then
    throw (.gzip .length)
  else pure ()

section Congruence

variable {input : Reader φ} {other : Reader σ}
  {related : (α : Type) → Act φ α → Act σ α → Prop}

theorem skipIf_congr (congr : input.Congruence other related) {present : Bool}
    {skip : Act φ Unit} {following : Act σ Unit} (same : related Unit skip following) :
    related Unit (skipIf present skip) (skipIf present following) := by
  unfold skipIf
  split
  · exact same
  · exact congr.pure ()

theorem skipSized_congr (congr : input.Congruence other related) (size : Nat) :
    related Unit (skipSized input size) (skipSized other size) :=
  congr.bind (congr.exactly size) fun _ => congr.pure ()

theorem skipExtra_congr (congr : input.Congruence other related) :
    related Unit (skipExtra input) (skipExtra other) :=
  congr.bind (congr.exactly 2) fun _ => skipSized_congr congr _

theorem skipText_congr (congr : input.Congruence other related) :
    related Unit (skipText input) (skipText other) :=
  congr.bind (congr.skipTo _) fun _ => congr.pure ()

theorem skipFields_congr (congr : input.Congruence other related) (flags : UInt8) :
    related Unit (skipFields input flags) (skipFields other flags) :=
  congr.bind (skipIf_congr congr (skipExtra_congr congr)) fun _ =>
    congr.bind (skipIf_congr congr (skipText_congr congr)) fun _ =>
      congr.bind (skipIf_congr congr (skipText_congr congr)) fun _ =>
        skipIf_congr congr (skipSized_congr congr 2)

/-- What relates the reads relates reading a header behind its magic. -/
theorem readFixed_congr (congr : input.Congruence other related) :
    related Bool (readFixed input) (readFixed other) := by
  refine congr.bind (congr.exactly 8) fun fixed => ?_
  split
  · exact congr.throw _
  · exact congr.bind (skipFields_congr congr _) fun _ => congr.pure true

/-- The magic is read at once, if there is as much. -/
theorem readHeader_congr (congr : input.Congruence other related)
    (magic : related Bytes (input.read (some 2)) (other.read (some 2))) :
    related Bool (readHeader input) (readHeader other) := by
  refine congr.bind magic fun magic => ?_
  split
  · exact congr.pure false
  · split
    · exact congr.throw _
    · exact readFixed_congr congr

/-- What relates the reads relates reading a trailer. -/
theorem readTrailer_congr (congr : input.Congruence other related) (check : UInt32) (size : Nat) :
    related Unit (readTrailer input check size) (readTrailer other check size) := by
  refine congr.bind (congr.exactly 8) fun trailer => ?_
  split
  · exact congr.throw _
  · split
    · exact congr.throw _
    · exact congr.pure ()

end Congruence

/-! ## Reading -/

/-- Reads the trailer of a member and the padding behind it. -/
def readEnd (below : Reader σ) (check : UInt32) (size : Nat) : Act (Option Bytes × σ) Unit := do
  readTrailer (Pushback.reader below) check size
  match ← (Pushback.reader below).skipTo (· ≠ 0) with
  | none => pure ()
  | some byte => Pushback.putBack [byte]

/-- If the member has given all its content: reads its trailer and the padding
behind it. -/
def endMember (below : Reader σ) : Act (Gzip × (Option Bytes × σ)) Unit := fun (gzip, input) =>
  if gzip.inflate.stopped then
    match readEnd below gzip.check gzip.size input with
    | .error fault input => .error fault (gzip, input)
    | .ok () input => .ok () ({}, input)
  else .ok () (gzip, input)

/-- If no member was begun: reads the header of the next one. Says whether there
is a member. -/
def beginMember (below : Reader σ) : Act (Gzip × (Option Bytes × σ)) Bool := fun (gzip, input) =>
  if gzip.between then
    match readHeader (Pushback.reader below) input with
    | .error fault input => .error fault (gzip, input)
    | .ok false input => .ok false (gzip, input)
    | .ok true input => .ok true ({ gzip with between := false, check := 0, size := 0 }, input)
  else .ok true (gzip, input)

/-- What a block of input was decoded to. -/
structure Decoded where
  gzip : Gzip
  given : Bytes
  /-- The input that was not taken. -/
  rest : Bytes
  fault : Option Deflate.Fault

/-- Decodes a block of input into at most `room` bytes. -/
def decode (gzip : Gzip) (block : Bytes) (room : Nat) : Decoded :=
  let ⟨between, inflate, check, size⟩ := gzip
  let ⟨written, rest, inflate, halt⟩ := run inflate block room #[]
  let given := written.toList
  ⟨⟨between, inflate, Checksum.crc32 check given, size + given.length⟩, given, rest, halt.fault?⟩

/-- Puts back what there is to put back. -/
def putBack (rest : Bytes) (input : Option Bytes × σ) : Option Bytes × σ :=
  if rest.isEmpty then input else Ending.state (Pushback.putBack rest input)

/-- Decodes one block, and gives what it decodes to, if anything. -/
def decodeBlock (below : Reader σ) (room : Nat) :
    Act (Gzip × (Option Bytes × σ)) (Option Bytes) := fun (gzip, input) =>
  match (Pushback.reader below).read (some blockSize) input with
  | .error fault input => .error fault (gzip, input)
  | .ok block input =>
    match decode gzip block room with
    | ⟨gzip, _, _, some why⟩ => .error (.deflate why) (gzip, input)
    | ⟨gzip, given, rest, none⟩ =>
      let input := putBack rest input
      if !given.isEmpty then .ok (some given) (gzip, input)
      else if block.isEmpty then .error .cutShort (gzip, input)
      else .ok none (gzip, input)

/-- Ends and begins members where one ends, and decodes one block. -/
def turn (below : Reader σ) (room : Nat) : Act (Gzip × (Option Bytes × σ)) (Option Bytes) := do
  endMember below
  if ← beginMember below then decodeBlock below room else return some []

/-! ## Every read comes to its end -/

/-- A bound on the bytes that can still be given. -/
def left (below : Reader σ) (state : Gzip × (Option Bytes × σ)) : Nat :=
  state.1.inflate.potential ((Pushback.reader below).left state.2)

theorem readEnd_thrifty (below : Reader σ) (check : UInt32) (size : Nat) :
    Thrifty (Pushback.reader below).left (fun _ => 0) (readEnd below check size) := by
  have trailer := readTrailer_congr (Pushback.reader below).thrifty_congruence check size
  refine .bind trailer fun _ => .spend (Reader.skipTo_thrifty _ _) ?_
  intro found state
  cases found with
  | none => exact Nat.le_refl _
  | some byte => exact Pushback.putBack_within below [byte] state

/-- A fresh decoder has nothing to give before it is fed. -/
theorem paid_start : (Pending.of Inflate.start).paid = 0 := rfl

theorem endMember_thrifty (below : Reader σ) :
    Thrifty (left below) (fun _ => 0) (endMember below) := by
  rintro ⟨gzip, input⟩
  have spent := readEnd_thrifty below gzip.check gzip.size input
  simp only [endMember]
  split
  · cases ended : readEnd below gzip.check gzip.size input <;> rw [ended] at spent <;>
      simp only [Ending.Within, left, Pending.potential, paid_start] at spent ⊢
    · have worth := Nat.mul_le_mul_left (Machine.gain Inflate) (Nat.le_of_add_left_le spent)
      omega
    · exact Nat.add_le_add_right (Nat.mul_le_mul_left _ spent) _
  · simp [Ending.Within]

/-- After a member has ended, the state is that of another one. -/
theorem stopped_endMember {below : Reader σ} {state after : Gzip × (Option Bytes × σ)}
    (ended : endMember below state = .ok () after) : after.1.inflate.stopped = false := by
  obtain ⟨gzip, input⟩ := state
  simp only [endMember] at ended
  split at ended
  · split at ended
    · cases ended
    · cases ended
      rfl
  · rename_i going
    cases ended
    simpa using going

theorem beginMember_thrifty (below : Reader σ) :
    Thrifty (left below) (fun _ => 0) (beginMember below) := by
  rintro ⟨gzip, input⟩
  have header := readHeader_congr (Pushback.reader below).thrifty_congruence
    ((Pushback.reader below).thrifty _).free
  have spent := header input
  simp only [beginMember]
  split
  · cases ended : readHeader (Pushback.reader below) input with
    | error fault after =>
      rw [ended] at spent
      exact Nat.add_le_add_right (Nat.mul_le_mul_left _ spent) _
    | ok found after =>
      rw [ended] at spent
      have worth := Nat.mul_le_mul_left (Machine.gain Inflate) (Nat.le_of_add_left_le spent)
      cases found <;> simp only [Ending.Within, left, Pending.potential] <;> omega
  · simp [Ending.Within]

theorem inflate_beginMember {below : Reader σ} {state after : Gzip × (Option Bytes × σ)}
    {found : Bool} (begun : beginMember below state = .ok found after) :
    after.1.inflate = state.1.inflate := by
  obtain ⟨gzip, input⟩ := state
  simp only [beginMember] at begun
  split at begun
  · split at begun <;> cases begun <;> rfl
  · cases begun
    rfl

theorem left_putBack (below : Reader σ) (rest : Bytes) (input : Option Bytes × σ) :
    (Pushback.reader below).left (putBack rest input) =
      rest.length + (Pushback.reader below).left input := by
  unfold putBack
  split
  · simp_all
  · exact Pushback.left_putBack below rest input

/-- What a block is decoded to is paid for by the block. -/
theorem decode_potential (gzip : Gzip) (block : Bytes) (room : Nat) :
    (decode gzip block room).given.length +
        (decode gzip block room).gzip.inflate.potential (decode gzip block room).rest.length ≤
      gzip.inflate.potential block.length := by
  have paid := (run_potential gzip.inflate block room #[]).2
  simpa [decode] using paid

/-- A block that is decoded to nothing brings the decoder closer to its end. -/
theorem decode_advances (gzip : Gzip) {block : Bytes} {room : Nat} (some : block ≠ [])
    (space : 0 < room) (going : gzip.inflate.stopped = false)
    (sane : (decode gzip block room).fault = none) (nothing : (decode gzip block room).given = []) :
    (decode gzip block room).gzip.inflate.potential (decode gzip block room).rest.length <
      gzip.inflate.potential block.length := by
  obtain ⟨byte, more, rfl⟩ := List.exists_cons_of_ne_nil some
  have advances := run_advances gzip.inflate byte more room #[] space going sane
  have empty : (run gzip.inflate (byte :: more) room #[]).written = #[] := by
    simpa [decode] using nothing
  simpa [decode, empty] using advances

/-- Decoding a block keeps within the bound, and what it decodes to is taken off. -/
theorem decodeBlock_within (below : Reader σ) {room : Nat} (space : 0 < room)
    (state : Gzip × (Option Bytes × σ)) (going : state.1.inflate.stopped = false) :
    Ending.Within (left below) turnCost (left below state) (decodeBlock below room state) := by
  obtain ⟨gzip, input⟩ := state
  have spent := (Pushback.reader below).thrifty (some blockSize) input
  unfold decodeBlock
  dsimp only
  cases read : (Pushback.reader below).read (some blockSize) input with
  | error fault after =>
    rw [read] at spent
    exact Nat.add_le_add_right (Nat.mul_le_mul_left _ spent) _
  | ok block after =>
    rw [read] at spent
    have worth := Nat.mul_le_mul_left (Machine.gain Inflate) spent
    have paid := decode_potential gzip block room
    have advances (some : block ≠ []) := decode_advances gzip some space
    rcases shape : decode gzip block room with ⟨machine, given, rest, fault⟩
    simp only [shape, Nat.mul_add, Pending.potential] at worth paid advances
    cases fault with
    | some why =>
      simp only [shape, Ending.Within, left, Pending.potential]
      omega
    | none =>
      simp only [shape]
      split
      · simp only [Ending.Within, left, left_putBack, turnCost, Pending.potential, Nat.mul_add]
        omega
      · rename_i nothing
        split
        · simp only [Ending.Within, left, left_putBack, Pending.potential, Nat.mul_add]
          omega
        · rename_i some
          have advance := advances (by simpa using some) going rfl (by simpa using nothing)
          simp only [Ending.Within, left, left_putBack, turnCost, Pending.potential, Nat.mul_add]
          omega

/-- A turn with room for output is paid for. -/
theorem turn_thrifty (below : Reader σ) {room : Nat} (space : 0 < room) :
    Thrifty (left below) turnCost (turn below room) := by
  intro state
  have first := endMember_thrifty below state
  simp only [turn, Bind.bind, EStateM.bind]
  cases ended : endMember below state with
  | error fault after =>
    rw [ended] at first
    exact first
  | ok value after =>
    rw [ended] at first
    have going := stopped_endMember ended
    have second := (beginMember_thrifty below after).mono (Nat.le_of_add_left_le first)
    dsimp only
    cases begun : beginMember below after with
    | error fault last =>
      rw [begun] at second
      exact second
    | ok found last =>
      rw [begun] at second
      cases found with
      | false => simpa [Ending.Within, turnCost, pure, EStateM.pure] using second
      | true =>
        rw [← inflate_beginMember begun] at going
        exact (decodeBlock_within below space last going).mono (Nat.le_of_add_left_le second)

/-- Reads what gzip data decodes to, a piece at a time. -/
def read (below : Reader σ) (size : Option Nat) : Act (Gzip × (Option Bytes × σ)) Bytes :=
  fun state =>
    if space : 0 < size.getD largestCount then
      untilGiven (turn below (size.getD largestCount)) (turn_thrifty below space) state
    else .ok [] state

/-- What gzip data decodes to. -/
def reader (below : Reader σ) : Reader (Gzip × (Option Bytes × σ)) where
  read := read below
  left := left below
  thrifty size state := by
    unfold read
    split
    · exact untilGiven_thrifty _ state
    · simp [Ending.Within]

end Gzip

end DiskStaging
