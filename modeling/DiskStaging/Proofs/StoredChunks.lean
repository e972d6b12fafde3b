import DiskStaging.Lzma.Block
import DiskStaging.Proofs.MachineWays

/-!
# Blocks of an xz stream that store their content

The chunks of a block may store their bytes as they are, up to 65536 of them each, behind a
control byte and the size. The first chunk makes the decoder forget the dictionary, and any
other one may. Such chunks decode to what they hold (`Chunks.way_stored`), and so does the
block that they are the data of, if the sizes that its header states and the check that is
behind it are right (`Block.way_stored`).
-/

set_option autoImplicit false

namespace DiskStaging.Lzma

open Coding

/-! ## Writing chunks -/

/-- A chunk that stores its content. -/
structure StoredChunk where
  content : Bytes
  /-- Whether the decoder has to forget the dictionary. -/
  reset : Bool
  some : content ≠ []
  fits : content.length ≤ 65536

namespace StoredChunk

/-- The bytes of a chunk. The first one of a block has to reset the decoder. -/
def encode (chunk : StoredChunk) (first : Bool) : Bytes :=
  (if first || chunk.reset then 1 else 2) ::
    (Bytes.ofBig 2 (chunk.content.length - 1) ++ chunk.content)

/-- The bytes of some chunks and the end of the data. -/
def encodeAll (first : Bool) : List StoredChunk → Bytes
  | [] => [0]
  | chunk :: more => chunk.encode first ++ encodeAll false more

/-- What some chunks hold. -/
def contentOf (chunks : List StoredChunk) : Bytes := chunks.flatMap content

end StoredChunk

/-! ## Reading chunks -/

namespace Chunks

/-- A control byte comes next, and if the dictionary has to be forgotten then the chunk is the
first one. -/
structure Ready (s : Chunks) (first : Bool) : Prop where
  phase : s.phase = .control
  reset : s.needsReset = true → first = true

theorem ready_start (dictionary : Nat) : (start dictionary).Ready true := ⟨rfl, fun _ => rfl⟩

variable {decoder : Decoder} {needsReset needsProperties : Bool}

/-- The content of a chunk is put byte by byte. -/
theorem way_content {content : Bytes} (some : content ≠ []) :
    Way (Chunks.mk decoder needsReset needsProperties (.stored (content.length - 1)))
      content content
      ⟨content.foldl Decoder.keep decoder, needsReset, needsProperties, .control⟩ := by
  induction content generalizing decoder with
  | nil => exact absurd rfl some
  | cons byte rest ih =>
    -- The machine waits for room before it takes a byte, so this holds of no empty content.
    refine .pause rfl some (.ask rfl (.put rfl ?_))
    cases rest with
    | nil => exact .here _
    | cons next more => exact ih (List.cons_ne_nil next more)

/-- Two bytes state the size of a chunk, less one. -/
theorem way_size {size : Nat} (fits : size < 65536) :
    Way (Chunks.mk decoder needsReset needsProperties .storedHigh) (Bytes.ofBig 2 size) []
      ⟨decoder, needsReset, needsProperties, .stored size⟩ := by
  have spelled :
      (UInt8.ofNat (size / 256)).toNat * 256 + (UInt8.ofNat size).toNat = size := by
    rw [UInt8.toNat_ofNat', UInt8.toNat_ofNat']
    omega
  refine .ask rfl (.ask rfl ?_)
  rw [spelled]
  exact .here _

/-- What is behind the control byte gives the content, and the next chunk need not reset the
decoder. -/
theorem way_sized (decoder : Decoder) (needsProperties : Bool) (chunk : StoredChunk) :
    ∃ next : Chunks, next.Ready false ∧
      Way (Chunks.mk decoder false needsProperties .storedHigh)
        (Bytes.ofBig 2 (chunk.content.length - 1) ++ chunk.content) chunk.content next := by
  have size : chunk.content.length - 1 < 65536 := by
    have some := List.length_pos_iff.mpr chunk.some
    have fits := chunk.fits
    omega
  refine ⟨_, ?_, (way_size size).first (way_content chunk.some)⟩
  exact ⟨rfl, nofun⟩

/-- **A stored chunk gives its content.** -/
theorem way_chunk {s : Chunks} {first : Bool} (ready : s.Ready first) (chunk : StoredChunk) :
    ∃ next : Chunks, next.Ready false ∧ Way s (chunk.encode first) chunk.content next := by
  obtain ⟨decoder, needsReset, needsProperties, phase⟩ := s
  obtain ⟨rfl, reset⟩ := ready
  cases resets : first || chunk.reset with
  | true =>
    obtain ⟨next, ready, way⟩ := way_sized { decoder with window := #[] } true chunk
    refine ⟨next, ready, ?_⟩
    rw [StoredChunk.encode, resets]
    exact .ask rfl (.pause rfl chunk.some way)
  | false =>
    have again : needsReset = false := by
      cases needsReset with
      | false => rfl
      | true =>
        rw [reset rfl] at resets
        cases resets
    obtain ⟨next, ready, way⟩ := way_sized decoder needsProperties chunk
    refine ⟨next, ready, ?_⟩
    rw [StoredChunk.encode, resets, again]
    exact .ask rfl way

/-- **Stored chunks give their contents**, one after the other. -/
theorem way_stored {s : Chunks} {first : Bool} (ready : s.Ready first)
    (chunks : List StoredChunk) :
    ∃ last : Chunks, last.phase = .ended ∧
      Way s (StoredChunk.encodeAll first chunks) (StoredChunk.contentOf chunks) last := by
  induction chunks generalizing s first with
  | nil =>
    obtain ⟨decoder, needsReset, needsProperties, phase⟩ := s
    obtain ⟨rfl, -⟩ := ready
    exact ⟨_, rfl, .ask rfl (.here _)⟩
  | cons chunk more ih =>
    obtain ⟨next, ready, way⟩ := way_chunk ready chunk
    obtain ⟨last, ended, on⟩ := ih ready
    exact ⟨last, ended, way.trans on⟩

end Chunks

/-! ## The data of a block -/

namespace Check

/-- The check with some more bytes. -/
def absorbAll (check : Check) : Bytes → Check
  | [] => check
  | byte :: rest => (check.absorb byte).absorbAll rest

theorem absorbAll_none (bytes : Bytes) : Check.none.absorbAll bytes = .none := by
  induction bytes with
  | nil => rfl
  | cons byte rest ih => exact ih

theorem absorbAll_crc32 (value : UInt32) (bytes : Bytes) :
    (Check.crc32 value).absorbAll bytes = .crc32 (Checksum.crc32 value bytes) := by
  induction bytes generalizing value with
  | nil => rw [Checksum.crc32_nil, absorbAll]
  | cons byte rest ih =>
    rw [← List.singleton_append, Checksum.crc32_append]
    exact ih _

end Check

namespace BlockFrame

variable {frame : BlockFrame} {input output : Bytes} {byte : UInt8}

/-- The frame with some input taken and some output put. -/
def after (frame : BlockFrame) (input output : Bytes) : BlockFrame :=
  { frame with
    packed := frame.packed + input.length
    unpacked := frame.unpacked + output.length
    check := frame.check.absorbAll output }

/-- Taking some input and putting some output does not go beyond the sizes that the header
states. -/
structure Allows (frame : BlockFrame) (input output : Bytes) : Prop where
  packed : ∀ size ∈ frame.statedPacked, frame.packed + input.length ≤ size
  unpacked : ∀ size ∈ frame.statedUnpacked, frame.unpacked + output.length ≤ size

theorem allows_of_fits (fits : (frame.after input output).fits = true) :
    frame.Allows input output := by
  rw [BlockFrame.fits, Bool.and_eq_true, Option.all_eq_true, Option.all_eq_true] at fits
  refine ⟨?_, ?_⟩
  · intro size stated
    exact Nat.le_of_eq (of_decide_eq_true (fits.1 size stated)).symm
  · intro size stated
    exact Nat.le_of_eq (of_decide_eq_true (fits.2 size stated)).symm

theorem Allows.not_allTaken (allows : frame.Allows (byte :: input) output) :
    frame.allTaken = false := by
  refine decide_eq_false ?_
  intro stated
  have less := allows.packed _ stated
  rw [List.length_cons] at less
  omega

theorem Allows.not_allPut (allows : frame.Allows input output) (some : output ≠ []) :
    frame.allPut = false := by
  refine decide_eq_false ?_
  intro stated
  have less := allows.unpacked _ stated
  have more := List.length_pos_iff.mpr some
  omega

theorem Allows.take (allows : frame.Allows (byte :: input) output) :
    frame.take.Allows input output := by
  refine ⟨?_, allows.unpacked⟩
  intro size stated
  have less := allows.packed size stated
  rw [List.length_cons] at less
  simp only [BlockFrame.take]
  omega

theorem Allows.put (allows : frame.Allows input (byte :: output)) :
    (frame.put byte).Allows input output := by
  refine ⟨allows.packed, ?_⟩
  intro size stated
  have less := allows.unpacked size stated
  rw [List.length_cons] at less
  simp only [BlockFrame.put]
  omega

theorem after_take : frame.take.after input output = frame.after (byte :: input) output := by
  simp only [after, take, List.length_cons, Nat.add_assoc, Nat.add_comm 1]

theorem after_put :
    (frame.put byte).after input output = frame.after input (byte :: output) := by
  simp only [after, put, List.length_cons, Check.absorbAll, Nat.add_assoc, Nat.add_comm 1]

end BlockFrame

namespace Block

variable {frame : BlockFrame} {input output : Bytes}

/-- **The chunks of a block go their way inside it**, as long as it stays within the sizes
that the header states. -/
theorem way_data {chunks last : Chunks} (way : Way chunks input output last)
    (allows : frame.Allows input output) :
    Way (Block.data chunks [] [] frame) input output
      (.data last [] [] (frame.after input output)) := by
  have moves (chunks : Chunks) (frame : BlockFrame) :
      Machine.move (Block.data chunks [] [] frame) = dataMove [] frame (Machine.move chunks) := rfl
  -- What the sizes still allow is just what is left of the way, so no move of it is an overrun.
  induction way generalizing frame with
  | here => exact .here _
  | @ask chunks _ _ _ _ _ next _ ih =>
    have asks := moves chunks frame
    rw [next, dataMove, allows.not_allTaken] at asks
    rw [← BlockFrame.after_take]
    exact .ask asks (ih allows.take)
  | @put chunks _ _ _ _ _ next _ ih =>
    have puts := moves chunks frame
    rw [next] at puts
    simp only [dataMove, Stage.feedAll, putMove, allows.not_allPut (List.cons_ne_nil _ _)] at puts
    rw [← BlockFrame.after_put]
    exact .put puts (ih allows.put)
  | @think chunks _ _ _ _ next _ ih =>
    have thinks := moves chunks frame
    rw [next] at thinks
    exact .think thinks (ih allows)
  | @pause chunks _ _ _ _ next some _ ih =>
    have pauses := moves chunks frame
    rw [next, dataMove, allows.not_allPut some] at pauses
    exact .pause pauses some (ih allows)

/-- Zero bytes stand in front of the check. -/
theorem way_padding (size : Nat) :
    Way (Block.padding size frame) (List.replicate size 0) []
      (.check frame.expected true frame) := by
  induction size with
  | zero => exact .think rfl (.here _)
  | succ size ih => exact .ask rfl ih

/-- A check is passed by the bytes that are expected. -/
theorem way_check (bytes : Bytes) :
    Way (Block.check (bytes.map some) true frame) bytes [] (.check [] true frame) := by
  induction bytes with
  | nil => exact .here _
  | cons byte more ih =>
    refine .ask rfl ?_
    simpa using ih

/-- **A block that stores its content gives it**, if the sizes that its header states are
right and the check agrees. -/
theorem way_stored (dictionary : Nat) (chunks : List StoredChunk) {check : Bytes}
    {final : BlockFrame}
    (ends : final = frame.after (StoredChunk.encodeAll true chunks) (StoredChunk.contentOf chunks))
    (fits : final.fits = true)
    (agrees : final.expected = check.map some) :
    Way (Block.data (.start dictionary) [] [] frame)
      (StoredChunk.encodeAll true chunks ++
        (List.replicate ((4 - final.packed % 4) % 4) 0 ++ check))
      (StoredChunk.contentOf chunks) (.check [] true final) := by
  obtain ⟨last, ended, way⟩ := Chunks.way_stored (Chunks.ready_start dictionary) chunks
  have data : Way (Block.data (.start dictionary) [] [] frame) _ _ _ :=
    way_data way (BlockFrame.allows_of_fits (ends ▸ fits))
  rw [← ends] at data
  have tail : Way (Block.data last [] [] final) [] [] (.tail [] final) := by
    refine .think ?_ (.here _)
    obtain ⟨decoder, needsReset, needsProperties, phase⟩ := last
    cases ended
    rfl
  have padding : Way (Block.tail [] final) [] [] (.padding ((4 - final.packed % 4) % 4) final) := by
    refine .think ?_ (.here _)
    exact if_pos fits
  have padded : Way (Block.padding _ final) _ [] (.check final.expected true final) :=
    way_padding ((4 - final.packed % 4) % 4)
  rw [agrees] at padded
  have all := data.trans (tail.trans (padding.trans (padded.trans (way_check check))))
  simpa only [List.nil_append, List.append_nil] using all

end Block

end DiskStaging.Lzma
