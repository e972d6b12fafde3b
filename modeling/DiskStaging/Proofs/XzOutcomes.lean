import DiskStaging.Proofs.SizedReads
import DiskStaging.Proofs.Sniffing

/-!
# What becomes of xz data

Xz data that come whole are classified and read to the end with one outcome: they are told to
be an image and all of it is read, or something goes wrong on the way. Neither the pieces in
which they arrive nor the sizes of the looks and reads decide which of the two it is, with two
exceptions (`xz_outcome`).

One exception is data with something behind a complete stream that begins as a stream does and
turns out to be none (`XzRow.Doubtful`). It is ignored if enough of it comes in one block, and
reported otherwise; so such data may be imported or not, depending on how they arrive.

The other is a size that does not fit, either to look at so many bytes or to read as many where
all that was looked at is read (`Unfit`). This always goes wrong, however the data arrive.
-/

set_option autoImplicit false

namespace DiskStaging

/-! ## Reading to the end -/

namespace Content

variable {content : Content} {sizes : Nat → Option Nat}

/-- Reads content with one size after the other until nothing comes. -/
def readAll (content : Content) (sizes : Nat → Option Nat) : Option Bytes :=
  (Streams.reader content.count (Fin.last _)).readAll sizes content.streams

/-- Reading the newest stream is reading what it has shown and then its unpacker. -/
theorem readAll_newest {count : Nat} (below : Fin (count + 1))
    (state : Lookahead × Unpacker × Streams count) :
    readAll ⟨Streams.ofNewest below state⟩ sizes =
      (Lookahead.reader (Unpacker.reader (Streams.reader count below))).readAll sizes state := by
  refine Reader.readAll_inside (Streams.ofNewest below) ?_ sizes state
  intro size state
  rw [Streams.reader_last]
  rfl

theorem Promises.readAll {target : Bytes → Prop} (promises : content.Promises target)
    (asked : ∀ turn, sizes turn ≠ some 0) {all : Bytes} (read : content.readAll sizes = some all) :
    target all := by
  obtain ⟨past, breaks, continued, held⟩ := promises
  exact continued.readAll asked held read

theorem Splits.readAll {leading rest : Bytes} (splits : content.Splits true leading rest)
    (asked : ∀ turn, sizes turn ≠ some 0) (fits : ¬ Overasks sizes (leading.length, rest.length)) :
    content.readAll sizes = some (leading ++ rest) := by
  obtain ⟨count, below, unpacker, older, holds, rfl, serves, held⟩ := splits
  let state : Lookahead × Unpacker × Streams count := ({ peeked := leading }, unpacker, older)
  exact (readAll_newest below state).trans (Lookahead.readAll_of_fits serves asked rfl held fits)

end Content

/-- Classifies a source by so many leading bytes and reads it to the end with one size after the
other. Gives what was found and all that was read, or nothing if something went wrong. -/
def Source.unpack (source : Source) (size : Int) (sizes : Nat → Option Nat) :
    Option (Sniffed × Bytes) :=
  match sniff size (.ofSource source) with
  | .error _ _ => none
  | .ok found content => (content.readAll sizes).map (found, ·)

/-! ## Something behind the streams -/

namespace XzRow

open Coding

/-- Behind a stream, or behind those that follow it, comes something that begins as a stream
does and turns out to be none. -/
inductive Doubtful : Stream → Prop
  | behind {stream : Stream} {byte : UInt8} {more : Bytes} {why : Lzma.Fault}
    (stopped : stream.machine.stopped = true) (rest : stream.rest = byte :: more)
    (begins : ¬ Refused byte) (other : (finish fresh stream.rest).machine.fault? = some why) :
    Doubtful stream
  | later {stream : Stream} (stopped : stream.machine.stopped = true)
    (rest : Doubtful (finish fresh stream.rest)) : Doubtful stream

/-- Nothing is not found to be broken. -/
theorem fault?_nil : (finish fresh []).machine.fault? = none := by
  rw [fresh, finish_of]
  rfl

theorem Doubtful.stopped {stream : Stream} (doubtful : Doubtful stream) :
    stream.machine.stopped = true := by
  cases doubtful <;> assumption

/-- A stream with nothing behind it is not doubtful. -/
theorem not_doubtful_of_rest {stream : Stream} (nothing : stream.rest = []) :
    ¬ Doubtful stream := by
  rintro (⟨-, rest, -, -⟩ | ⟨-, later⟩)
  · cases nothing.symm.trans rest
  · rw [nothing] at later
    cases going_nil.symm.trans later.stopped

/-- What yields some content is a row of complete streams, unless it is doubtful. -/
theorem decodes_of_yields {stream : Stream} {image : Bytes} (yields : Yields stream image)
    (sure : ¬ Doubtful stream) :
    ∃ more, image = stream.written ++ more ∧ Decodes true stream.rest more := by
  induction yields with
  | @last stream stopped nothing =>
    rw [nothing]
    exact ⟨[], (List.append_nil _).symm, .nothing⟩
  | @ignored stream why stopped other =>
    refine ⟨[], (List.append_nil _).symm, ?_⟩
    cases rest : stream.rest with
    | nil =>
      rw [rest, fault?_nil] at other
      cases other
    | cons byte more =>
      have refused : Refused byte :=
        Classical.byContradiction fun begins => sure (.behind stopped rest begins other)
      exact .refused rfl refused
  | @next stream image stopped yields ih =>
    obtain ⟨more, rfl, decodes⟩ := ih fun doubtful => sure (.later stopped doubtful)
    exact ⟨_, rfl, .stream yields.stopped decodes⟩

end XzRow

section Outcomes

variable {data image : Bytes} {size : Nat} {source : Source} {sizes : Nat → Option Nat}

/-- What is found and read of xz data is what they yield, and the format is that of the image. -/
theorem yields_of_unpack (enough : qcow2HeaderSize ≤ size)
    (magic : Image.compressionMagic .xz <+: data) (arrives : source.Holds true data)
    (asked : ∀ turn, sizes turn ≠ some 0) {found : Sniffed}
    (unpacked : source.unpack size sizes = some (found, image)) :
    XzRow.Yields (Coding.finish XzRow.fresh data) image ∧
      Image.format image = .ok found.format ∧ found.compression = some .xz := by
  unfold Source.unpack at unpacked
  cases sniffed : sniff size (.ofSource source) with
  | error fault content =>
    rw [sniffed] at unpacked
    cases unpacked
  | ok sniff content =>
    rw [sniffed] at unpacked
    obtain ⟨all, read, same⟩ := Option.map_eq_some_iff.mp unpacked
    cases same
    have last : true = true → ([] : Bytes) = [] := fun _ => rfl
    have promises := promises_of_sniff_xz enough (Source.serves true) arrives magic last sniffed
    obtain ⟨yields, format⟩ := promises.readAll asked read
    rw [List.append_nil] at yields
    exact ⟨yields, format, compression_of_sniff enough (Source.serves true) arrives
      (Image.compression?_xz magic) sniffed⟩

/-- The sizes do not fit data that hold so many bytes: more is looked at than fits, or more than
fits is read behind what was looked at. -/
def Unfit (size : Nat) (sizes : Nat → Option Nat) (length : Nat) : Prop :=
  Excessive (some size) ∨ Overasks sizes (min size length, length - size)

/-- Complete streams that hold an image are told to be one, and all of it is read. -/
theorem unpack_of_decodes (enough : qcow2HeaderSize ≤ size)
    (magic : Image.compressionMagic .xz <+: data) (arrives : source.Holds true data)
    (asked : ∀ turn, sizes turn ≠ some 0) (fits : ¬ Unfit size sizes image.length)
    {format : ImageFormat} (ends : XzRow.Ends true (Coding.finish XzRow.fresh data) image true)
    (told : Image.format image = .ok format) :
    source.unpack size sizes = some (⟨format, some .xz⟩, image) := by
  obtain ⟨seen, read⟩ := not_or.mp fits
  have unpacked := sniff_xz enough seen (Source.serves true) arrives magic ends
  unfold Source.unpack
  cases sniffed : sniff size (.ofSource source) with
  | error fault content =>
    rw [sniffed] at unpacked
    rcases unpacked with broken | ⟨why, faulty, -⟩
    · cases broken
    · cases told.symm.trans faulty
  | ok found content =>
    rw [sniffed] at unpacked
    obtain ⟨compressed, same, -, splits⟩ := unpacked
    obtain ⟨found, compression⟩ := found
    cases compressed
    cases told.symm.trans same
    rw [← List.length_take, ← List.length_drop] at read
    have all := splits.readAll asked read
    rw [List.take_append_drop] at all
    dsimp only
    rw [all]
    rfl

/-- What is read of xz data was read with sizes that fit. -/
theorem fits_of_unpack (enough : qcow2HeaderSize ≤ size)
    (magic : Image.compressionMagic .xz <+: data) (arrives : source.Holds true data)
    (asked : ∀ turn, sizes turn ≠ some 0) {found : Sniffed}
    (unpacked : source.unpack size sizes = some (found, image)) :
    ¬ Unfit size sizes image.length := by
  obtain ⟨yields, -, -⟩ := yields_of_unpack enough magic arrives asked unpacked
  unfold Source.unpack at unpacked
  cases sniffed : sniff size (.ofSource source) with
  | error fault content =>
    rw [sniffed] at unpacked
    cases unpacked
  | ok sniff content =>
    rw [sniffed] at unpacked
    obtain ⟨all, read, same⟩ := Option.map_eq_some_iff.mp unpacked
    cases same
    have last : true = true → ([] : Bytes) = [] := fun _ => rfl
    obtain ⟨front, unpacker, older, rfl, opened, within, every, -⟩ :=
      kept_of_sniff_xz enough (Source.serves true) arrives magic last sniffed
    rw [List.append_nil] at every
    rw [Content.readAll_newest] at read
    obtain ⟨rest, rfl, fits⟩ := Lookahead.fits_of_readAll
      (Unpacker.xz_thorough (Streams.root_serves (Source.serves true)) last)
      (fun _ _ => XzRow.Yields.unique)
      (fun size state excessive => ⟨_, _, Unpacker.read_excessive excessive state⟩) asked opened
      read
    have shown : min size (front.peeked ++ rest).length = front.peeked.length ∧
        (front.peeked ++ rest).length - size = rest.length := by
      by_cases short : front.peeked.length < size
      · obtain rfl : rest = [] :=
          List.append_right_eq_self.mp (XzRow.Yields.unique yields (every short))
        simp only [List.append_nil, List.length_nil]
        omega
      · rw [List.length_append]
        omega
    rintro (excessive | overasks)
    · obtain ⟨fault, after, broken⟩ := sniff_excessive enough (Source.serves true) arrives
        (Image.compression?_xz magic) excessive
      cases sniffed.symm.trans broken
    · rw [shown.1, shown.2] at overasks
      exact fits overasks

/-- What data come to if all that they yield is read. -/
inductive Outcome (data : Bytes) : Option (Sniffed × Bytes) → Prop
  /-- They hold an image. -/
  | image {image : Bytes} {format : ImageFormat}
    (yields : XzRow.Yields (Coding.finish XzRow.fresh data) image)
    (told : Image.format image = .ok format) : Outcome data (some (⟨format, some .xz⟩, image))
  /-- They are not complete, or what they hold is no image. -/
  | failure (imageless : ∀ image format, XzRow.Yields (Coding.finish XzRow.fresh data) image →
      Image.format image ≠ .ok format) : Outcome data none

/-- **How xz data arrive does not decide what becomes of them**, and neither do sizes that fit,
unless something doubtful is behind their streams. Then these may decide whether anything becomes
of the data, but not what. With sizes that do not fit (`Unfit`), nothing becomes of the data,
however they arrive. -/
theorem xz_outcome {data : Bytes} (magic : Image.compressionMagic .xz <+: data) :
    ∃ outcome, Outcome data outcome ∧
      ∀ (size : Nat) (source : Source) (sizes : Nat → Option Nat), qcow2HeaderSize ≤ size →
        source.Holds true data → (∀ turn, sizes turn ≠ some 0) →
          ((∀ result ∈ outcome, ¬ Unfit size sizes result.2.length) →
            source.unpack size sizes = outcome ∨
              XzRow.Doubtful (Coding.finish XzRow.fresh data) ∧
                source.unpack size sizes = none) ∧
          (∀ result ∈ outcome, Unfit size sizes result.2.length →
            source.unpack size sizes = none) := by
  by_cases holds : ∃ image format, XzRow.Yields (Coding.finish XzRow.fresh data) image ∧
      Image.format image = .ok format
  · obtain ⟨image, format, yields, told⟩ := holds
    refine ⟨_, .image yields told, fun size source sizes enough arrives asked => ?_⟩
    cases unpacked : source.unpack size sizes with
    | some result =>
      obtain ⟨⟨found, compression⟩, read⟩ := result
      obtain ⟨others, same, rfl⟩ := yields_of_unpack enough magic arrives asked unpacked
      obtain rfl := yields.unique others
      cases told.symm.trans same
      refine ⟨fun _ => .inl rfl, ?_⟩
      rintro _ ⟨⟩ unfit
      exact absurd unfit (fits_of_unpack enough magic arrives asked unpacked)
    | none =>
      refine ⟨fun fits => .inr ⟨Classical.byContradiction fun sure => ?_, rfl⟩, fun _ _ _ => rfl⟩
      obtain ⟨more, rfl, decodes⟩ := XzRow.decodes_of_yields yields sure
      have done := unpack_of_decodes enough magic arrives asked (fits _ rfl)
        (.whole yields.stopped decodes) told
      cases unpacked.symm.trans done
  · refine ⟨none, .failure fun image format yields told => holds ⟨image, format, yields, told⟩, ?_⟩
    intro size source sizes enough arrives asked
    refine ⟨fun _ => .inl ?_, nofun⟩
    cases unpacked : source.unpack size sizes with
    | none => rfl
    | some result =>
      obtain ⟨found, image⟩ := result
      obtain ⟨yields, told, -⟩ := yields_of_unpack enough magic arrives asked unpacked
      exact absurd ⟨image, found.format, yields, told⟩ holds

/-- An xz stream that holds the same letter again and again. -/
def lettersStream : Bytes :=
  [0xFD, 0x37, 0x7A, 0x58, 0x5A, 0, 0, 0, 0xFF, 0x12, 0xD9, 0x41, 2, 0, 0x21, 1, 0x16, 0, 0,
    0, 0x74, 0x2F, 0xE5, 0xA3, 1, 0, 0x1B] ++ List.replicate 28 0x41 ++
  [0, 0, 1, 0x2C, 0x1C, 0xCA, 0x82, 0xB6, 0x0D, 6, 0x72, 0x9E, 0x7A, 1, 0, 0, 0, 0, 0, 0x59,
    0x5A]

/-- The letters are told to be an image and all read, even if the stream comes byte by byte and
more of it is asked for at every turn. -/
theorem xz_outcome_letters :
    Source.unpack { rest := lettersStream, most := some 1 } (72 : Nat)
        (fun turn => some (turn + 1)) =
      some (⟨.raw, some .xz⟩, List.replicate 28 0x41) := by
  have magic : Image.compressionMagic .xz <+: lettersStream := ⟨_, rfl⟩
  obtain ⟨outcome, comes, same⟩ := xz_outcome magic
  have last : (Coding.finish XzRow.fresh lettersStream).rest = [] := by decide +kernel
  have yields :
      XzRow.Yields (Coding.finish XzRow.fresh lettersStream) (List.replicate 28 0x41) := by
    have written : (Coding.finish XzRow.fresh lettersStream).written = List.replicate 28 0x41 := by
      decide +kernel
    rw [← written]
    exact .last (by decide +kernel) last
  have told : Image.format (List.replicate 28 0x41) = .ok .raw := by decide +kernel
  have arrives : Source.Holds true { rest := lettersStream, most := some 1 } lettersStream :=
    ⟨by decide, rfl, rfl⟩
  obtain rfl : outcome = some (⟨.raw, some .xz⟩, List.replicate 28 0x41) := by
    cases comes with
    | image others format =>
      obtain rfl := yields.unique others
      cases told.symm.trans format
      rfl
    | failure imageless => exact absurd told (imageless _ _ yields)
  let sizes : Nat → Option Nat := fun turn => some (turn + 1)
  have asked : ∀ turn, sizes turn ≠ some 0 := fun _ => nofun
  have fits : ¬ Unfit 72 sizes 28 := by
    have seen : ¬ Excessive (some 72) := by decide
    refine not_or.mpr ⟨seen, not_overasks asked ?_⟩
    intro turn within
    exact fits_of_le seen (Nat.succ_le_succ (Nat.le_trans within (by decide)))
  obtain ⟨single, -⟩ := same 72 _ sizes (by decide) arrives asked
  have either := single fun _ same => Option.some.inj same ▸ fits
  exact either.resolve_right fun ⟨doubtful, _⟩ => XzRow.not_doubtful_of_rest last doubtful

/-- With five more bytes behind it, the same stream is read to its end if it comes at once, and
breaks off if it comes byte by byte. -/
theorem xz_outcome_doubtful :
    let trailed := lettersStream ++ [0, 1, 2, 3, 4]
    Source.unpack { rest := trailed } 72 (fun _ => none) =
        some (⟨.raw, some .xz⟩, List.replicate 28 0x41) ∧
      Source.unpack { rest := trailed, most := some 1 } 72 (fun _ => none) = none := by
  decide +kernel

end Outcomes

end DiskStaging
