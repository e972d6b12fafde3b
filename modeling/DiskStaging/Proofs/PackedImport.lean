import DiskStaging.Proofs.BrokenImport
import DiskStaging.Proofs.StoredGzip
import DiskStaging.Proofs.StoredXz

/-!
# Importing compressed images

What becomes of compressed data is told by what they decode to, and not by the pieces that
they arrive in or by the number of bytes that are copied at a time. If they are complete,
classifying them leads where the header of the image says, and a transfer writes the whole
image (`Session.imported_gzip`, `Session.imported_xz`). If they are not, `info` or the
transfer reports it (`Session.fails_incomplete`). So the pieces never decide between success
and failure (`Session.import_gzip_in_any_pieces`), and an image that is stored in gzip
members or in xz streams comes out as it went in (`Session.import_stored_gzip`,
`Session.import_stored_xz`).

All this takes for granted that the number of bytes that are copied at a time fits. If it does
not, `info` tells the image all the same, but the transfer fails behind what `info` has
looked at (`Session.Overasked`).
-/

set_option autoImplicit false

namespace DiskStaging.Session

/-- `info` tells a compressed image by its own header, and then every transfer that this
calls for ends in some way, given the session before it, the path and the place of its target,
and the phase that it leads to. -/
def Tells (session : Session) (compression : Compression) (image : Bytes)
    (ends : Session → Path → Place → Phase → Ending Session (Option PhaseResult) → Prop) : Prop :=
  ∃ after, perform .info session = .ok (some (verdict image)) after ∧
    after.intake.phase = some (verdict image).phase ∧ after.files = session.files ∧
      (∀ format, Image.format image = .ok format →
        after.intake.format = some format ∧ after.intake.compression = some compression) ∧
        ∀ files step path place next,
          Target files step (verdict image).phase path place next →
            ends { after with files } path place next (perform step { after with files })

/-- `info` tells a compressed image by its own header, and then every transfer that this
calls for delivers the image to its target. -/
def Imported (session : Session) (compression : Compression) (image : Bytes) : Prop :=
  session.Tells compression image fun before path place next =>
    Delivered before path place next image

/-- `info` tells a compressed image by its own header, but then every transfer that this
calls for asks for more bytes at a time than fit. It reports that, and leaves in its target
what `info` has looked at. -/
def Overasked (session : Session) (compression : Compression) (image : Bytes) : Prop :=
  session.Tells compression image fun before path place _ ending =>
    CutOff session.intake.location.url before.files place (· = image.take 512) ending ∧
      ∃ size after, sizeAsked session.intake.chunk = some size ∧
        ending = .ok (some ⟨.error, some (.copy path.render (.tooLarge size))⟩) after

/-- A compressed image is imported, if the number of bytes that are copied at a time fits. -/
structure ImportedIfFits (session : Session) (compression : Compression) (image : Bytes) :
    Prop where
  imported : ¬ Excessive (sizeAsked session.intake.chunk) → session.Imported compression image
  overasked : Excessive (sizeAsked session.intake.chunk) → session.Overasked compression image

section Packed

variable {settings : IntakeSettings} {session : Session} {source : Source} {data : Bytes}

/-- What compressed data that are complete and whole come to is up to the transfer. -/
theorem tells_of_sniff (begins : session.Begins settings source) {compression : Compression}
    {image : Bytes}
    (unpacked : Unpacked 512 compression true image (sniff sniffSize (.ofSource source)))
    {ends : Session → Path → Place → Phase → Ending Session (Option PhaseResult) → Prop}
    (transfers : ∀ intake cloud content phase,
      Unmoved ⟨intake, cloud, session.files⟩ phase session.intake.location.url →
        intake.chunk = session.intake.chunk → intake.holding = .held content →
          content.Gives true image → content.Shows (image.take 512) →
            ∀ files step path place next, Target files step phase path place next →
              ends ⟨intake, cloud, files⟩ path place next (perform step ⟨intake, cloud, files⟩)) :
    session.Tells compression image ends := by
  obtain ⟨-, -, url, written, -⟩ := begins.fresh
  obtain ⟨cloud, info⟩ := begins.info
  rw [Tells, info]
  cases sniffed : sniff sniffSize (.ofSource source) with
  | error fault content =>
    rw [sniffed] at unpacked
    rcases unpacked with broken | ⟨why, faulty, rfl⟩
    · cases broken
    · have leads : verdict image = ⟨.error, some (.header why)⟩ := by rw [verdict, faulty]
      rw [leads]
      refine ⟨_, rfl, rfl, rfl, ?_, ?_⟩
      · intro format found
        cases faulty.symm.trans found
      · intro files step path place next target
        cases target
  | ok found content =>
    rw [sniffed] at unpacked
    obtain ⟨compressed, format, gives, splits⟩ := unpacked
    have leads : verdict image = ⟨Intake.nextPhase found.format, none⟩ := by rw [verdict, format]
    rw [leads]
    refine ⟨_, rfl, rfl, rfl, ?_, ?_⟩
    · intro other same
      cases format.symm.trans same
      exact ⟨rfl, compressed⟩
    · exact transfers _ _ content _ ⟨rfl, written, url⟩ rfl rfl gives splits.shows

/-- Compressed data that are complete and whole are imported. -/
theorem imported_of_sniff (begins : session.Begins settings source) {compression : Compression}
    {image : Bytes} (chunk : settings.chunk ≠ some 0)
    (unpacked : Unpacked 512 compression true image (sniff sniffSize (.ofSource source))) :
    session.ImportedIfFits compression image := by
  obtain ⟨-, -, -, -, asked⟩ := begins.fresh
  refine ⟨fun fits => ?_, fun excessive => ?_⟩
  · refine tells_of_sniff begins unpacked ?_
    intro intake cloud content phase unmoved same held gives _ files step path place next target
    rw [← same] at asked fits
    rw [← asked] at chunk
    exact perform_whole target unmoved.phase held (gives.pours (sizeAsked_ne_zero chunk) fits)
  · obtain ⟨size, more⟩ := excessive.eq_some
    rw [more] at excessive
    refine tells_of_sniff begins unpacked ?_
    intro intake cloud content phase unmoved same held _ shows files step path place next target
    have short : (image.take 512).length ≤ largestPiece :=
      Nat.le_trans (List.length_take_le ..) (by decide)
    obtain ⟨leading, broken⟩ := shows.pour short excessive
    rw [← more, ← same] at leading broken
    obtain ⟨after, reported⟩ := perform_broken cloud target unmoved.phase held broken
    exact ⟨perform_cut target ⟨unmoved.phase, unmoved.written, unmoved.url⟩ held broken leading,
      size, after, more, reported⟩

/-- **Complete gzip data are imported.** -/
theorem imported_gzip (begins : session.Begins settings source) (arrives : source.Holds true data)
    (magic : Image.compressionMagic .gzip <+: data)
    (complete : (Gzip.contents data).complete = true) (chunk : settings.chunk ≠ some 0) :
    session.ImportedIfFits .gzip (Gzip.contents data).given := by
  have unpacked := sniff_gzip (Source.serves true) arrives magic
  rw [complete] at unpacked
  exact imported_of_sniff begins chunk unpacked

/-- **Complete xz streams are imported.** -/
theorem imported_xz (begins : session.Begins settings source) (arrives : source.Holds true data)
    (magic : Image.compressionMagic .xz <+: data) {image : Bytes}
    (decodes : XzRow.Decodes true data image) (chunk : settings.chunk ≠ some 0) :
    session.ImportedIfFits .xz image := by
  cases decodes with
  | nothing => cases List.prefix_nil.mp magic
  | refused _ other =>
    obtain ⟨rest, begins⟩ := magic
    cases begins
    obtain ⟨why, fails⟩ := other
    cases fails
  | stream stopped rest =>
    exact imported_of_sniff begins chunk (sniff_xz (by decide : qcow2HeaderSize ≤ 512) (by decide)
      (Source.serves true) arrives magic (.whole stopped rest))

/-- **Gzip data that are not in order are never imported.** -/
theorem fails_incomplete (begins : session.Begins settings source)
    (arrives : source.Holds true data) (magic : Image.compressionMagic .gzip <+: data)
    (broken : (Gzip.contents data).complete = false) (chunk : settings.chunk ≠ some 0) :
    FailsAtOnce session ∨
      ∃ format, FailsLater session format id (· <+: (Gzip.contents data).given) := by
  have unpacked := sniff_gzip (Source.serves true) arrives magic
  rw [broken] at unpacked
  exact fails_of_sniff begins chunk unpacked

end Packed

/-- **How gzip data arrive does not decide what becomes of them.** If they are complete and
decode to an image, that image is imported whatever the pieces and however many bytes are
copied at a time, as long as that number fits; if it does not, every transfer fails. If they are
not, the import fails whatever the pieces and the number, and what it leaves behind is the front
of what the data decode to. -/
theorem import_gzip_in_any_pieces {data : Bytes} (magic : Image.compressionMagic .gzip <+: data) :
    ((Gzip.contents data).complete = true ∧
      (∃ format, Image.format (Gzip.contents data).given = .ok format) ∧
        ∀ settings source session, Begins settings source session → source.Holds true data →
          settings.chunk ≠ some 0 → session.ImportedIfFits .gzip (Gzip.contents data).given) ∨
    (((Gzip.contents data).complete = false ∨
      ∃ why, Image.format (Gzip.contents data).given = .error why) ∧
        ∀ settings source session, Begins settings source session → source.Holds true data →
          settings.chunk ≠ some 0 →
            FailsAtOnce session ∨
              ∃ format, FailsLater session format id (· <+: (Gzip.contents data).given)) := by
  cases complete : (Gzip.contents data).complete with
  | false =>
    refine .inr ⟨.inl rfl, ?_⟩
    intro settings source session begins arrives chunk
    exact fails_incomplete begins arrives magic complete chunk
  | true =>
    cases found : Image.format (Gzip.contents data).given with
    | ok format =>
      refine .inl ⟨rfl, ⟨format, rfl⟩, ?_⟩
      intro settings source session begins arrives chunk
      exact imported_gzip begins arrives magic complete chunk
    | error why =>
      refine .inr ⟨.inr ⟨why, rfl⟩, ?_⟩
      intro settings source session begins arrives chunk
      have unpacked := sniff_gzip (Source.serves true) arrives magic
      cases told : sniff sniffSize (.ofSource source) with
      | error fault content => exact .inl (failsAtOnce_of_sniff begins told)
      | ok sniffed content =>
        rw [told] at unpacked
        cases found.symm.trans unpacked.2.1

/-- The gzip data of a letter are imported even if they come byte by byte. -/
theorem import_gzip_byte_by_byte :
    (beginning { rest := storedLetter, most := some 1 } (some (-1))).Imported .gzip [0x41] := by
  have arrives : Source.Holds true { rest := storedLetter, most := some 1 } storedLetter :=
    ⟨by decide, rfl, rfl⟩
  have decoded : Gzip.contents storedLetter = ⟨[0x41], true⟩ := by decide +kernel
  have magic : Image.compressionMagic .gzip <+: storedLetter := by decide
  have either := import_gzip_in_any_pieces magic
  rw [decoded] at either
  rcases either with ⟨-, -, imports⟩ | ⟨broken | ⟨why, faulty⟩, -⟩
  · exact (imports _ _ _ (begins_beginning _ _) arrives (by decide)).imported (by decide)
  · cases broken
  · have found : Image.format [0x41] = .ok .raw := by decide +kernel
    cases found.symm.trans faulty

/-! ## Stored contents -/

/-- However many bytes are to be copied at a time, no bytes are told to be no image. -/
theorem imageless_of_nothing {session : Session} {compression : Compression}
    (imported : session.ImportedIfFits compression []) :
    ∃ fault after, perform .info session = .ok (some ⟨.error, some fault⟩) after ∧
      fault.kind = .image := by
  by_cases excessive : Excessive (sizeAsked session.intake.chunk)
  · obtain ⟨after, info, -⟩ := imported.overasked excessive
    exact ⟨_, after, info, rfl⟩
  · obtain ⟨after, info, -⟩ := imported.imported excessive
    exact ⟨_, after, info, rfl⟩

/-- Members begin with the magic of gzip data. -/
theorem magic_encodeMembers {members : List Gzip.StoredMember} (any : members ≠ []) :
    Image.compressionMagic .gzip <+: Gzip.encodeMembers members := by
  obtain ⟨member, more, rfl⟩ := List.exists_cons_of_ne_nil any
  exact ⟨_, rfl⟩

/-- **Importing undoes storing in gzip members.** Whatever blocks the contents are split
into, whatever fields the headers have and whatever padding is behind the members, the image
that the contents make up is imported, however they arrive and however many bytes are copied at
a time, as long as that number fits. It is told by its own header alone, and there is no image if
all contents are empty. -/
theorem import_stored_gzip {settings : IntakeSettings} {session : Session} {source : Source}
    {members : List Gzip.StoredMember} (any : members ≠ [])
    (begins : session.Begins settings source)
    (arrives : source.Holds true (Gzip.encodeMembers members)) (chunk : settings.chunk ≠ some 0) :
    session.ImportedIfFits .gzip (members.flatMap Gzip.StoredMember.content) ∧
      (members.flatMap Gzip.StoredMember.content = [] →
        ∃ fault after, perform .info session = .ok (some ⟨.error, some fault⟩) after ∧
          fault.kind = .image) := by
  have decoded := Gzip.contents_stored members
  have imported := imported_gzip begins arrives (magic_encodeMembers any) (by rw [decoded]) chunk
  rw [decoded] at imported
  refine ⟨imported, ?_⟩
  intro empty
  rw [empty] at imported
  exact imageless_of_nothing imported

/-- A member that stores a letter in two blocks, with a name and padding, and one that
stores another letter, with an extra field and a check of its header. -/
def twoLetters : List Gzip.StoredMember := [
  { text := true, stamp := [0, 0, 0, 0, 0, 3], fields := ⟨none, some [0x64], none, none⟩
    blocks := [⟨[0x41], 0, by decide⟩], last := ⟨[], 31, by decide⟩, padding := 2
    stamped := rfl, fit := ⟨by simp, by simp, by simp, by simp⟩ },
  { text := false, stamp := [1, 2, 3, 4, 2, 255]
    fields := ⟨some [7, 0], none, none, some [1, 2]⟩
    blocks := [], last := ⟨[0x42], 1, by decide⟩, padding := 0
    stamped := rfl, fit := ⟨by simp, by simp, by simp, by simp⟩ }]

/-- Two stored letters that come three bytes at a time are imported. -/
theorem import_stored_gzip_two_letters :
    (beginning { rest := Gzip.encodeMembers twoLetters, most := some 3 } none).Imported .gzip
      [0x41, 0x42] := by
  have arrives : Source.Holds true { rest := Gzip.encodeMembers twoLetters, most := some 3 }
      (Gzip.encodeMembers twoLetters) := ⟨by decide, rfl, rfl⟩
  have imported :=
    import_stored_gzip (List.cons_ne_nil _ _) (begins_beginning _ none) arrives (by decide)
  exact imported.1.imported (by decide)

/-- **Importing undoes storing in xz streams.** Whatever chunks the contents are split into,
whatever the headers of the blocks state and whether there are checks or not, the image that
the contents make up is imported, however the streams arrive and however many bytes are copied at
a time, as long as that number fits. It is told by its own header alone, and there is no image if
all contents are empty. -/
theorem import_stored_xz {settings : IntakeSettings} {session : Session} {source : Source}
    {streams : List Lzma.StoredStream} (any : streams ≠ [])
    (begins : session.Begins settings source)
    (arrives : source.Holds true (XzRow.encodeStreams streams)) (chunk : settings.chunk ≠ some 0) :
    session.ImportedIfFits .xz (XzRow.contentOf streams) ∧
      (XzRow.contentOf streams = [] →
        ∃ fault after, perform .info session = .ok (some ⟨.error, some fault⟩) after ∧
          fault.kind = .image) := by
  have imported := imported_xz begins arrives (XzRow.magic_encodeStreams any)
    (XzRow.decodes_stored true streams) chunk
  refine ⟨imported, ?_⟩
  intro empty
  rw [empty] at imported
  exact imageless_of_nothing imported

/-- A stream that stores three letters in two chunks, with a check and a long header of the
block, and one that stores another letter, without a check. -/
def fourLetters : List Lzma.StoredStream := [
  { checked := true, dictionary := 22, statesPacked := true, statesUnpacked := false, spare := 1
    chunks := [⟨[0x41], true, by decide, by decide⟩, ⟨[0x42, 0x43], false, by decide, by decide⟩]
    short := by decide +kernel, fits := by decide +kernel },
  { checked := false, dictionary := 40, statesPacked := false, statesUnpacked := true, spare := 0
    chunks := [⟨[0x44], false, by decide, by decide⟩]
    short := by decide +kernel, fits := by decide +kernel }]

/-- Four stored letters that come five bytes at a time are imported. -/
theorem import_stored_xz_four_letters :
    (beginning { rest := XzRow.encodeStreams fourLetters, most := some 5 } none).Imported .xz
      [0x41, 0x42, 0x43, 0x44] := by
  have arrives : Source.Holds true { rest := XzRow.encodeStreams fourLetters, most := some 5 }
      (XzRow.encodeStreams fourLetters) := ⟨by decide, rfl, rfl⟩
  have imported :=
    import_stored_xz (List.cons_ne_nil _ _) (begins_beginning _ none) arrives (by decide)
  exact imported.1.imported (by decide)

end DiskStaging.Session
