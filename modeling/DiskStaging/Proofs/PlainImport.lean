import DiskStaging.Proofs.Operations
import DiskStaging.Proofs.PathUrls

/-!
# Importing images that are not compressed

An image that is not compressed is imported byte by byte: whatever the pieces that it
arrives in and however many bytes are copied at a time, the file that is written holds
the image and nothing else changes (`Session.import_plain`). What a transfer reports
then depends on its path alone. The path is read as a URL, and where it does not read
as one, the transfer raises after all bytes were written.
-/

set_option autoImplicit false

namespace DiskStaging

/-- What classifying an image leads to. -/
def verdict (image : Bytes) : PhaseResult :=
  match Image.format image with
  | .error why => ⟨.error, some (.header why)⟩
  | .ok format => ⟨Intake.nextPhase format, none⟩

namespace Session

/-- The whole image was written to a place, and nothing else was. -/
structure Stored (before after : Session) (place : Place) (image : Bytes) : Prop where
  written : after.intake.written = image.length
  files : FileTree.Written before.files after.files place image
  cloud : after.cloud = before.cloud

/-- The ending of a transfer that wrote the whole image. Only the path decides whether
it leads on: it raises exactly where the path does not read as a URL, and no plain path
is such a one. -/
def Delivered (before : Session) (path : Path) (place : Place) (next : Phase) (image : Bytes) :
    Ending Session (Option PhaseResult) → Prop
  | .ok result after =>
    result = some ⟨next, none⟩ ∧ after.intake.phase = some next ∧
      Url.parse path.render = .ok after.intake.url ∧ Stored before after place image
  | .error fault after =>
    (∃ why, Url.parse path.render = .error why ∧ fault = .url why) ∧ ¬ path.Plain ∧
      after.intake.phase = before.intake.phase ∧ after.intake.url = before.intake.url ∧
        Stored before after place image

section Transferring

variable {intake : Intake} {cloud : Cloud} {files : FileTree} {step : Step} {wanted next : Phase}
  {path : Path} {place : Place} {content : Content} {image : Bytes}

/-- **Transferring whole content writes all of it.** -/
theorem perform_whole (target : Target files step wanted path place next)
    (phase : intake.phase = some wanted) (held : intake.holding = .held content)
    (pours : content.Pours (sizeAsked intake.chunk) image) :
    Delivered ⟨intake, cloud, files⟩ path place next image
      (perform step ⟨intake, cloud, files⟩) := by
  obtain ⟨all, unbroken⟩ := pours
  have length : (content.pour (sizeAsked intake.chunk)).content.size = image.length := by
    rw [← Array.length_toList, all]
  have stored (after : Session) (written : after.intake.written = image.length)
      (same : after.files = files.write place image) (kept : after.cloud = cloud) :
      Stored ⟨intake, cloud, files⟩ after place image := by
    refine ⟨written, ?_, kept⟩
    rw [same]
    exact FileTree.written_write (FileTree.place_ne_nil target.opened) image
  rw [perform_transfer cloud target phase held]
  simp only [ofFiles, Intake.poured, unbroken, all, length]
  cases read : Url.parse path.render with
  | error why =>
    refine ⟨⟨why, read, rfl⟩, ?_, rfl, rfl, stored _ rfl rfl rfl⟩
    intro plain
    obtain ⟨url, good⟩ := plain.parse_render
    rw [good] at read
    cases read
  | ok url => exact ⟨rfl, rfl, read, stored _ rfl rfl rfl⟩

end Transferring

/-- **Importing an image that is not compressed is byte exact.** Classifying it leads
where its header says, and the transfer that this calls for writes the whole image to
its target and changes nothing else. It goes on to the next phase unless the path does
not read as a URL. -/
theorem import_plain {settings : IntakeSettings} {session : Session} {source : Source}
    {image : Bytes} (begins : session.Begins settings source)
    (arrives : source.Holds true image)
    (plain : ∀ compression, ¬ Image.compressionMagic compression <+: image)
    (chunk : settings.chunk ≠ some 0) :
    ∃ after, perform .info session = .ok (some (verdict image)) after ∧
      after.intake.phase = some (verdict image).phase ∧ after.files = session.files ∧
        ∀ files step path place next,
          Target files step (verdict image).phase path place next →
            Delivered { after with files } path place next image
              (perform step { after with files }) := by
  obtain ⟨-, -, -, -, asked⟩ := begins.fresh
  obtain ⟨cloud, info⟩ := begins.info
  have classified := sniff_plain arrives (Image.compression?_eq_none.mpr plain)
  rw [info]
  cases sniffed : sniff sniffSize (.ofSource source) with
  | error fault content =>
    rw [sniffed] at classified
    rcases classified with ⟨-, broken⟩ | ⟨why, faulty, rfl⟩
    · cases broken
    · have leads : verdict image = ⟨.error, some (.header why)⟩ := by rw [verdict, faulty]
      rw [leads]
      refine ⟨_, rfl, rfl, rfl, ?_⟩
      intro files step path place next target
      cases target
  | ok found content =>
    rw [sniffed] at classified
    obtain ⟨-, format, -, left, front, rfl, held, -⟩ := classified
    have leads : verdict image = ⟨Intake.nextPhase found.format, none⟩ := by rw [verdict, format]
    rw [leads]
    refine ⟨_, rfl, rfl, rfl, ?_⟩
    intro files step path place next target
    refine perform_whole target rfl rfl ((Content.givesAll_root held).pours ?_)
    exact sizeAsked_ne_zero (by rwa [asked])

/-- Three bytes that come in two pieces are all written. -/
theorem import_plain_in_pieces :
    ∃ after, perform .info (beginning { rest := [1, 2, 3], most := some 2 } (some 5)) =
        .ok (some ⟨.transferDataFile, none⟩) after ∧
      Delivered { after with files := .fresh } ⟨.here, ["disk"]⟩ ["tmp", "work", "disk"] .resize
        [1, 2, 3] (perform (.transferFile ⟨.here, ["disk"]⟩) { after with files := .fresh }) := by
  have arrives : Source.Holds true { rest := [1, 2, 3], most := some 2 } [1, 2, 3] :=
    ⟨by decide, rfl, rfl⟩
  obtain ⟨after, info, -, -, delivered⟩ := import_plain (begins_beginning _ (some 5)) arrives
    (fun compression => by cases compression <;> decide) (by decide)
  exact ⟨after, info, delivered _ _ _ _ _ (.file openFile_fresh)⟩

end Session

end DiskStaging
