import DiskStaging.Proofs.Ownership
import DiskStaging.Proofs.PackedImport
import DiskStaging.Proofs.TransferOutcomes
import DiskStaging.Proofs.Truncation

/-!
# Importing compressed images that are cut short

Compressed data that are not complete never pass for an image. `info` or the transfer that
it calls for fails, whatever the transfer is given as its target, and what was written is the
front of the image (`Session.Awaits.undelivered`). No run of calls gets past that
(`Session.Doomed.calledAll`). This holds in particular of a single gzip member or xz stream
that is cut short (`Session.truncated_import`).

The transfer reports its failure in all cases but one: where the name of its scratch directory
is too long to be looked up, it raises that, and then it has not touched anything.
-/

set_option autoImplicit false

namespace DiskStaging

namespace Session

section Transferring

variable {step : Step} {wanted next : Phase} {image : Bytes} {url : Url}

/-! ## Transfers of the front of an image -/

/-- A transfer that does not deliver an image: it is refused, or it fails and leaves the front
of the image in some file. -/
def Undelivered (url : Url) (before : Session) (step : Step) (image : Bytes)
    (ending : Ending Session (Option PhaseResult)) : Prop :=
  Refused before step ending ∨ ∃ place, CutOff url before.files place (· <+: image) ending

theorem Undelivered.longer {url : Url} {before : Session} {less : Bytes}
    {ending : Ending Session (Option PhaseResult)} (front : less <+: image)
    (undelivered : Undelivered url before step less ending) :
    Undelivered url before step image ending := by
  rcases undelivered with refused | ⟨place, failed, given, leading, written⟩
  · exact .inl refused
  · exact .inr ⟨place, failed, given, leading.trans front, written⟩

/-- **Content that is not complete is never delivered**, whatever the transfer is given. -/
theorem Awaits.undelivered {session : Session} (awaits : session.Awaits wanted url image)
    (phases : step.phases? = some (wanted, next)) (files : FileTree) :
    Undelivered url { session with files } step image (perform step { session with files }) := by
  obtain ⟨⟨phase, written, same⟩, ⟨content, held, gives⟩, chunk⟩ := awaits
  rcases target_or_refused session.cloud files phases phase held with
    ⟨path, place, target⟩ | refused
  · exact .inr ⟨place, perform_gives target ⟨phase, written, same⟩ held gives chunk⟩
  · exact .inl refused

end Transferring

/-! ## Runs -/

/-- No transfer has succeeded. -/
def Unfinished (session : Session) : Prop :=
  session.intake.phase ≠ some .convert ∧ session.intake.phase ≠ some .resize

/-- What there may be while the data of an image are not complete: a session that was just set
up, one that is ready for a transfer, and one that is over. -/
inductive Doomed (settings : IntakeSettings) (source : Source) (image : Bytes) (session : Session) :
    Prop
  | fresh (begins : session.Begins settings source)
  | ready {format : ImageFormat} {url : Url}
    (awaits : session.Awaits (Intake.nextPhase format) url image)
  | gone (unfinished : session.Unfinished) (settled : session.Settled)
  | failed (phase : session.intake.phase = some .error)

section Runs

variable {settings : IntakeSettings} {session : Session} {source : Source} {image : Bytes}
  {compression : Compression}

/-- No transfer has succeeded where a next one is called for. -/
theorem unfinished_nextPhase {format : ImageFormat}
    (phase : session.intake.phase = some (Intake.nextPhase format)) : session.Unfinished := by
  rw [Unfinished, phase]
  rcases Intake.nextPhase_cases format with ⟨-, next⟩ | ⟨-, next⟩ <;> rw [next] <;> decide

theorem unfinished_error (phase : session.intake.phase = some .error) : session.Unfinished := by
  rw [Unfinished, phase]
  decide

theorem Doomed.unfinished (doomed : session.Doomed settings source image) :
    session.Unfinished := by
  cases doomed with
  | fresh begins =>
    rw [Unfinished, begins.fresh.1]
    decide
  | ready awaits => exact unfinished_nextPhase awaits.unmoved.phase
  | gone unfinished => exact unfinished
  | failed phase => exact unfinished_error phase

/-- Nothing but a transfer of content that is held finishes an import. -/
theorem Unfinished.called (unfinished : session.Unfinished) {step : Step}
    (idle : step.phases? = none ∨ ¬ session.intake.holding.IsHeld) :
    (session.after step).Unfinished := by
  have does := perform_does session step
  unfold after
  generalize perform step session = ending at does ⊢
  cases does with
  | refused misplaced kind => exact unfinished
  | entered => exact unfinished
  | closed closes gone kept ended =>
    rw [ended]
    exact unfinished
  | notOpened idle usable => exact unfinished_error rfl
  | opened idle usable => exact unfinished_nextPhase rfl
  | lost phases phase gone => exact unfinished_error rfl
  | failed phases phase held | raised phases phase held | done phases phase held =>
    rcases idle with none | gone
    · cases none.symm.trans phases
    · exact absurd held gone

/-- Closing ends it. -/
theorem Doomed.left (doomed : session.Doomed settings source image) {step : Step}
    (leaves : step = .close ∨ step = .exit) :
    (session.after step).Doomed settings source image := by
  have idle : step.phases? = none := by
    rcases leaves with rfl | rfl <;> rfl
  exact .gone (doomed.unfinished.called (.inl idle)) (settled_of_leaves leaves session)

/-- A failure that is reported ends it as well. -/
theorem Doomed.of_failed {url : Url} {step : Step} (failed : Failed url (perform step session)) :
    (session.after step).Doomed settings source image := by
  rw [after]
  cases ended : perform step session with
  | ok result later =>
    rw [ended] at failed
    exact .failed failed.2.phase
  | error fault later =>
    rw [ended] at failed
    exact failed.elim

/-- A transfer of an image whose end is missing fails, or changes nothing. -/
theorem Doomed.transferred {format : ImageFormat} {url : Url}
    (awaits : session.Awaits (Intake.nextPhase format) url image) {step : Step}
    {wanted next : Phase} (phases : step.phases? = some (wanted, next)) :
    (session.after step).Doomed settings source image := by
  by_cases turn : session.intake.phase = some wanted
  · obtain rfl : Intake.nextPhase format = wanted :=
      Option.some.inj (awaits.unmoved.phase.symm.trans turn)
    rcases awaits.undelivered phases session.files with
      (⟨fault, failed⟩ | ⟨scratch, -, -, raised⟩) | ⟨place, failed, -⟩
    · rw [after, failed]
      exact .failed rfl
    · rw [after, raised]
      exact .ready awaits
    · exact .of_failed failed
  · rw [after_misplaced step (Step.misplaced_of_phases phases turn)]
    exact .ready awaits

/-- **Whatever is called, an image whose data are not complete stays doomed.** -/
theorem Doomed.called (doomed : session.Doomed settings source image)
    (chunk : settings.chunk ≠ some 0)
    (unpacked : Unpacked 512 compression false image (sniff sniffSize (.ofSource source)))
    (step : Step) : (session.after step).Doomed settings source image := by
  have does := perform_does session step
  cases doomed with
  | fresh begins =>
    have misplaced {wanted next : Phase} (phases : step.phases? = some (wanted, next)) :
        session.after step = session := by
      refine after_misplaced step (Step.misplaced_of_phases phases ?_)
      rw [begins.fresh.1]
      exact (Option.some_ne_none wanted).symm
    cases step with
    | info =>
      rcases info_awaits begins chunk unpacked with ⟨failed, -⟩ | ⟨format, later, info, awaits, -⟩
      · exact .of_failed failed
      · rw [after, info]
        exact .ready awaits
    | transfer scratch =>
      rw [misplaced rfl]
      exact .fresh begins
    | transferFile path =>
      rw [misplaced rfl]
      exact .fresh begins
    | close => exact (Doomed.fresh begins).left (.inl rfl)
    | exit => exact (Doomed.fresh begins).left (.inr rfl)
    | enter => exact .fresh begins
  | ready awaits =>
    cases step with
    | info =>
      have busy : session.intake.phase ≠ none := by
        rw [awaits.unmoved.phase]
        exact Option.some_ne_none _
      rw [after_misplaced .info (.inr busy)]
      exact .ready awaits
    | transfer scratch => exact Doomed.transferred awaits rfl
    | transferFile path => exact Doomed.transferred awaits rfl
    | close => exact (Doomed.ready awaits).left (.inl rfl)
    | exit => exact (Doomed.ready awaits).left (.inr rfl)
    | enter => exact .ready awaits
  | gone unfinished settled =>
    exact .gone (unfinished.called (.inr settled.1)) (does.settled settled).2.2
  | failed phase =>
    rcases does.moves with same | ⟨next, leads, -⟩
    · exact .failed (same.trans phase)
    · rw [phase] at leads
      cases leads

/-- **No run of calls finishes the import of an image whose data are not complete.** -/
theorem Doomed.calledAll (doomed : session.Doomed settings source image)
    (chunk : settings.chunk ≠ some 0)
    (unpacked : Unpacked 512 compression false image (sniff sniffSize (.ofSource source)))
    (steps : List Step) : (session.afterAll steps).Unfinished := by
  induction steps generalizing session with
  | nil => exact doomed.unfinished
  | cons step steps ih => exact ih (doomed.called chunk unpacked step)

end Runs

/-! ## Truncated images -/

/-- Data are exactly one unit of some compression: a gzip member or an xz stream. -/
def OneUnit (compression : Compression) (data image : Bytes) : Prop :=
  match compression with
  | .gzip => Gzip.OneMember data image
  | .xz => XzRow.OneStream data image

/-- Classifying such a unit that is cut short leaves the front of its content. -/
theorem sniff_truncated {compression : Compression} {less more image : Bytes} {source : Source}
    (one : OneUnit compression (less ++ more) image) (any : more ≠ [])
    (magic : Image.compressionMagic compression <+: less) (arrives : source.Holds true less) :
    ∃ given, given <+: image ∧
      Unpacked 512 compression false given (sniff sniffSize (.ofSource source)) := by
  cases compression with
  | gzip =>
    have some : less ≠ [] := by
      rintro rfl
      cases List.prefix_nil.mp magic
    obtain ⟨broken, front⟩ := Gzip.contents_truncated one some any
    have unpacked := sniff_gzip (Source.serves true) arrives magic
    rw [broken] at unpacked
    exact ⟨_, front, unpacked⟩
  | xz =>
    obtain ⟨ends, front⟩ := XzRow.ends_truncated one any
    exact ⟨_, front,
      sniff_xz (by decide : qcow2HeaderSize ≤ 512) (by decide) (Source.serves true) arrives magic
        ends⟩

/-- **A compressed image that is cut short is never imported.** Wherever a gzip member or an
xz stream loses its end behind the magic, `info` fails, or it leads to a transfer that does
not deliver the image, whatever it is given. No run of calls gets past that. -/
theorem truncated_import {settings : IntakeSettings} {session : Session} {source : Source}
    {compression : Compression} {less more image : Bytes}
    (one : OneUnit compression (less ++ more) image) (any : more ≠ [])
    (magic : Image.compressionMagic compression <+: less) (begins : session.Begins settings source)
    (arrives : source.Holds true less) (chunk : settings.chunk ≠ some 0) :
    (FailsAtOnce session ∨
      ∃ format after, perform .info session = .ok (some ⟨Intake.nextPhase format, none⟩) after ∧
        after.Unmoved (Intake.nextPhase format) session.intake.location.url ∧
          after.files = session.files ∧
            ∀ files step next, step.phases? = some (Intake.nextPhase format, next) →
              Undelivered session.intake.location.url { after with files } step image
                (perform step { after with files })) ∧
      ∀ steps, (session.afterAll steps).Unfinished := by
  obtain ⟨given, front, unpacked⟩ := sniff_truncated one any magic arrives
  refine ⟨?_, (Doomed.fresh begins).calledAll chunk unpacked⟩
  rcases info_awaits begins chunk unpacked with failed | ⟨format, after, info, awaits, same⟩
  · exact .inl failed
  · refine .inr ⟨format, after, info, awaits.unmoved, same, ?_⟩
    intro files step next phases
    exact (awaits.undelivered phases files).longer front

/-- Gzip data that hold one letter are exactly one member. -/
theorem oneMember_storedLetter : Gzip.OneMember storedLetter [0x41] := by
  have header : Gzip.readHeader Reader.plain storedLetter = .ok true (storedLetter.drop 10) := by
    cbv
  have behind : (Coding.finish Gzip.fresh (storedLetter.drop 10)).rest = storedLetter.drop 16 := by
    decide +kernel
  have trailer : Gzip.readTrailer Reader.plain (Checksum.crc32 0 [0x41]) 1 (storedLetter.drop 16) =
      .ok () [] := by
    cbv
  exact ⟨_, header, by decide +kernel, by decide +kernel, by rw [behind]; exact trailer⟩

/-- An xz stream that holds the same letter. -/
def streamedLetter : Bytes :=
  [0xFD, 0x37, 0x7A, 0x58, 0x5A, 0, 0, 1, 0x69, 0x22, 0xDE, 0x36, 2, 0, 0x21, 1, 0x16, 0, 0, 0,
    0x74, 0x2F, 0xE5, 0xA3, 1, 0, 0, 0x41, 0, 0, 0, 0, 0x8B, 0x9E, 0xD9, 0xD3, 0, 1, 0x15, 1,
    0xA9, 0x63, 0x34, 0x60, 0x90, 0x42, 0x99, 0x0D, 1, 0, 0, 0, 0, 1, 0x59, 0x5A]

/-- A member that loses half of its trailer and a stream that loses its footer are not
imported. -/
theorem truncated_import_letters :
    (∀ steps, ((beginning { rest := storedLetter.take 20 } none).afterAll steps).Unfinished) ∧
      ∀ steps, ((beginning { rest := streamedLetter.take 44 } none).afterAll steps).Unfinished := by
  have stream : XzRow.OneStream streamedLetter [0x41] :=
    ⟨by decide +kernel, by decide +kernel, by decide +kernel⟩
  have member : OneUnit .gzip (storedLetter.take 20 ++ storedLetter.drop 20) [0x41] :=
    oneMember_storedLetter
  have unit : OneUnit .xz (streamedLetter.take 44 ++ streamedLetter.drop 44) [0x41] := stream
  exact ⟨(truncated_import member (List.cons_ne_nil _ _) (by decide) (begins_beginning _ none)
      ⟨by decide, rfl, rfl⟩ (by decide)).2,
    (truncated_import unit (List.cons_ne_nil _ _) (by decide) (begins_beginning _ none)
      ⟨by decide, rfl, rfl⟩ (by decide)).2⟩

end Session

end DiskStaging
