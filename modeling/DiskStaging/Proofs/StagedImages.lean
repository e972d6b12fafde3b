import DiskStaging.Proofs.CommandLines
import DiskStaging.Proofs.CommandRuns
import DiskStaging.Proofs.UnpackedImages

/-!
# What a run leaves behind

A run that succeeds has written the image of the object that its source names, and has said
which step comes next. The image is what the data of the object hold, one level of compression
taken off, and the file holds all of it. A run writes to one file, which is told by the
options and by the format of the image, and a run that never gets so far as to know the format
writes nothing (`CommandLine.run_accounted`).
-/

set_option autoImplicit false

namespace DiskStaging

namespace Session

variable {session : Session} {step : Step} {wanted next : Phase}

/-- A transfer pours its content into its target, or touches no file. -/
theorem files_of_transfer (phases : step.phases? = some (wanted, next))
    (phase : session.intake.phase = some wanted) {content : Content}
    (held : session.intake.holding = .held content) :
    (Ending.state (perform step session)).files = session.files ∨
      ∃ path place, Target session.files step wanted path place next ∧
        FileTree.Written session.files (Ending.state (perform step session)).files place
          (content.pour (sizeAsked session.intake.chunk)).content.toList := by
  obtain ⟨intake, cloud, files⟩ := session
  rcases target_or_refused cloud files phases phase held with
    ⟨path, place, target⟩ | ⟨fault, refused⟩ | ⟨scratch, -, -, raised⟩
  · refine .inr ⟨path, place, target, ?_⟩
    have left : (Ending.state (perform step ⟨intake, cloud, files⟩)).files =
        files.write place (content.pour (sizeAsked intake.chunk)).content.toList := by
      rw [perform_transfer cloud target phase held]
      unfold Intake.poured
      dsimp only
      split
      · rfl
      · split <;> rfl
    rw [left]
    exact FileTree.written_write (FileTree.place_ne_nil target.opened) _
  · rw [refused]
    exact .inl rfl
  · rw [raised]
    exact .inl rfl

/-- A transfer that reports no fault leads to the next phase. -/
theorem next_of_done (phases : step.phases? = some (wanted, next))
    (phase : session.intake.phase = some wanted) {other : Phase} {after : Session}
    (done : perform step session = .ok (some ⟨other, none⟩) after) : other = next := by
  rcases answered_of_ok phases phase done with ⟨same, -⟩ | ⟨fault, reported, -⟩
  · cases same
    rfl
  · cases reported

/-- A transfer that ends in the next phase has poured all of its content into its target. -/
theorem written_of_done (phases : step.phases? = some (wanted, next))
    (phase : session.intake.phase = some wanted) {content : Content}
    (held : session.intake.holding = .held content) {after : Session}
    (done : perform step session = .ok (some ⟨next, none⟩) after) :
    (content.pour (sizeAsked session.intake.chunk)).fault = none ∧
      ∃ path place, Target session.files step wanted path place next ∧
        FileTree.Written session.files after.files place
          (content.pour (sizeAsked session.intake.chunk)).content.toList := by
  obtain ⟨path, other, goes⟩ := goesOn_of_done phases done
  cases held.symm.trans goes.held
  obtain ⟨place, target⟩ := goes.target
  refine ⟨goes.whole, path, place, target, ?_⟩
  have went := perform_goesOn session target phase held rfl goes.whole goes.url
  have left : after.files = session.files.write place
      (content.pour (sizeAsked session.intake.chunk)).content.toList :=
    congrArg (fun ending => (Ending.state ending).files) (done.symm.trans went)
  rw [left]
  exact FileTree.written_write (FileTree.place_ne_nil target.opened) _

end Session

namespace CommandLine

open Session

/-! ## Targets -/

/-- The path of the file that an image of some format is written to. -/
def Arguments.target (arguments : Arguments) (format : ImageFormat) : Path :=
  if format = .raw then .parse arguments.dest else stagingPath (.parse arguments.scratchDir)

theorem path_of_target {arguments : Arguments} {format : ImageFormat} {files : FileTree}
    {wanted next : Phase} {path : Path} {place : Place}
    (target : Target files (arguments.transfer (Intake.nextPhase format)) wanted path place next) :
    path = arguments.target format := by
  rcases Intake.nextPhase_cases format with ⟨raw, same⟩ | ⟨packed, same⟩
  · rw [same] at target
    rw [Arguments.target, if_pos raw]
    cases target
    rfl
  · rw [same] at target
    rw [Arguments.target, if_neg packed]
    cases target
    rfl

/-! ## Runs -/

/-- The image of the object that the source names is in its file, and the step that comes next
was printed. -/
def Stages (arguments : Arguments) (cloud : Cloud) (files : FileTree) (outcome : Outcome) : Prop :=
  ∃ location source image format place,
    locate arguments.source arguments.settings.backend.schemes = .ok location ∧
    arguments.settings.Reads location cloud source ∧
    Unpacks source.rest image ∧ Image.format image = .ok format ∧
    outcome.report.output = (if format = .raw then "Phase: Resize\n" else "Phase: Convert\n") ∧
    files.openFile (arguments.target format) = .ok place ∧
    FileTree.Written files outcome.files place image

/-- The source names an object, there is a client for it, and `info` tells the format of an
image that it holds. -/
def Accepts (arguments : Arguments) (cloud : Cloud) (files : FileTree) (format : ImageFormat) :
    Prop :=
  ∃ intake between after, Intake.create arguments.settings cloud = .ok intake between ∧
    perform .info ⟨intake, between, files⟩ =
      .ok (some ⟨Intake.nextPhase format, none⟩) after ∧ after.intake.format = some format

/-- What a run may leave behind. -/
structure Accounted (arguments : Arguments) (cloud : Cloud) (files : FileTree)
    (outcome : Outcome) : Prop where
  status : outcome.report.status = 0 ∨ outcome.report.status = 1
  staged : outcome.report.status = 0 → Stages arguments cloud files outcome
  /-- Only the file for an image of the format that was told may have changed. -/
  confined : outcome.files = files ∨ ∃ format place content,
    Accepts arguments cloud files format ∧ files.openFile (arguments.target format) = .ok place ∧
      FileTree.Written files outcome.files place content
  /-- Nothing has changed if the source names nothing, or there is no client. -/
  unready : ∀ fault after, Intake.create arguments.settings cloud = .error fault after →
    outcome.files = files
  /-- Nothing has changed if there is no object, or it holds no image. -/
  unread : ∀ intake between fault, Intake.create arguments.settings cloud = .ok intake between →
    failure? (perform .info ⟨intake, between, files⟩) = some fault → outcome.files = files

section Accounts

variable {arguments : Arguments} {cloud between : Cloud} {files : FileTree} {intake : Intake}

/-- A run of the command reads as much at a time as it does by default. -/
theorem chunk_of_create (created : Intake.create arguments.settings cloud = .ok intake between) :
    intake.chunk = some defaultChunkSize := by
  obtain ⟨location, client, -, rfl⟩ := Intake.create_eq created
  rfl

/-- A session of a run in which `info` has told the format of the image that a source holds. -/
structure Told (files : FileTree) (source : Source) (found : Sniffed) (content : Content)
    (session : Session) : Prop where
  sniffed : sniff sniffSize (.ofSource source) = .ok found content
  phase : session.intake.phase = some (Intake.nextPhase found.format)
  held : session.intake.holding = .held content
  format : session.intake.format = some found.format
  chunk : session.intake.chunk = some defaultChunkSize
  files : session.files = files

/-- A run goes on to a transfer where `info` has told the format. -/
theorem told_of_info {phase : Phase} {middle : Session} {source : Source}
    (created : Intake.create arguments.settings cloud = .ok intake between)
    (reads : arguments.settings.Reads intake.location cloud source)
    (info : perform .info ⟨intake, between, files⟩ = .ok (some ⟨phase, none⟩) middle) :
    ∃ found content, Told files source found content middle ∧
      phase = Intake.nextPhase found.format := by
  have chunk := chunk_of_create created
  rcases looked_of_created created files with
    ⟨fault, after, other, -⟩ | ⟨origin, found, content, after, again, sniffed, looked⟩
  · cases info.symm.trans other
  · cases info.symm.trans looked
    obtain rfl := reads.unique (reads_of_create created again)
    exact ⟨found, content, ⟨sniffed, rfl, rfl, rfl, chunk, rfl⟩, rfl⟩

/-- A transfer that wrote something wrote to the file for the format that was told. -/
theorem Told.written {source : Source} {found : Sniffed} {content : Content} {session : Session}
    (told : Told files source found content session) {wanted next : Phase} {path : Path}
    {place : Place} {left : FileTree} {image : Bytes}
    (target : Target session.files (arguments.transfer (Intake.nextPhase found.format)) wanted path
      place next)
    (written : FileTree.Written session.files left place image) :
    files.openFile (arguments.target found.format) = .ok place ∧
      FileTree.Written files left place image := by
  rw [told.files] at target written
  obtain rfl := path_of_target target
  exact ⟨target.opened, written⟩

/-- What is printed for an image of some format. -/
theorem output_success (format : ImageFormat) (place : String) :
    (success (if format = .raw then .resize else .convert) place).output =
      if format = .raw then "Phase: Resize\n" else "Phase: Convert\n" := by
  by_cases raw : format = .raw
  · rw [if_pos raw, if_pos raw]
    rfl
  · rw [if_neg raw, if_neg raw]
    rfl

/-- A run that fails and touches nothing is accounted for. -/
theorem accounted_untouched {outcome : Outcome} (failed : outcome.report.status = 1)
    (same : outcome.files = files) : Accounted arguments cloud files outcome where
  status := .inr failed
  staged done := by
    rw [failed] at done
    cases done
  confined := .inl same
  unready _ _ _ := same
  unread _ _ _ _ _ := same

/-- A run that goes on to a transfer is accounted for by what the transfer leaves. -/
theorem accounted_transferred {phase : Phase} {middle : Session} {outcome : Outcome}
    (created : Intake.create arguments.settings cloud = .ok intake between)
    (info : perform .info ⟨intake, between, files⟩ = .ok (some ⟨phase, none⟩) middle)
    (status : outcome.report.status = 0 ∨ outcome.report.status = 1)
    (staged : outcome.report.status = 0 → Stages arguments cloud files outcome)
    (confined : outcome.files = files ∨ ∃ format place content,
      Accepts arguments cloud files format ∧ files.openFile (arguments.target format) = .ok place ∧
        FileTree.Written files outcome.files place content) :
    Accounted arguments cloud files outcome where
  status
  staged
  confined
  unready _ _ failed := by
    cases created.symm.trans failed
  unread _ _ _ again failed := by
    cases created.symm.trans again
    rw [info] at failed
    cases failed

end Accounts

/-- **What a run may leave behind.** A command line that asks for help gets that instead of a run
(`Asks`). A run may write to a device that forgets, which then holds nothing of what was written
(`FileTree.Written`). -/
theorem run_accounted {words : List String} {arguments : Arguments}
    (asks : Asks words arguments) (cloud : Cloud) (files : FileTree) :
    (∃ items, Spells items words ∧
      arguments.scratchDir = (lastValue? .scratchDir items).getD "." ∧
        arguments.dest = (lastValue? .dest items).getD "disk.img") ∧
      Accounted arguments cloud files (run arguments cloud files) := by
  refine ⟨asks.places, ?_⟩
  obtain ⟨report, left, course⟩ := exists_course arguments cloud files
  obtain ⟨reported, kept⟩ := course.run
  cases course with
  | @unready fault after created => exact accounted_untouched (by rw [reported]) kept
  | @unread intake between fault after created info =>
    exact accounted_untouched (by rw [reported]) kept
  | @unwritten intake between phase middle source fault created reads info failed =>
    obtain ⟨found, content, told, rfl⟩ := told_of_info created reads info
    have failed : (run arguments cloud files).report.status = 1 := by rw [reported]
    refine accounted_transferred created info (.inr failed) ?_ ?_
    · intro done
      rw [failed] at done
      cases done
    · rw [kept]
      rcases files_of_transfer (phases_transfer arguments found.format) told.phase told.held with
        same | ⟨path, place, target, written⟩
      · exact .inl (same.trans told.files)
      · exact .inr ⟨_, place, _, ⟨intake, between, middle, created, info, told.format⟩,
          told.written target written⟩
  | @written intake between phase next middle after source created reads info done =>
    obtain ⟨found, content, told, rfl⟩ := told_of_info created reads info
    obtain rfl := next_of_done (phases_transfer arguments found.format) told.phase done
    obtain ⟨unbroken, path, place, target, written⟩ :=
      written_of_done (phases_transfer arguments found.format) told.phase told.held done
    rw [told.chunk] at unbroken written
    rw [← kept] at written
    have opened := told.written target written
    refine accounted_transferred created info ?_ ?_
      (.inr ⟨_, place, _, ⟨intake, between, middle, created, info, told.format⟩, opened⟩)
    · rw [reported]
      cases source.closeFault with
      | none => exact .inl rfl
      | some late => exact .inr rfl
    · intro succeeded
      obtain ⟨location, client, located, same⟩ := Intake.create_eq created
      obtain ⟨unpacks, format⟩ := unpacks_of_poured told.sniffed (by decide) unbroken
      refine ⟨location, source, _, found.format, place, located, ?_, unpacks, format, ?_, opened⟩
      · rw [same] at reads
        exact reads
      · rw [reported] at succeeded ⊢
        cases late : source.closeFault with
        | none => exact output_success found.format _
        | some late =>
          rw [‹source.closeFault = _›] at succeeded
          cases succeeded

/-- **A run succeeds if nothing stands in its way**: the image arrives whole, its file can be
opened and has a path that reads as a URL, and closing the source raises nothing. -/
theorem status_of_gives {arguments : Arguments} {cloud between : Cloud} {files : FileTree}
    {intake : Intake} {source : Source} {found : Sniffed} {content : Content} {image : Bytes}
    {next : Phase} {path : Path} {place : Place} {url : Url}
    (created : Intake.create arguments.settings cloud = .ok intake between)
    (reads : arguments.settings.Reads intake.location between source)
    (closes : source.closeFault = none)
    (sniffed : sniff sniffSize (.ofSource source) = .ok found content)
    (gives : content.Gives true image)
    (target : Target files (arguments.transfer (Intake.nextPhase found.format))
      (Intake.nextPhase found.format) path place next)
    (read : Url.parse path.render = .ok url) :
    (run arguments cloud files).report.status = 0 := by
  have begins : Begins arguments.settings source ⟨intake, between, files⟩ :=
    ⟨⟨cloud, between, created⟩, reads⟩
  obtain ⟨after, info⟩ := begins.info
  rw [sniffed] at info
  have origin := reads_of_create created reads
  obtain ⟨told, held, known, -⟩ := told_of_info created origin info
  cases known.sniffed.symm.trans sniffed
  have whole : (content.pour (sizeAsked (some defaultChunkSize))).fault = none :=
    (gives.pours (by decide) (by decide)).2
  rw [← known.chunk] at whole
  have done := perform_goesOn _ target known.phase known.held rfl whole read
  obtain ⟨reported, -⟩ := (Course.written created origin info done).run
  rw [reported, closes]
  rfl

/-- Arguments for a command line that gives two files. -/
def givenTwice : Arguments := { asking "s3://images/disk" with dest := "second" }

theorem asks_givenTwice :
    Asks ["--dest", "first", "s3://images/disk", "--dest=second"] givenTwice := by
  have spelled : Spells [.setting .dest "first", .other "s3://images/disk", .setting .dest "second"]
      ["--dest", "first", "s3://images/disk", "--dest=second"] :=
    .apart rfl "first" (.other rfl (@Spells.joined "--dest" .dest [] [] rfl "second" .nothing))
  exact ⟨_, take_eq_ok.mpr ⟨_, spelled, rfl⟩, rfl, rfl⟩

/-- A cloud with one object. -/
def oneObject (source : Source) : Cloud := { objects := [⟨"images", "disk", source⟩] }

/-- A raw image is staged in the second one of two files that are given. -/
theorem run_accounted_twice :
    Asks ["--dest", "first", "s3://images/disk", "--dest=second"] givenTwice ∧
      (run givenTwice (oneObject { rest := [1, 2, 3] }) .fresh).report.status = 0 ∧
        (run givenTwice (oneObject { rest := [1, 2, 3] }) .fresh).files.node?
          ["tmp", "work", "second"] = some (.file [1, 2, 3]) := by
  have located : locate "s3://images/disk" (Backend.schemes .s3) =
      .ok ⟨⟨"s3", "images", "/disk", "", "", ""⟩, "images", "disk"⟩ := by decide +kernel
  have plain : Image.compression? [1, 2, 3] = none := by decide
  have raw : Image.format [1, 2, 3] = .ok .raw := by decide +kernel
  have opened : FileTree.openFile .fresh (givenTwice.target .raw) =
      .ok ["tmp", "work", "second"] := by cbv
  have read : Url.parse (givenTwice.target .raw).render =
      .ok ⟨"", "", "second", "", "", ""⟩ := by decide +kernel
  have created : ∃ intake between,
      Intake.create givenTwice.settings (oneObject { rest := [1, 2, 3] }) = .ok intake between ∧
        givenTwice.settings.Reads intake.location between { rest := [1, 2, 3] } := by
    unfold Intake.create
    rw [show givenTwice.settings.endpoint = "s3://images/disk" from rfl,
      show givenTwice.settings.backend = .s3 from rfl, located]
    exact ⟨_, _, rfl, @IntakeSettings.Reads.fetched _ _ _ ⟨"images", "disk", { rest := [1, 2, 3] }⟩
      rfl rfl rfl⟩
  obtain ⟨intake, between, created, reads⟩ := created
  have arrives : Source.Holds true { rest := [1, 2, 3] } [1, 2, 3] := ⟨by decide, rfl, rfl⟩
  have classified := sniff_plain arrives plain
  have status : (run givenTwice (oneObject { rest := [1, 2, 3] }) .fresh).report.status = 0 := by
    cases sniffed : sniff sniffSize (.ofSource { rest := [1, 2, 3] }) with
    | error fault content =>
      rw [sniffed] at classified
      rcases classified with ⟨-, broken⟩ | ⟨why, faulty, -⟩
      · cases broken
      · cases raw.symm.trans faulty
    | ok found content =>
      rw [sniffed] at classified
      obtain ⟨known, compression⟩ := found
      obtain ⟨-, format, -, left, front, rfl, kept, -⟩ := classified
      cases raw.symm.trans format
      exact status_of_gives created reads rfl sniffed (Content.givesAll_root kept).gives
        (.file opened) read
  obtain ⟨-, accounted⟩ := run_accounted asks_givenTwice (oneObject { rest := [1, 2, 3] }) .fresh
  obtain ⟨location, source, image, format, place, again, origin, unpacks, found, -, there,
    written⟩ := accounted.staged status
  cases located.symm.trans again
  obtain rfl := origin.unique
    (@IntakeSettings.Reads.fetched _ _ _ ⟨"images", "disk", { rest := [1, 2, 3] }⟩ rfl rfl rfl)
  obtain rfl := unpacks.unique (.plain plain)
  cases raw.symm.trans found
  cases opened.symm.trans there
  refine ⟨asks_givenTwice, status, ?_⟩
  rw [written.there]
  decide

end CommandLine

end DiskStaging
