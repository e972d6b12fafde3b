import DiskStaging.Proofs.Lifecycle

/-!
# What transfers come to

A transfer that is called for has a target, or it is refused before it touches anything
(`Session.target_or_refused`). From that follows all that it can come to
(`Session.transfer_outcome`): it goes on to the next phase, or it reports a fault of the
import, and then what counts as written and where the image is have not changed.

In two cases it raises instead. The name of a scratch directory may be too long to be looked
up; nothing was touched then. And the path of the file may not read as a URL; all of the
content was copied by then.
-/

set_option autoImplicit false

namespace DiskStaging

/-! ## Transfers without a target -/

/-- There is only one reason for which a path cannot be looked up. -/
theorem FileTree.nameTooLong_of_isDirectory {files : FileTree} {path : Path} {why : FileFault}
    (failed : files.isDirectory path = .error why) : why = .nameTooLong := by
  unfold isDirectory at failed
  split at failed <;> cases failed
  rfl

/-- A single name that is too long cannot be looked up. -/
theorem FileTree.isDirectory_of_longName (tree : FileTree) {name : String}
    (long : longestName < name.utf8ByteSize) (null : Char.ofNat 0 ∉ name.toList) :
    tree.isDirectory ⟨.here, [name]⟩ = .error .nameTooLong := by
  have text : (Path.mk .here [name]).render = name := by
    have some : name.isEmpty = false := by
      rw [String.isEmpty_eq_utf8ByteSize_beq_zero, beq_eq_false_iff_ne]
      omega
    simp [Path.render, Anchor.text, some]
  have refused : tree.place ⟨.here, [name]⟩ = .error .nameTooLong := by
    unfold place checkPath
    simp only [text, String.contains_char_eq, decide_eq_false null, Bool.false_eq_true, if_false]
    split
    · rfl
    · simp [Bind.bind, Except.bind, Path.last?, step, long, pure, Except.pure]
  rw [isDirectory, refused]

namespace Intake

/-- A copy that fails before it begins leaves everything but the phase. -/
theorem transferWith_refused {intake : Intake} {files : FileTree} {content : Content}
    {operation : Operation} {wanted next : Phase} (fault : Fault)
    {copy : {σ : Type} → Reader σ → Act (FileTree × σ) (Path × Nat)}
    (phase : intake.phase = some wanted) (held : intake.holding = .held content)
    (refused : copy (Streams.reader _ (Fin.last _)) (files, content.streams) =
      .error fault (files, content.streams)) :
    transferWith operation wanted next copy (intake, files) =
      if fault.isA .importer then intake.fail fault files else .error fault (intake, files) := by
  have free : intake.checkPhase operation (some wanted) = .ok () := if_pos phase
  have same : { intake with holding := .held content } = intake := by
    cases intake
    cases held
    rfl
  obtain ⟨streams⟩ := content
  simp only [transferWith, free]
  rw [held]
  dsimp only
  rw [refused]
  dsimp only
  rw [same]

end Intake

namespace Session

section Transferring

variable {intake : Intake} {cloud : Cloud} {files : FileTree} {step : Step} {wanted next : Phase}
  {content : Content} {image : Bytes} {url : Url}

/-- What becomes of a transfer that has no target: it fails with a report, or it raises that
the name of its scratch directory is too long. It touches nothing in both cases. -/
def Refused (before : Session) (step : Step) (ending : Ending Session (Option PhaseResult)) :
    Prop :=
  (∃ fault, ending = .ok (some ⟨.error, some fault⟩)
    { before with intake := { before.intake with phase := some .error } }) ∨
  ∃ scratch, step = .transfer scratch ∧ before.files.isDirectory scratch = .error .nameTooLong ∧
    ending = .error (.file scratch.render .nameTooLong) before

/-- What a transfer comes to if its copy fails before it begins. -/
theorem perform_transfer_refused (cloud : Cloud) (files : FileTree) {scratch : Path}
    (fault : Fault) (phase : intake.phase = some .transferScratch)
    (held : intake.holding = .held content)
    (refused : streamToScratch (Streams.reader _ (Fin.last _)) scratch intake.chunk
      (files, content.streams) = .error fault (files, content.streams)) :
    perform (.transfer scratch) ⟨intake, cloud, files⟩ = ofFiles cloud
      (if fault.isA .importer then intake.fail fault files else .error fault (intake, files)) := by
  rw [perform, some_onFiles, Intake.transfer, Intake.transferWith_refused fault phase held refused]

/-- A transfer raises where the name of its scratch directory is too long. -/
theorem perform_longName (cloud : Cloud) {files : FileTree} {scratch : Path}
    (phase : intake.phase = some .transferScratch) (held : intake.holding = .held content)
    (long : files.isDirectory scratch = .error .nameTooLong) :
    perform (.transfer scratch) ⟨intake, cloud, files⟩ =
      .error (.file scratch.render .nameTooLong) ⟨intake, cloud, files⟩ := by
  rw [perform_transfer_refused cloud files (.file scratch.render .nameTooLong) phase held
    (by simp only [streamToScratch, long])]
  rfl

/-- Into a scratch directory there is a target, unless the directory is missing, its name is
too long or the file in it cannot be opened. -/
theorem scratch_or_refused (cloud : Cloud) (files : FileTree) (scratch : Path)
    (phase : intake.phase = some .transferScratch) (held : intake.holding = .held content) :
    (∃ path place, Target files (.transfer scratch) .transferScratch path place .convert) ∨
      Refused ⟨intake, cloud, files⟩ (.transfer scratch)
        (perform (.transfer scratch) ⟨intake, cloud, files⟩) := by
  cases there : files.isDirectory scratch with
  | error why =>
    obtain rfl := FileTree.nameTooLong_of_isDirectory there
    exact .inr (.inr ⟨scratch, rfl, there, perform_longName cloud phase held there⟩)
  | ok found =>
    cases found with
    | false =>
      refine .inr (.inl ⟨.notScratch scratch.render, ?_⟩)
      rw [perform_transfer_refused cloud files (.notScratch scratch.render) phase held
        (by simp only [streamToScratch, there])]
      rfl
    | true =>
      cases opened : files.openFile (stagingPath scratch) with
      | ok place => exact .inl ⟨_, place, .scratch there opened⟩
      | error why =>
        let fault :=
          Fault.copy (stagingPath scratch).render (.file (stagingPath scratch).render why)
        refine .inr (.inl ⟨fault, ?_⟩)
        rw [perform_transfer_refused cloud files fault phase held
          (by simp only [streamToScratch, there, streamToFile, opened]; rfl)]
        rfl

/-- A path is a target, unless it cannot be opened. -/
theorem file_or_refused (cloud : Cloud) (files : FileTree) (path : Path)
    (phase : intake.phase = some .transferDataFile) (held : intake.holding = .held content) :
    (∃ place, Target files (.transferFile path) .transferDataFile path place .resize) ∨
      Refused ⟨intake, cloud, files⟩ (.transferFile path)
        (perform (.transferFile path) ⟨intake, cloud, files⟩) := by
  cases opened : files.openFile path with
  | ok place => exact .inl ⟨place, .file opened⟩
  | error why =>
    refine .inr (.inl ⟨.copy path.render (.file path.render why), ?_⟩)
    rw [perform, some_onFiles, Intake.transferFile,
      Intake.transferWith_refused (.copy path.render (.file path.render why)) phase held
        (by simp only [Bind.bind, EStateM.bind, streamToFile, opened])]
    rfl

/-- **A transfer has a target or is refused.** -/
theorem target_or_refused (cloud : Cloud) (files : FileTree)
    (phases : step.phases? = some (wanted, next)) (phase : intake.phase = some wanted)
    (held : intake.holding = .held content) :
    (∃ path place, Target files step wanted path place next) ∨
      Refused ⟨intake, cloud, files⟩ step (perform step ⟨intake, cloud, files⟩) := by
  rcases Step.cases_of_phases phases with ⟨scratch, rfl, rfl, rfl⟩ | ⟨path, rfl, rfl, rfl⟩
  · exact scratch_or_refused cloud files scratch phase held
  · rcases file_or_refused cloud files path phase held with ⟨place, target⟩ | refused
    · exact .inl ⟨path, place, target⟩
    · exact .inr refused

end Transferring

/-! ## All that a transfer can come to -/

/-- A fault of the import was reported. The phase says so, and what counts as written and
where the image is are as before. -/
structure Reported (before : Session) (fault : Fault) (after : Session) : Prop where
  importer : fault.isA .importer = true
  phase : after.intake.phase = some .error
  written : after.intake.written = before.intake.written
  url : after.intake.url = before.intake.url

/-- The endings that a transfer should have: it goes on to the next phase, or it reports. -/
def Answered (before : Session) (next : Phase) (result : Option PhaseResult) (after : Session) :
    Prop :=
  result = some ⟨next, none⟩ ∧ after.intake.phase = some next ∨
    ∃ fault, result = some ⟨.error, some fault⟩ ∧ Reported before fault after

/-- Where a transfer raises, and what it has done by then. -/
inductive Raises (before : Session) (step : Step) (wanted next : Phase) : Fault → Session → Prop
  /-- The name of the scratch directory is too long to be looked up. -/
  | longName {scratch : Path} (transfer : step = .transfer scratch)
    (held : before.intake.holding.IsHeld)
    (long : before.files.isDirectory scratch = .error .nameTooLong) :
    Raises before step wanted next (.file scratch.render .nameTooLong) before
  /-- All of the content is in the file, but its path is no URL. -/
  | noUrl {path : Path} {place : Place} {content : Content} {why : UrlFault}
    {all : Reader.Poured (Streams content.count)}
    (target : Target before.files step wanted path place next)
    (held : before.intake.holding = .held content)
    (poured : content.pour (sizeAsked before.intake.chunk) = all) (whole : all.fault = none)
    (unreadable : Url.parse path.render = .error why) :
    Raises before step wanted next (.url why)
      ⟨{ before.intake with holding := .held ⟨all.state⟩, written := all.content.size },
        before.cloud, before.files.write place all.content.toList⟩

/-- A transfer went on: it poured all of its content into its target, and the path of the
target reads as the URL that the image now has. -/
structure GoesOn (before : Session) (step : Step) (wanted next : Phase) (path : Path)
    (content : Content) (after : Session) : Prop where
  phase : before.intake.phase = some wanted
  held : before.intake.holding = .held content
  target : ∃ place, Target before.files step wanted path place next
  whole : (content.pour (sizeAsked before.intake.chunk)).fault = none
  written : after.intake.written = (content.pour (sizeAsked before.intake.chunk)).content.size
  url : Url.parse path.render = .ok after.intake.url

section Outcomes

variable {session after : Session} {step : Step} {wanted next : Phase}

/-- A transfer that does not raise goes on or reports, whatever its copy does. -/
theorem answered_transferWith {intake : Intake} {cloud : Cloud} {files : FileTree}
    {operation : Operation} (phase : intake.phase = some wanted)
    (copy : {σ : Type} → Reader σ → Act (FileTree × σ) (Path × Nat)) {result : Option PhaseResult}
    (ended : ofFiles cloud (Intake.transferWith operation wanted next copy (intake, files)) =
      .ok result after) :
    Answered ⟨intake, cloud, files⟩ next result after := by
  have free : intake.checkPhase operation (some wanted) = .ok () := if_pos phase
  have lost (fault : Fault) (ended : ofFiles cloud (intake.fail fault files) = .ok result after)
      (importer : fault.isA .importer = true) :
      Answered ⟨intake, cloud, files⟩ next result after := by
    cases ended
    exact .inr ⟨fault, rfl, importer, rfl, rfl, rfl⟩
  simp only [Intake.transferWith, free] at ended
  cases holding : intake.holding with
  | nothing =>
    rw [holding] at ended
    exact lost _ ended rfl
  | released source =>
    rw [holding] at ended
    exact lost _ ended rfl
  | held content =>
    obtain ⟨streams⟩ := content
    rw [holding] at ended
    dsimp only at ended
    cases copied : copy (Streams.reader _ (Fin.last _)) (files, streams) with
    | error fault left =>
      obtain ⟨written, streams⟩ := left
      rw [copied] at ended
      dsimp only at ended
      split at ended
      · rename_i importer
        cases ended
        exact .inr ⟨fault, rfl, importer, rfl, rfl, rfl⟩
      · cases ended
    | ok given left =>
      obtain ⟨path, size⟩ := given
      obtain ⟨written, streams⟩ := left
      rw [copied] at ended
      simp only [Intake.finish] at ended
      cases read : Url.parse path.render with
      | error why =>
        rw [read] at ended
        cases ended
      | ok url =>
        rw [read] at ended
        cases ended
        exact .inl ⟨rfl, rfl⟩

theorem answered_of_ok (phases : step.phases? = some (wanted, next))
    (phase : session.intake.phase = some wanted) {result : Option PhaseResult}
    (ended : perform step session = .ok result after) : Answered session next result after := by
  obtain ⟨intake, cloud, files⟩ := session
  rcases Step.cases_of_phases phases with ⟨scratch, rfl, rfl, rfl⟩ | ⟨path, rfl, rfl, rfl⟩
  · rw [perform, some_onFiles, Intake.transfer] at ended
    exact answered_transferWith phase _ ended
  · rw [perform, some_onFiles, Intake.transferFile] at ended
    exact answered_transferWith phase _ ended

/-- A transfer goes on if its content is whole and the path of its target reads as a URL. -/
theorem perform_goesOn (session : Session) {content : Content} {path : Path} {place : Place}
    {url : Url} {all : Reader.Poured (Streams content.count)}
    (target : Target session.files step wanted path place next)
    (phase : session.intake.phase = some wanted) (held : session.intake.holding = .held content)
    (poured : content.pour (sizeAsked session.intake.chunk) = all) (whole : all.fault = none)
    (read : Url.parse path.render = .ok url) :
    perform step session = .ok (some ⟨next, none⟩)
      ⟨{ session.intake with
          holding := .held ⟨all.state⟩
          written := all.content.size
          url
          phase := some next },
        session.cloud, session.files.write place all.content.toList⟩ := by
  obtain ⟨intake, cloud, files⟩ := session
  rw [perform_transfer cloud target phase held]
  dsimp only at poured ⊢
  simp only [Intake.poured, poured, whole, read, ofFiles]

/-- A transfer that ends in the next phase went on so. -/
theorem goesOn_of_done (phases : step.phases? = some (wanted, next))
    (done : perform step session = .ok (some ⟨next, none⟩) after) :
    ∃ path content, GoesOn session step wanted next path content after := by
  have does := perform_does session step
  rw [done] at does
  obtain ⟨intake, cloud, files⟩ := session
  obtain ⟨phase, content, held⟩ : intake.phase = some wanted ∧ intake.holding.IsHeld := by
    cases does with
    | closed closes _ _ _ => rcases closes with rfl | rfl <;> cases phases
    | opened _ _ => cases phases
    | done other phase held =>
      obtain ⟨rfl, -⟩ := Prod.mk.inj (Option.some_inj.mp (phases.symm.trans other))
      exact ⟨phase, held⟩
  rcases target_or_refused cloud files phases phase held with
    ⟨path, place, target⟩ | ⟨fault, refused⟩ | ⟨scratch, -, -, raised⟩
  · rw [perform_transfer cloud target phase held] at done
    unfold Intake.poured at done
    cases whole : (content.pour (sizeAsked intake.chunk)).fault with
    | some fault =>
      simp only [whole] at done
      cases done
    | none =>
      simp only [whole] at done
      cases read : Url.parse path.render with
      | error why =>
        rw [read] at done
        cases done
      | ok url =>
        rw [read] at done
        cases done
        exact ⟨path, content, phase, held, ⟨place, target⟩, whole, rfl, read⟩
  · cases refused.symm.trans done
  · cases raised.symm.trans done

/-- A transfer that pours its content raises only if the path is no URL. -/
theorem raises_of_poured {content : Content} {path : Path} {place : Place} {fault : Fault}
    (target : Target session.files step wanted path place next)
    (held : session.intake.holding = .held content)
    (ended : ofFiles session.cloud (session.intake.poured path next
      (content.pour (sizeAsked session.intake.chunk)) (session.files.write place
        (content.pour (sizeAsked session.intake.chunk)).content.toList)) = .error fault after) :
    Raises session step wanted next fault after := by
  unfold Intake.poured at ended
  cases broken : (content.pour (sizeAsked session.intake.chunk)).fault with
  | some why =>
    simp only [broken] at ended
    cases ended
  | none =>
    simp only [broken] at ended
    cases read : Url.parse path.render with
    | ok url =>
      rw [read] at ended
      cases ended
    | error why =>
      rw [read] at ended
      cases ended
      exact .noUrl target held rfl broken read

theorem raises_of_error (phases : step.phases? = some (wanted, next))
    (phase : session.intake.phase = some wanted) {fault : Fault}
    (ended : perform step session = .error fault after) :
    Raises session step wanted next fault after := by
  obtain ⟨intake, cloud, files⟩ := session
  by_cases held : intake.holding.IsHeld
  · obtain ⟨content, holding⟩ := held
    rcases target_or_refused cloud files phases phase holding with
      ⟨path, place, target⟩ | ⟨reported, refused⟩ | ⟨scratch, transfer, long, raised⟩
    · rw [perform_transfer cloud target phase holding] at ended
      exact raises_of_poured target holding ended
    · cases refused.symm.trans ended
    · cases raised.symm.trans ended
      exact .longName transfer ⟨content, holding⟩ long
  · have does := perform_does ⟨intake, cloud, files⟩ step
    rw [ended] at does
    cases does with
    | refused misplaced kind => exact absurd misplaced (Step.not_misplaced phases phase)
    | closed closes _ _ _ =>
      rcases closes with rfl | rfl <;> cases phases
    | raised _ _ there => exact absurd there held

theorem error_of_raises (phases : step.phases? = some (wanted, next))
    (phase : session.intake.phase = some wanted) {fault : Fault}
    (raises : Raises session step wanted next fault after) :
    perform step session = .error fault after := by
  obtain ⟨intake, cloud, files⟩ := session
  cases raises with
  | longName transfer held long =>
    obtain rfl := transfer
    obtain ⟨content, holding⟩ := held
    cases phases
    exact perform_longName cloud phase holding long
  | noUrl target held poured whole unreadable =>
    rw [perform_transfer cloud target phase held]
    dsimp only at poured ⊢
    simp only [Intake.poured, poured, whole, unreadable, ofFiles]

/-- **A transfer that is called for reports its failures, but for two.** If it does not
raise, it goes on to the next phase, or it reports a fault of the import and leaves what
counts as written and where the image is as they were. It raises exactly where the name of
its scratch directory is too long, having touched nothing, and where the path of its file is
no URL, having copied everything. -/
theorem transfer_outcome (phases : step.phases? = some (wanted, next))
    (phase : session.intake.phase = some wanted) :
    (∀ result after, perform step session = .ok result after →
      Answered session next result after) ∧
      ∀ fault after, perform step session = .error fault after ↔
        Raises session step wanted next fault after :=
  ⟨fun _ _ => answered_of_ok phases phase,
    fun _ _ => ⟨raises_of_error phases phase, error_of_raises phases phase⟩⟩

end Outcomes

/-- A session in which an image was opened, and looked at as a whole. Its working directory
holds a directory that is named by a tab. -/
def lookedAt (image : Bytes) (format : ImageFormat) : Session :=
  let fresh := beginning { rest := [], position := image.length } none
  { fresh with
    intake := { fresh.intake with
      holding := .held ⟨.root { rest := [], position := image.length } { peeked := image }⟩
      format := some format
      phase := some (Intake.nextPhase format) }
    files := FileTree.fresh.makeDirectory ⟨.here, ["x:", "\t"]⟩ }

/-- A name of so many letters. -/
def letters (count : Nat) : String := String.ofList (List.replicate count 'a')

theorem utf8ByteSize_letters (count : Nat) : (letters count).utf8ByteSize = count := by
  have bytes : (List.replicate count 'a').flatMap String.utf8EncodeChar =
      List.replicate count 0x61 := by
    rw [List.flatMap_replicate]
    exact List.flatten_replicate_singleton
  rw [letters, ← String.size_toByteArray, String.toByteArray_ofList, List.utf8Encode, bytes]
  simp

theorem mem_letters {count : Nat} {c : Char} (inside : c ∈ (letters count).toList) : c = 'a' := by
  rw [letters, String.toList_ofList] at inside
  exact List.eq_of_mem_replicate inside

/-- A transfer into a directory whose name is too long, and one into a file whose path announces
a host. -/
theorem transfer_outcome_raised :
    perform (.transfer ⟨.here, [letters 300]⟩) (lookedAt [1] .qcow2) =
        .error (.file (Path.mk .here [letters 300]).render .nameTooLong) (lookedAt [1] .qcow2) ∧
      ∃ after, perform (.transferFile ⟨.here, ["x:", "\t", "["]⟩) (lookedAt [1, 2, 3] .raw) =
        .error (.url .misplacedBrackets) after ∧ after.intake.written = 3 := by
  have opened : (lookedAt [1, 2, 3] .raw).files.openFile ⟨.here, ["x:", "\t", "["]⟩ =
      .ok ["tmp", "work", "x:", "\t", "["] := by cbv
  have noUrl : Url.parse (Path.mk .here ["x:", "\t", "["]).render = .error .misplacedBrackets := by
    decide +kernel
  refine ⟨?_, ?_⟩
  · refine ((transfer_outcome rfl rfl).2 _ _).mpr (.longName rfl ⟨_, rfl⟩ ?_)
    refine FileTree.isDirectory_of_longName _ ?_ fun null => ?_
    · rw [utf8ByteSize_letters]
      decide
    · cases mem_letters null
  · refine ⟨_, ((transfer_outcome rfl rfl).2 _ _).mpr (.noUrl (.file opened) rfl rfl ?_ noUrl), ?_⟩
    · decide +kernel
    · decide +kernel

end Session

end DiskStaging
