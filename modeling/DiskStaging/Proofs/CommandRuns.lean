import DiskStaging.CommandLine.Run
import DiskStaging.Proofs.Ownership
import DiskStaging.Proofs.TransferOutcomes

/-!
# What a run of the command comes to

A run of the command is a session: `info` looks at the image, and the transfer that its phase
asks for is done (`CommandLine.run_of_stage`). Whatever goes wrong there is reported. The intake
is closed at the end, and closing the source may raise. After an image that was not accepted,
there is nothing left to close. After a transfer, a fault of closing is reported in place of the
fault of the transfer, and also after a transfer that went well (`CommandLine.course_iff`).
-/

set_option autoImplicit false

namespace DiskStaging

namespace Session

/-- What went wrong with a step: the fault that it raises or reports. -/
def failure? : Ending Session (Option PhaseResult) → Option Fault
  | .ok result _ => result.bind (·.fault)
  | .error fault _ => some fault

section Calls

variable {α : Type} {act : Act Session α} {session after : Session}

theorem ok_of_map_some {value : α}
    (ended : (some <$> act : Act Session (Option α)) session = .ok (some value) after) :
    act session = .ok value after := by
  simp only [Functor.map, EStateM.map] at ended
  cases ran : act session with
  | ok value after =>
    rw [ran] at ended
    cases ended
    rfl
  | error fault after =>
    rw [ran] at ended
    cases ended

theorem error_of_map_some {fault : Fault}
    (ended : (some <$> act : Act Session (Option α)) session = .error fault after) :
    act session = .error fault after := by
  simp only [Functor.map, EStateM.map] at ended
  cases ran : act session with
  | ok value after =>
    rw [ran] at ended
    cases ended
  | error fault after =>
    rw [ran] at ended
    cases ended
    rfl

end Calls

end Session

namespace CommandLine

open Session

/-- The transfer that a phase asks for. -/
def Arguments.transfer (arguments : Arguments) (phase : Phase) : Step :=
  if phase = .transferScratch then .transfer (.parse arguments.scratchDir)
  else .transferFile (.parse arguments.dest)

section Stages

variable {arguments : Arguments} {session middle after : Session} {phase next : Phase}
  {fault : Fault}

/-- An image that is not accepted ends the session. -/
theorem stage_of_unread (info : perform .info session = .ok (some ⟨phase, some fault⟩) after) :
    stage arguments session = .error fault after := by
  have looked := ok_of_map_some info
  simp only [stage, Bind.bind, EStateM.bind, looked, checked]
  rfl

/-- After an image that is accepted, the transfer that its phase asks for is done. -/
theorem stage_of_read (arguments : Arguments)
    (info : perform .info session = .ok (some ⟨phase, none⟩) middle) :
    ∃ act : Act Session PhaseResult, perform (arguments.transfer phase) = some <$> act ∧
      stage arguments session =
        (do
          let phase ← checked (← act)
          return (phase, (← get).intake.url.render)) middle := by
  have looked := ok_of_map_some info
  by_cases scratch : phase = .transferScratch
  · refine ⟨onFiles (Intake.transfer (.parse arguments.scratchDir)), ?_, ?_⟩
    · rw [Arguments.transfer, if_pos scratch]
      rfl
    · simp only [stage, Bind.bind, EStateM.bind, looked, checked, scratch]
      rfl
  · refine ⟨onFiles (Intake.transferFile (.parse arguments.dest)), ?_, ?_⟩
    · rw [Arguments.transfer, if_neg scratch]
      rfl
    · simp only [stage, Bind.bind, EStateM.bind, looked, checked, Pure.pure, EStateM.pure,
        if_neg scratch]

/-- A transfer that goes wrong ends the session with its fault. -/
theorem stage_of_failed (info : perform .info session = .ok (some ⟨phase, none⟩) middle)
    (failed : failure? (perform (arguments.transfer phase) middle) = some fault) :
    stage arguments session =
      .error fault (Ending.state (perform (arguments.transfer phase) middle)) := by
  obtain ⟨act, same, stage⟩ := stage_of_read arguments info
  rw [stage]
  cases moved : perform (arguments.transfer phase) middle with
  | error why after =>
    rw [moved] at failed
    cases failed
    rw [same] at moved
    simp only [Bind.bind, EStateM.bind, error_of_map_some moved, Ending.state]
  | ok result after =>
    rw [moved] at failed
    cases result with
    | none => cases failed
    | some result =>
      obtain ⟨next, why⟩ := result
      rw [same] at moved
      cases failed
      simp only [Bind.bind, EStateM.bind, ok_of_map_some moved, checked, Ending.state]
      rfl

theorem stage_of_done (info : perform .info session = .ok (some ⟨phase, none⟩) middle)
    (done : perform (arguments.transfer phase) middle = .ok (some ⟨next, none⟩) after) :
    stage arguments session = .ok (next, after.intake.url.render) after := by
  obtain ⟨act, same, stage⟩ := stage_of_read arguments info
  rw [same] at done
  rw [stage]
  simp only [Bind.bind, EStateM.bind, ok_of_map_some done, checked]
  rfl

end Stages

/-! ## Looking at the image -/

section Looking

variable {settings : IntakeSettings} {intake : Intake} {before cloud : Cloud}

/-- **What `info` does in a run.** It reports a fault and keeps nothing, or it accepts the image
that its source holds. -/
theorem looked_of_created (created : Intake.create settings before = .ok intake cloud)
    (files : FileTree) :
    (∃ fault after, perform .info ⟨intake, cloud, files⟩ = .ok (some ⟨.error, some fault⟩) after ∧
      ¬ after.intake.holding.IsHeld ∧ after.files = files) ∨
    ∃ source found content after, settings.Reads intake.location cloud source ∧
      sniff sniffSize (.ofSource source) = .ok found content ∧
      perform .info ⟨intake, cloud, files⟩ = .ok (some ⟨Intake.nextPhase found.format, none⟩)
        ⟨{ intake with
            holding := .held content
            format := some found.format
            compression := found.compression
            phase := some (Intake.nextPhase found.format) }, after, files⟩ := by
  rcases Intake.reads_or_refused created cloud with
    ⟨source, reads⟩ | ⟨-, cause, after, -, unopened⟩
  · have begins : Begins settings source ⟨intake, cloud, files⟩ := ⟨⟨before, cloud, created⟩, reads⟩
    obtain ⟨after, info⟩ := begins.info
    cases sniffed : sniff sniffSize (.ofSource source) with
    | error fault content =>
      rw [sniffed] at info
      exact .inl ⟨_, _, info, not_isHeld_released _, rfl⟩
    | ok found content =>
      rw [sniffed] at info
      exact .inr ⟨source, found, content, after, reads, sniffed, info⟩
  · obtain ⟨location, client, -, same⟩ := Intake.create_eq created
    have fresh : intake.phase = none ∧ intake.closed = false := by
      rw [same]
      exact ⟨rfl, rfl⟩
    refine .inl ⟨_, _, info_unopened files fresh.1 fresh.2 unopened, ?_, rfl⟩
    rintro ⟨content, held⟩
    replace held : intake.holding = .held content := held
    simp only [Intake.openContent, held] at unopened
    cases unopened

end Looking

/-! ## Closing -/

section Closing

variable {arguments : Arguments} {cloud between : Cloud} {files : FileTree} {intake : Intake}

/-- **A run is a session that is closed at the end**, and what closing raises is reported. -/
theorem run_of_stage {ending : Ending Session (Phase × String)}
    (created : Intake.create arguments.settings cloud = .ok intake between)
    (ran : stage arguments ⟨intake, between, files⟩ = ending) :
    (run arguments cloud files).report =
        (match (Ending.fault? (Intake.close (Ending.state ending).intake)).or (staged ending).2 with
        | some fault => (staged ending).1.failed arguments.verbose fault
        | none => (staged ending).1) ∧
      (run arguments cloud files).files = (Ending.state ending).files := by
  rw [run, created]
  dsimp only
  rw [ran]
  obtain ⟨intake, cloud, files⟩ := Ending.state ending
  simp only [onIntake]
  cases Intake.close intake with
  | error late intake => exact ⟨rfl, rfl⟩
  | ok value intake =>
    cases (staged ending).2 <;> exact ⟨rfl, rfl⟩

/-- Closing an intake that holds open content raises what closing the source raises. -/
theorem fault?_close {closes : Nat} {raises : Option Fault}
    (held : intake.holding.Holds fun content =>
      content.IsOpen closes ∧ content.source.closeFault = raises) :
    Ending.fault? (Intake.close intake) = raises := by
  obtain ⟨content, holding, opened, same⟩ := held
  simp only [Intake.close, holding]
  rw [Ending.fault?_inside, opened.fault?_close, same]

/-- After a transfer, closing raises what closing the source that was opened raises. -/
theorem fault?_close_transferred {source : Source} {found : Sniffed} {content : Content}
    {session : Session} {step : Step} {wanted next : Phase}
    (sniffed : sniff sniffSize (.ofSource source) = .ok found content)
    (held : session.intake.holding = .held content)
    (phases : step.phases? = some (wanted, next)) :
    Ending.fault? (Intake.close (Ending.state (perform step session)).intake) =
      source.closeFault := by
  have keeps : Source.reader.Keeps fun other => other.closeFault = source.closeFault :=
    Source.reader_keeps_of fun _ _ _ _ same => same
  have lasting := (Content.isOpen_lasting source.closes).and (Content.source_lasting keeps)
  have looked := (sniff_keeps lasting sniffSize).ok ⟨Content.isOpen_ofSource source, rfl⟩ sniffed
  exact fault?_close (holds_of_transfer lasting step phases ⟨content, held, looked⟩)

theorem phases_transfer (arguments : Arguments) (format : ImageFormat) :
    (arguments.transfer (Intake.nextPhase format)).phases? =
      some (Intake.nextPhase format, if format = .raw then .resize else .convert) := by
  rcases Intake.nextPhase_cases format with ⟨raw, next⟩ | ⟨packed, next⟩
  · rw [next, if_pos raw]
    rfl
  · rw [next, if_neg packed]
    rfl

end Closing

/-! ## Reports -/

/-- What a run reports and the files that it leaves. -/
inductive Course (arguments : Arguments) (cloud : Cloud) (files : FileTree) :
    Report → FileTree → Prop
  /-- The source names no object, or there is no client for it. -/
  | unready {fault : Fault} {after : Cloud}
    (created : Intake.create arguments.settings cloud = .error fault after) :
    Course arguments cloud files ⟨1, "", faultText arguments.verbose fault⟩ files
  /-- There is no object, or it holds no image. -/
  | unread {intake : Intake} {between : Cloud} {fault : Fault} {after : Session}
    (created : Intake.create arguments.settings cloud = .ok intake between)
    (info : perform .info ⟨intake, between, files⟩ = .ok (some ⟨.error, some fault⟩) after) :
    Course arguments cloud files ⟨1, "", faultText arguments.verbose fault⟩ files
  /-- The transfer goes wrong, and perhaps closing as well. -/
  | unwritten {intake : Intake} {between : Cloud} {phase : Phase} {middle : Session}
    {source : Source} {fault : Fault}
    (created : Intake.create arguments.settings cloud = .ok intake between)
    (reads : arguments.settings.Reads intake.location cloud source)
    (info : perform .info ⟨intake, between, files⟩ = .ok (some ⟨phase, none⟩) middle)
    (failed : failure? (perform (arguments.transfer phase) middle) = some fault) :
    Course arguments cloud files
      ⟨1, "", faultText arguments.verbose (source.closeFault.getD fault)⟩
      (Ending.state (perform (arguments.transfer phase) middle)).files
  /-- The image is written, and closing may still go wrong. -/
  | written {intake : Intake} {between : Cloud} {phase next : Phase} {middle after : Session}
    {source : Source} (created : Intake.create arguments.settings cloud = .ok intake between)
    (reads : arguments.settings.Reads intake.location cloud source)
    (info : perform .info ⟨intake, between, files⟩ = .ok (some ⟨phase, none⟩) middle)
    (done : perform (arguments.transfer phase) middle = .ok (some ⟨next, none⟩) after) :
    Course arguments cloud files
      (match source.closeFault with
        | none => success next after.intake.url.render
        | some late => (success next after.intake.url.render).failed arguments.verbose late)
      after.files

section Courses

variable {arguments : Arguments} {cloud : Cloud} {files left : FileTree} {report : Report}

/-- A transfer goes wrong, or leads to a phase. -/
theorem failed_or_done {step : Step} {wanted next : Phase}
    (phases : step.phases? = some (wanted, next)) (session : Session) :
    (∃ fault, failure? (perform step session) = some fault) ∨
      ∃ after, perform step session = .ok (some ⟨next, none⟩) after := by
  have does := perform_does session step
  generalize perform step session = ending at does ⊢
  cases does with
  | refused | lost | failed | raised => exact .inl ⟨_, rfl⟩
  | entered | notOpened | opened => cases phases
  | closed closes => rcases closes with rfl | rfl <;> cases phases
  | done other =>
    cases phases.symm.trans other
    exact .inr ⟨_, rfl⟩

/-- A run takes some course. -/
theorem exists_course (arguments : Arguments) (cloud : Cloud) (files : FileTree) :
    ∃ report left, Course arguments cloud files report left := by
  cases created : Intake.create arguments.settings cloud with
  | error fault after => exact ⟨_, _, .unready created⟩
  | ok intake between =>
    rcases looked_of_created created files with
      ⟨fault, after, info, -⟩ | ⟨source, found, content, after, reads, sniffed, info⟩
    · exact ⟨_, _, .unread created info⟩
    · have origin := reads_of_create created reads
      rcases failed_or_done (phases_transfer arguments found.format) _ with
        ⟨fault, failed⟩ | ⟨after, done⟩
      · exact ⟨_, _, .unwritten created origin info failed⟩
      · exact ⟨_, _, .written created origin info done⟩

/-- What closing raises after a transfer of an image that `info` accepted. -/
theorem fault?_close_of_info {between : Cloud} {intake : Intake} {source : Source} {phase : Phase}
    {middle : Session} (created : Intake.create arguments.settings cloud = .ok intake between)
    (reads : arguments.settings.Reads intake.location cloud source)
    (info : perform .info ⟨intake, between, files⟩ = .ok (some ⟨phase, none⟩) middle) :
    Ending.fault? (Intake.close
      (Ending.state (perform (arguments.transfer phase) middle)).intake) = source.closeFault := by
  rcases looked_of_created created files with
    ⟨fault, after, other, -⟩ | ⟨origin, found, content, after, again, sniffed, looked⟩
  · cases info.symm.trans other
  · cases info.symm.trans looked
    obtain rfl := reads.unique (reads_of_create created again)
    exact fault?_close_transferred sniffed rfl (phases_transfer arguments found.format)

/-- A run reports what its course says. -/
theorem Course.run (course : Course arguments cloud files report left) :
    (run arguments cloud files).report = report ∧ (run arguments cloud files).files = left := by
  have alone (fault : Fault) : Report.failed { status := 0 } arguments.verbose fault =
      ⟨1, "", faultText arguments.verbose fault⟩ := by
    rw [Report.failed, String.empty_append]
  cases course with
  | unready created =>
    rw [CommandLine.run, created]
    exact ⟨alone _, rfl⟩
  | unread created info =>
    rcases looked_of_created created files with
      ⟨fault, after, other, gone, same⟩ | ⟨origin, found, content, after, -, -, looked⟩
    · cases info.symm.trans other
      obtain ⟨reported, kept⟩ := run_of_stage created (stage_of_unread info)
      rw [Ending.state, Intake.close_of_not_held gone] at reported
      exact ⟨reported.trans (alone _), kept.trans same⟩
    · cases congrArg failure? (info.symm.trans looked)
  | @unwritten _ _ _ _ source fault created reads info failed =>
    obtain ⟨reported, kept⟩ := run_of_stage created (stage_of_failed info failed)
    rw [Ending.state, fault?_close_of_info created reads info] at reported
    refine ⟨?_, kept⟩
    rw [reported]
    cases source.closeFault <;> exact alone _
  | @written _ _ _ _ _ _ source created reads info done =>
    obtain ⟨reported, kept⟩ := run_of_stage created (stage_of_done info done)
    have closing := fault?_close_of_info created reads info
    rw [done, Ending.state] at closing
    rw [Ending.state, closing] at reported
    refine ⟨?_, kept⟩
    rw [reported]
    cases source.closeFault <;> rfl

/-- **What a run reports.** -/
theorem course_iff :
    Course arguments cloud files report left ↔
      (run arguments cloud files).report = report ∧ (run arguments cloud files).files = left := by
  refine ⟨Course.run, ?_⟩
  rintro ⟨rfl, rfl⟩
  obtain ⟨report, left, course⟩ := exists_course arguments cloud files
  rwa [course.run.1, course.run.2]

/-- Arguments that name a source and nothing else. -/
def asking (source : String) : Arguments where
  source := source
  backend := none
  accessKey := ""
  secretKey := ""
  certDir := ""
  serviceAccountKey := ""
  scratchDir := "."
  dest := "disk.img"
  verbose := false

end Courses

end CommandLine

end DiskStaging
