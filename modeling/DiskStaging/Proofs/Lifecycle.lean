import DiskStaging.Proofs.Operations

/-!
# The life of an intake

What a call can do is said once (`Session.Does`), and every call does one of these
things (`Session.perform_does`). From that follows what holds along every run of calls,
whatever the cloud, the files and the source do in between (`Session.Reached`): the
phase moves only as it may, and what is known of the image fits the phase
(`Session.reached_sound`). A call out of turn is refused and changes nothing, and once
an intake is closed, no call touches anything outside (`Session.reached_conforms`).
-/

set_option autoImplicit false

namespace DiskStaging

/-- The phases that a phase leads to. Nothing leads on from the last phases. -/
inductive Phase.Leads : Option Phase → Phase → Prop
  | needsScratch : Leads none .transferScratch
  | needsNoScratch : Leads none .transferDataFile
  | notOpened : Leads none .error
  | staged : Leads (some .transferScratch) .convert
  | notStaged : Leads (some .transferScratch) .error
  | stored : Leads (some .transferDataFile) .resize
  | notStored : Leads (some .transferDataFile) .error

namespace Step

/-- The phase that a transfer needs and the one that it leads to. -/
def phases? : Step → Option (Phase × Phase)
  | .transfer _ => some (.transferScratch, .convert)
  | .transferFile _ => some (.transferDataFile, .resize)
  | _ => none

/-- Whether a call is out of turn. -/
def Misplaced (intake : Intake) : Step → Prop
  | .info => intake.closed = true ∨ intake.phase ≠ none
  | .transfer _ => intake.phase ≠ some .transferScratch
  | .transferFile _ => intake.phase ≠ some .transferDataFile
  | _ => False

/-- There are two transfers. -/
theorem cases_of_phases {step : Step} {wanted next : Phase}
    (phases : step.phases? = some (wanted, next)) :
    (∃ scratch, step = .transfer scratch ∧ wanted = .transferScratch ∧ next = .convert) ∨
      ∃ path, step = .transferFile path ∧ wanted = .transferDataFile ∧ next = .resize := by
  cases step with
  | transfer scratch =>
    cases phases
    exact .inl ⟨scratch, rfl, rfl, rfl⟩
  | transferFile path =>
    cases phases
    exact .inr ⟨path, rfl, rfl, rfl⟩
  | info => cases phases
  | close => cases phases
  | enter => cases phases
  | exit => cases phases

/-- A transfer leads from the phase that it needs to a next one or to the error phase. -/
theorem leads_of_phases {step : Step} {wanted next : Phase}
    (phases : step.phases? = some (wanted, next)) :
    Phase.Leads (some wanted) next ∧ Phase.Leads (some wanted) .error := by
  rcases cases_of_phases phases with ⟨scratch, rfl, rfl, rfl⟩ | ⟨path, rfl, rfl, rfl⟩
  · exact ⟨.staged, .notStaged⟩
  · exact ⟨.stored, .notStored⟩

/-- A transfer in the phase that it needs is in turn. -/
theorem not_misplaced {step : Step} {wanted next : Phase} {intake : Intake}
    (phases : step.phases? = some (wanted, next)) (phase : intake.phase = some wanted) :
    ¬ step.Misplaced intake := by
  rcases cases_of_phases phases with ⟨scratch, rfl, rfl, rfl⟩ | ⟨path, rfl, rfl, rfl⟩
  · intro misplaced
    exact misplaced phase
  · intro misplaced
    exact misplaced phase

/-- `info` is in turn where nothing was done yet. -/
theorem idle_of_not_misplaced {intake : Intake} (placed : ¬ Step.info.Misplaced intake) :
    intake.phase = none ∧ intake.closed = false := by
  refine ⟨?_, Bool.eq_false_iff.mpr fun shut => placed (.inl shut)⟩
  exact Decidable.byContradiction fun busy => placed (.inr busy)

/-- A transfer in any other phase is out of turn. -/
theorem misplaced_of_phases {step : Step} {wanted next : Phase} {intake : Intake}
    (phases : step.phases? = some (wanted, next)) (other : intake.phase ≠ some wanted) :
    step.Misplaced intake := by
  rcases cases_of_phases phases with ⟨scratch, rfl, rfl, rfl⟩ | ⟨path, rfl, rfl, rfl⟩
  · exact other
  · exact other

end Step

namespace Holding

/-- Whether there is content that can be read. -/
def IsHeld (holding : Holding) : Prop := ∃ content, holding = .held content

/-- What is held is of the same kind, whatever its source did in between. -/
inductive Akin : Holding → Holding → Prop
  | nothing : Akin .nothing .nothing
  | held (content other : Content) : Akin (.held content) (.held other)
  | released (source other : Source) : Akin (.released source) (.released other)

theorem Akin.refl (holding : Holding) : Akin holding holding := by
  cases holding with
  | nothing => exact .nothing
  | held content => exact .held content content
  | released source => exact .released source source

/-- Whether content is held does not depend on what its source did. -/
theorem Akin.isHeld_iff {holding other : Holding} (akin : Akin holding other) :
    other.IsHeld ↔ holding.IsHeld := by
  cases akin with
  | nothing => rfl
  | held content other => exact ⟨fun _ => ⟨content, rfl⟩, fun _ => ⟨other, rfl⟩⟩
  | released source other =>
    constructor
    · rintro ⟨content, same⟩
      cases same
    · rintro ⟨content, same⟩
      cases same

end Holding

/-- A raw image goes straight into a file, and any other into scratch space. -/
theorem Intake.nextPhase_cases (format : ImageFormat) :
    format = .raw ∧ Intake.nextPhase format = .transferDataFile ∨
      format ≠ .raw ∧ Intake.nextPhase format = .transferScratch := by
  by_cases raw : format = .raw
  · exact .inl ⟨raw, by rw [raw]; rfl⟩
  · exact .inr ⟨raw, if_pos (decide_eq_true raw)⟩

/-- Closing an intake that holds no content only marks it. -/
theorem Intake.close_of_not_held {intake : Intake} (gone : ¬ intake.holding.IsHeld) :
    Intake.close intake = .ok () { intake with closed := true } := by
  unfold Intake.close
  dsimp only
  split
  · rename_i content holding
    exact absurd ⟨content, holding⟩ gone
  · rfl

namespace Session

/-! ## What a call can do -/

/-- The endings that a call can have. -/
inductive Does (session : Session) : Step → Ending Session (Option PhaseResult) → Prop
  /-- A call out of turn changes nothing. -/
  | refused {step : Step} {fault : Fault} (misplaced : step.Misplaced session.intake)
    (kind : fault.kind = .phase) : Does session step (.error fault session)
  | entered : Does session .enter (.ok none session)
  /-- Closing lets the content go; a source may object, but is let go as well. -/
  | closed {step : Step} {holding : Holding} {ending : Ending Session (Option PhaseResult)}
    (closes : step = .close ∨ step = .exit) (gone : ¬ holding.IsHeld)
    (kept : ¬ session.intake.holding.IsHeld → holding = session.intake.holding)
    (ended : Ending.state ending =
      { session with intake := { session.intake with closed := true, holding } }) :
    Does session step ending
  | notOpened {fault : Fault} {cloud : Cloud} {holding : Holding}
    (idle : session.intake.phase = none) (usable : session.intake.closed = false) :
    Does session .info (.ok (some ⟨.error, some fault⟩)
      ⟨{ session.intake with holding, phase := some .error }, cloud, session.files⟩)
  | opened {format : ImageFormat} {compression : Option Compression} {content : Content}
    {cloud : Cloud} (idle : session.intake.phase = none)
    (usable : session.intake.closed = false) :
    Does session .info (.ok (some ⟨Intake.nextPhase format, none⟩)
      ⟨{ session.intake with
          holding := .held content
          format := some format
          compression
          phase := some (Intake.nextPhase format) }, cloud, session.files⟩)
  /-- There is no content any more that a transfer could read. -/
  | lost {step : Step} {wanted next : Phase} {fault : Fault}
    (phases : step.phases? = some (wanted, next)) (phase : session.intake.phase = some wanted)
    (gone : ¬ session.intake.holding.IsHeld) :
    Does session step (.ok (some ⟨.error, some fault⟩)
      { session with intake := { session.intake with phase := some .error } })
  | failed {step : Step} {wanted next : Phase} {fault : Fault} {content : Content}
    {files : FileTree} (phases : step.phases? = some (wanted, next))
    (phase : session.intake.phase = some wanted) (held : session.intake.holding.IsHeld) :
    Does session step (.ok (some ⟨.error, some fault⟩)
      ⟨{ session.intake with holding := .held content, phase := some .error }, session.cloud,
        files⟩)
  | raised {step : Step} {wanted next : Phase} {fault : Fault} {content : Content}
    {files : FileTree} {written : Nat} (phases : step.phases? = some (wanted, next))
    (phase : session.intake.phase = some wanted) (held : session.intake.holding.IsHeld) :
    Does session step (.error fault
      ⟨{ session.intake with holding := .held content, written }, session.cloud, files⟩)
  | done {step : Step} {wanted next : Phase} {content : Content} {files : FileTree}
    {written : Nat} {url : Url} (phases : step.phases? = some (wanted, next))
    (phase : session.intake.phase = some wanted) (held : session.intake.holding.IsHeld) :
    Does session step (.ok (some ⟨next, none⟩)
      ⟨{ session.intake with holding := .held content, written, url, phase := some next },
        session.cloud, files⟩)

theorem info_does (session : Session) : Does session .info (perform .info session) := by
  obtain ⟨intake, cloud, files⟩ := session
  by_cases shut : intake.closed = true
  · have refused : perform .info ⟨intake, cloud, files⟩ =
        .error (.infoAfterClose intake.name) ⟨intake, cloud, files⟩ := by
      simp only [perform, onCloud, Functor.map, EStateM.map, Intake.info, if_pos shut]
      rfl
    rw [refused]
    exact .refused (.inl shut) rfl
  · by_cases idle : intake.phase = none
    · have usable : intake.closed = false := Bool.eq_false_iff.mpr shut
      cases ready : intake.openContent cloud with
      | error fault after =>
        rw [info_unopened files idle usable ready]
        exact .notOpened idle usable
      | ok content after =>
        rw [info_eq files idle usable ready]
        cases sniff sniffSize content with
        | error fault left => exact .notOpened idle usable
        | ok found left => exact .opened idle usable
    · have busy : intake.checkPhase .info none =
          .error (.wrongPhase .info none intake.name intake.phase) := if_neg idle
      have refused : perform .info ⟨intake, cloud, files⟩ =
          .error (.wrongPhase .info none intake.name intake.phase) ⟨intake, cloud, files⟩ := by
        simp only [perform, onCloud, Functor.map, EStateM.map, Intake.info, if_neg shut, busy]
        rfl
      rw [refused]
      exact .refused (.inr idle) rfl

/-- A transfer checks the phase, and then does what its copy does to the content. -/
theorem transferWith_does {intake : Intake} {cloud : Cloud} {files : FileTree} (step : Step)
    {wanted next : Phase} (phases : step.phases? = some (wanted, next))
    (misplaced : intake.phase ≠ some wanted → step.Misplaced intake) (operation : Operation)
    (copy : {σ : Type} → Reader σ → Act (FileTree × σ) (Path × Nat)) :
    Does ⟨intake, cloud, files⟩ step
      (ofFiles cloud (Intake.transferWith operation wanted next copy (intake, files))) := by
  let session : Session := ⟨intake, cloud, files⟩
  by_cases phase : intake.phase = some wanted
  · have free : intake.checkPhase operation (some wanted) = .ok () := if_pos phase
    have current : session.intake.phase = some wanted := phase
    simp only [Intake.transferWith, free]
    cases holding : intake.holding with
    | nothing =>
      refine .lost phases current ?_
      rintro ⟨content, same⟩
      cases holding.symm.trans same
    | released source =>
      refine .lost phases current ?_
      rintro ⟨content, same⟩
      cases holding.symm.trans same
    | held content =>
      obtain ⟨streams⟩ := content
      have held : session.intake.holding.IsHeld := ⟨_, holding⟩
      dsimp only
      cases copy (Streams.reader _ (Fin.last _)) (files, streams) with
      | error fault after =>
        obtain ⟨left, streams⟩ := after
        dsimp only
        by_cases reported : fault.isA .importer = true
        · rw [if_pos reported]
          exact .failed phases current held
        · rw [if_neg reported]
          exact .raised phases current held
      | ok copied after =>
        obtain ⟨path, written⟩ := copied
        obtain ⟨left, streams⟩ := after
        simp only [Intake.finish]
        cases Url.parse path.render with
        | error why => exact .raised phases current held
        | ok url => exact .done phases current held
  · have busy : intake.checkPhase operation (some wanted) =
        .error (.wrongPhase operation (some wanted) intake.name intake.phase) := if_neg phase
    simp only [Intake.transferWith, busy]
    exact .refused (misplaced phase) rfl

theorem close_does {step : Step} (closes : step = .close ∨ step = .exit) (session : Session) :
    Does session step (((fun () => none) <$> onIntake Intake.close :
      Act Session (Option PhaseResult)) session) := by
  obtain ⟨intake, cloud, files⟩ := session
  by_cases held : intake.holding.IsHeld
  · obtain ⟨content, holding⟩ := held
    have gone : ¬ (Holding.released (Ending.state (Content.close content)).source).IsHeld := by
      rintro ⟨other, same⟩
      cases same
    refine .closed closes gone (fun none => absurd ⟨content, holding⟩ none) ?_
    simp only [Functor.map, EStateM.map, onIntake, Intake.close, holding]
    cases Content.close content <;> rfl
  · simp only [Functor.map, EStateM.map, onIntake, Intake.close_of_not_held held]
    exact .closed closes held (fun _ => rfl) rfl

/-- **A call does one of these things.** -/
theorem perform_does (session : Session) (step : Step) :
    Does session step (perform step session) := by
  obtain ⟨intake, cloud, files⟩ := session
  cases step with
  | info => exact info_does _
  | transfer scratch =>
    rw [perform, some_onFiles, Intake.transfer]
    apply transferWith_does (.transfer scratch) rfl
    intro misplaced
    exact misplaced
  | transferFile path =>
    rw [perform, some_onFiles, Intake.transferFile]
    apply transferWith_does (.transferFile path) rfl
    intro misplaced
    exact misplaced
  | close => exact close_does (.inl rfl) _
  | exit => exact close_does (.inr rfl) _
  | enter => exact .entered

/-! ## Single calls -/

section Calls

variable {session : Session} {step : Step} {ending : Ending Session (Option PhaseResult)}

/-- The phase moves only as it may. -/
theorem Does.moves (does : Does session step ending) :
    (Ending.state ending).intake.phase = session.intake.phase ∨
      ∃ phase, Phase.Leads session.intake.phase phase ∧
        (Ending.state ending).intake.phase = some phase := by
  cases does with
  | refused misplaced kind => exact .inl rfl
  | entered => exact .inl rfl
  | closed closes gone kept ended =>
    rw [ended]
    exact .inl rfl
  | notOpened idle usable =>
    rw [idle]
    exact .inr ⟨.error, .notOpened, rfl⟩
  | @opened format compression content cloud idle usable =>
    rw [idle]
    refine .inr ⟨Intake.nextPhase format, ?_, rfl⟩
    rcases Intake.nextPhase_cases format with ⟨-, next⟩ | ⟨-, next⟩
    · rw [next]
      exact .needsNoScratch
    · rw [next]
      exact .needsScratch
  | lost phases phase gone =>
    rw [phase]
    exact .inr ⟨.error, (Step.leads_of_phases phases).2, rfl⟩
  | failed phases phase held =>
    rw [phase]
    exact .inr ⟨.error, (Step.leads_of_phases phases).2, rfl⟩
  | raised phases phase held => exact .inl rfl
  | @done step wanted next content files written url phases phase held =>
    rw [phase]
    exact .inr ⟨next, (Step.leads_of_phases phases).1, rfl⟩

/-- A call that raises stays in its phase. -/
theorem Does.raises (does : Does session step ending) {fault : Fault} {after : Session}
    (raised : ending = .error fault after) : after.intake.phase = session.intake.phase := by
  cases does with
  | refused misplaced kind =>
    cases raised
    rfl
  | closed closes gone kept ended =>
    rw [raised] at ended
    rw [show after = _ from ended]
  | raised phases phase held =>
    cases raised
    rfl
  | entered => cases raised
  | notOpened idle usable => cases raised
  | opened idle usable => cases raised
  | lost phases phase gone => cases raised
  | failed phases phase held => cases raised
  | done phases phase held => cases raised

/-- A call out of turn is refused. -/
theorem Does.refuses (does : Does session step ending)
    (misplaced : step.Misplaced session.intake) :
    ∃ fault, ending = .error fault session ∧ fault.kind = .phase := by
  cases does with
  | refused _ kind => exact ⟨_, rfl, kind⟩
  | entered => exact misplaced.elim
  | closed closes gone kept ended =>
    rcases closes with rfl | rfl
    · exact misplaced.elim
    · exact misplaced.elim
  | notOpened idle usable | opened idle usable =>
    rcases misplaced with shut | busy
    · rw [usable] at shut
      cases shut
    · exact absurd idle busy
  | lost phases phase gone => exact absurd misplaced (Step.not_misplaced phases phase)
  | failed phases phase held | raised phases phase held | done phases phase held =>
    exact absurd misplaced (Step.not_misplaced phases phase)

/-- Closing lasts. -/
theorem Does.shuts (does : Does session step ending)
    (shut : step = .close ∨ step = .exit ∨ session.intake.closed = true) :
    (Ending.state ending).intake.closed = true := by
  have before (other : step ≠ .close ∧ step ≠ .exit) : session.intake.closed = true := by
    rcases shut with rfl | rfl | shut
    · exact absurd rfl other.1
    · exact absurd rfl other.2
    · exact shut
  cases does with
  | closed closes gone kept ended => rw [ended]
  | entered => exact before ⟨Step.noConfusion, Step.noConfusion⟩
  | notOpened idle usable | opened idle usable => exact before ⟨Step.noConfusion, Step.noConfusion⟩
  | refused misplaced kind =>
    refine before ⟨?_, ?_⟩ <;> rintro rfl <;> exact misplaced
  | lost phases phase _ | failed phases phase _ | raised phases phase _ | done phases phase _ =>
    refine before ⟨?_, ?_⟩ <;> rintro rfl <;> cases phases

/-- A call to a closed intake touches nothing outside. -/
theorem Does.quiet (does : Does session step ending) (shut : session.intake.closed = true)
    (gone : ¬ session.intake.holding.IsHeld) :
    (Ending.state ending).cloud = session.cloud ∧ (Ending.state ending).files = session.files ∧
      (Ending.state ending).intake.holding = session.intake.holding := by
  cases does with
  | refused misplaced kind => exact ⟨rfl, rfl, rfl⟩
  | entered => exact ⟨rfl, rfl, rfl⟩
  | closed closes _ kept ended =>
    rw [ended]
    exact ⟨rfl, rfl, kept gone⟩
  | notOpened idle usable | opened idle usable =>
    rw [usable] at shut
    cases shut
  | lost phases phase gone => exact ⟨rfl, rfl, rfl⟩
  | failed phases phase held | raised phases phase held | done phases phase held =>
    exact absurd held gone

end Calls

/-! ## Runs of calls -/

/-- The session after a call. -/
def after (session : Session) (step : Step) : Session := Ending.state (perform step session)

/-- The session after a row of calls. -/
def afterAll (session : Session) (steps : List Step) : Session := steps.foldl after session

/-- The call that led to the present phase. -/
def entry (session : Session) (step : Step) (entered : Option Step) : Option Step :=
  if (session.after step).intake.phase = session.intake.phase then entered else some step

/-- What an intake that was set up comes to through calls, with the call that led to its
phase. Between calls, the cloud, the files and the source may do anything. -/
inductive Reached (settings : IntakeSettings) : Option Step → Session → Prop
  | created {before cloud : Cloud} {intake : Intake} (files : FileTree)
    (created : Intake.create settings before = .ok intake cloud) :
    Reached settings none ⟨intake, cloud, files⟩
  | called {entered : Option Step} {session : Session} (reached : Reached settings entered session)
    (step : Step) : Reached settings (session.entry step entered) (session.after step)
  | elsewhere {entered : Option Step} {session : Session}
    (reached : Reached settings entered session) (cloud : Cloud) (files : FileTree)
    {holding : Holding} (akin : session.intake.holding.Akin holding) :
    Reached settings entered ⟨{ session.intake with holding }, cloud, files⟩

/-- What is known of the image fits the phase, and a closed intake holds no content. -/
structure Sound (entered : Option Step) (session : Session) : Prop where
  container : session.intake.phase = some .transferScratch ∨ session.intake.phase = some .convert →
    ∃ format, session.intake.format = some format ∧ format ≠ .raw
  raw : session.intake.phase = some .transferDataFile ∨ session.intake.phase = some .resize →
    session.intake.format = some .raw
  unknown : session.intake.phase = none ∨
      session.intake.phase = some .error ∧ entered = some .info →
    session.intake.format = none ∧ session.intake.compression = none
  source : session.intake.phase ≠ some .convert → session.intake.phase ≠ some .resize →
    session.intake.url = session.intake.location.url
  shut : session.intake.closed = true → ¬ session.intake.holding.IsHeld

theorem entry_of_same {session : Session} {step : Step} (entered : Option Step)
    (same : (session.after step).intake.phase = session.intake.phase) :
    session.entry step entered = entered :=
  if_pos same

theorem entry_of_moved {session : Session} {step : Step} (entered : Option Step)
    (moved : (session.after step).intake.phase ≠ session.intake.phase) :
    session.entry step entered = some step :=
  if_neg moved

/-- An intake that was just set up knows nothing of the image. -/
theorem sound_created {settings : IntakeSettings} {before cloud : Cloud} {intake : Intake}
    (files : FileTree) (created : Intake.create settings before = .ok intake cloud) :
    Sound none ⟨intake, cloud, files⟩ := by
  obtain ⟨location, client, -, rfl⟩ := Intake.create_eq created
  refine ⟨?_, ?_, fun _ => ⟨rfl, rfl⟩, fun _ _ => rfl, ?_⟩
  · rintro (staging | converting)
    · cases staging
    · cases converting
  · rintro (storing | resizing)
    · cases storing
    · cases resizing
  · intro shut
    cases shut

/-- A container fits the phases that stage and convert it. -/
theorem sound_container {entered : Option Step} {session : Session} {format : ImageFormat}
    (phase : session.intake.phase = some .transferScratch ∨ session.intake.phase = some .convert)
    (found : session.intake.format = some format) (container : format ≠ .raw)
    (source : session.intake.phase ≠ some .convert →
      session.intake.url = session.intake.location.url)
    (shut : session.intake.closed = true → ¬ session.intake.holding.IsHeld) :
    Sound entered session := by
  refine ⟨fun _ => ⟨format, found, container⟩, ?_, ?_, fun other _ => source other, shut⟩
  · rcases phase with phase | phase <;> simp [phase]
  · rcases phase with phase | phase <;> simp [phase]

/-- A raw image fits the phases that store and resize it. -/
theorem sound_raw {entered : Option Step} {session : Session}
    (phase : session.intake.phase = some .transferDataFile ∨ session.intake.phase = some .resize)
    (found : session.intake.format = some .raw)
    (source : session.intake.phase ≠ some .resize →
      session.intake.url = session.intake.location.url)
    (shut : session.intake.closed = true → ¬ session.intake.holding.IsHeld) :
    Sound entered session := by
  refine ⟨?_, fun _ => found, ?_, fun _ other => source other, shut⟩
  · rcases phase with phase | phase <;> simp [phase]
  · rcases phase with phase | phase <;> simp [phase]

/-- In the error phase, only what is unknown and where the image is has to fit. -/
theorem sound_error {entered : Option Step} {session : Session}
    (phase : session.intake.phase = some .error)
    (unknown : entered = some .info →
      session.intake.format = none ∧ session.intake.compression = none)
    (source : session.intake.url = session.intake.location.url)
    (shut : session.intake.closed = true → ¬ session.intake.holding.IsHeld) :
    Sound entered session := by
  refine ⟨?_, ?_, ?_, fun _ _ => source, shut⟩
  · rw [phase]
    rintro (staging | converting)
    · cases staging
    · cases converting
  · rw [phase]
    rintro (storing | resizing)
    · cases storing
    · cases resizing
  · rw [phase]
    rintro (fresh | ⟨-, info⟩)
    · cases fresh
    · exact unknown info

/-- A transfer starts from a phase in which nothing was transferred. -/
theorem early_of_phases {step : Step} {wanted next : Phase}
    (phases : step.phases? = some (wanted, next)) :
    some wanted ≠ some .convert ∧ some wanted ≠ some .resize ∧ some Phase.error ≠ some wanted := by
  rcases Step.cases_of_phases phases with ⟨scratch, rfl, rfl, rfl⟩ | ⟨path, rfl, rfl, rfl⟩
  · decide
  · decide

/-- An intake that holds content is not closed. -/
theorem Sound.unshut {entered : Option Step} {session : Session} (sound : Sound entered session)
    (held : session.intake.holding.IsHeld) : session.intake.closed ≠ true :=
  fun shut => sound.shut shut held

/-- A transfer that fails leads to the error phase. -/
theorem Sound.failed {entered entry : Option Step} {session after : Session}
    (sound : Sound entered session) {step : Step} {wanted next : Phase}
    (phases : step.phases? = some (wanted, next)) (phase : session.intake.phase = some wanted)
    (led : entry = some step) (failed : after.intake.phase = some .error)
    (url : after.intake.url = session.intake.url)
    (location : after.intake.location = session.intake.location)
    (shut : after.intake.closed = true → ¬ after.intake.holding.IsHeld) : Sound entry after := by
  obtain ⟨convert, resize, -⟩ := early_of_phases phases
  rw [← phase] at convert resize
  refine sound_error failed ?_ ?_ shut
  · intro info
    rw [Option.some.inj (led.symm.trans info)] at phases
    cases phases
  · rw [url, location]
    exact sound.source convert resize

/-- **What is known of the image fits the phase after every call.** -/
theorem Sound.called {entered : Option Step} {session : Session} (sound : Sound entered session)
    (step : Step) : Sound (session.entry step entered) (session.after step) := by
  have does := perform_does session step
  have same := @entry_of_same session step entered
  have moved := @entry_of_moved session step entered
  rw [after] at same moved ⊢
  generalize session.entry step entered = entry at same moved ⊢
  generalize perform step session = ending at does same moved ⊢
  cases does with
  | refused misplaced kind =>
    rw [same rfl]
    exact sound
  | entered =>
    rw [same rfl]
    exact sound
  | closed closes gone kept ended =>
    rw [ended] at same ⊢
    rw [same rfl]
    exact ⟨sound.container, sound.raw, sound.unknown, sound.source, fun _ => gone⟩
  | notOpened idle usable =>
    have url := sound.source (by simp [idle]) (by simp [idle])
    refine sound_error rfl (fun _ => sound.unknown (.inl idle)) url ?_
    intro shut
    cases usable.symm.trans shut
  | @opened format compression content cloud idle usable =>
    have url := sound.source (by simp [idle]) (by simp [idle])
    have open' : session.intake.closed = true → ¬ Holding.IsHeld (.held content) := by
      intro shut
      cases usable.symm.trans shut
    rcases Intake.nextPhase_cases format with ⟨rfl, next⟩ | ⟨container, next⟩
    · exact sound_raw (.inl (congrArg some next)) rfl (fun _ => url) open'
    · exact sound_container (.inl (congrArg some next)) rfl container (fun _ => url) open'
  | lost phases phase gone =>
    have led := moved (by rw [phase]; exact (early_of_phases phases).2.2)
    exact sound.failed phases phase led rfl rfl rfl fun _ => gone
  | failed phases phase held =>
    have led := moved (by rw [phase]; exact (early_of_phases phases).2.2)
    exact sound.failed phases phase led rfl rfl rfl fun shut => absurd shut (sound.unshut held)
  | raised phases phase held =>
    rw [same rfl]
    exact ⟨sound.container, sound.raw, sound.unknown, sound.source,
      fun shut => absurd shut (sound.unshut held)⟩
  | done phases phase held =>
    rcases Step.cases_of_phases phases with ⟨scratch, rfl, rfl, rfl⟩ | ⟨path, rfl, rfl, rfl⟩
    · obtain ⟨format, found, container⟩ := sound.container (.inl phase)
      exact sound_container (.inr rfl) found container (fun other => absurd rfl other)
        fun shut => absurd shut (sound.unshut held)
    · have found := sound.raw (.inl phase)
      exact sound_raw (.inr rfl) found (fun other => absurd rfl other)
        fun shut => absurd shut (sound.unshut held)

/-! ## What holds along every run -/

section Runs

variable {settings : IntakeSettings} {entered : Option Step} {session : Session}

/-- A session that was just set up is reached, whatever cloud and files it has. -/
theorem Begins.reached {source : Source} (begins : session.Begins settings source) :
    Reached settings none session := by
  obtain ⟨before, cloud, created⟩ := begins.created
  exact (Reached.created session.files created).elsewhere session.cloud session.files (.refl _)

/-- **What is known of the image fits the phase in every session that is reached.** -/
theorem reached_sound (reached : Reached settings entered session) : Sound entered session := by
  induction reached with
  | created files created => exact sound_created files created
  | called reached step sound => exact sound.called step
  | elsewhere reached cloud files akin sound =>
    refine ⟨sound.container, sound.raw, sound.unknown, sound.source, ?_⟩
    intro shut held
    exact sound.shut shut (akin.isHeld_iff.mp held)

/-- What every call keeps to. -/
structure Conforms (session : Session) (step : Step)
    (ending : Ending Session (Option PhaseResult)) : Prop where
  moves : (Ending.state ending).intake.phase = session.intake.phase ∨
    ∃ phase, Phase.Leads session.intake.phase phase ∧
      (Ending.state ending).intake.phase = some phase
  raises : ∀ {fault : Fault} {after : Session}, ending = .error fault after →
    after.intake.phase = session.intake.phase
  refuses : step.Misplaced session.intake →
    ∃ fault, ending = .error fault session ∧ fault.kind = .phase
  shuts : step = .close ∨ step = .exit ∨ session.intake.closed = true →
    (Ending.state ending).intake.closed = true

theorem perform_conforms (session : Session) (step : Step) :
    Conforms session step (perform step session) :=
  have does := perform_does session step
  ⟨does.moves, does.raises, does.refuses, does.shuts⟩

/-- Nothing outside was touched on the way to another session. -/
def Untouched (session other : Session) : Prop :=
  other.cloud = session.cloud ∧ other.files = session.files ∧
    other.intake.holding = session.intake.holding

/-- A last phase stays, whatever is called. -/
theorem afterAll_last {phase : Phase} (last : ∀ next, ¬ Phase.Leads (some phase) next)
    (current : session.intake.phase = some phase) (steps : List Step) :
    (session.afterAll steps).intake.phase = some phase := by
  induction steps generalizing session with
  | nil => exact current
  | cons step steps ih =>
    apply ih
    rcases (perform_does session step).moves with same | ⟨next, leads, -⟩
    · exact same.trans current
    · rw [current] at leads
      exact absurd leads (last next)

/-- However often a closed intake is called, it touches nothing outside. -/
theorem afterAll_untouched (shut : session.intake.closed = true)
    (gone : ¬ session.intake.holding.IsHeld) (steps : List Step) :
    session.Untouched (session.afterAll steps) := by
  induction steps generalizing session with
  | nil => exact ⟨rfl, rfl, rfl⟩
  | cons step steps ih =>
    have does := perform_does session step
    obtain ⟨cloud, files, holding⟩ := does.quiet shut gone
    have later : (session.after step).Untouched ((session.after step).afterAll steps) := by
      apply ih (does.shuts (.inr (.inr shut)))
      exact holding.symm ▸ gone
    exact ⟨later.1.trans cloud, later.2.1.trans files, later.2.2.trans holding⟩

/-- **Every run keeps to the phases, whatever happens between its calls.** In each session
that is reached, what is known of the image fits the phase and every call conforms. The
last phases are never left, and a closed intake touches nothing outside any more. -/
theorem reached_conforms (reached : Reached settings entered session) :
    Sound entered session ∧ (∀ step, Conforms session step (perform step session)) ∧
      (∀ phase ∈ [Phase.convert, .resize, .error], session.intake.phase = some phase →
        ∀ steps, (session.afterAll steps).intake.phase = some phase) ∧
      (session.intake.closed = true →
        ∀ steps, session.Untouched (session.afterAll steps)) := by
  have sound := reached_sound reached
  refine ⟨sound, perform_conforms session, ?_, ?_⟩
  · intro phase last current
    refine afterAll_last ?_ current
    intro next leads
    cases leads <;> simp at last
  · intro shut
    exact afterAll_untouched shut (sound.shut shut)

/-- An intake of three raw bytes, opened and then closed. -/
def rawClosed : Session := ((beginning { rest := [1, 2, 3] } none).after .info).after .close

/-- A raw image that was opened and then closed: no call writes it any more. -/
theorem reached_conforms_closed :
    (∃ entered, Reached (handedIn { rest := [1, 2, 3] } none) entered rawClosed) ∧
      rawClosed.intake.phase = some .transferDataFile ∧ rawClosed.intake.closed = true ∧
        ∀ steps, (rawClosed.afterAll steps).files = .fresh := by
  have reached := ((begins_beginning { rest := [1, 2, 3] } none).reached.called .info).called .close
  have phase : rawClosed.intake.phase = some .transferDataFile := by decide +kernel
  have shut : rawClosed.intake.closed = true := by decide +kernel
  refine ⟨⟨_, reached⟩, phase, shut, fun steps => ?_⟩
  obtain ⟨-, -, -, untouched⟩ := reached_conforms reached
  exact (untouched shut steps).2.1.trans (by cbv)

end Runs

end Session

end DiskStaging
