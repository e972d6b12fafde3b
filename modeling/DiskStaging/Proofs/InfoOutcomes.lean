import DiskStaging.Proofs.Raising

/-!
# What comes of looking at an image

`info` on a fresh intake always ends with a result, and the result holds a fault exactly if its
phase is the error phase (`Session.info_answers`). Which fault that is depends on where it came
up. A refused object and a source that breaks off are reported as unavailable, with what
went wrong as the cause; bad data and what cannot be read of a header are reported as no image;
and a fault of the import itself is reported as it is. The last two are told apart by the kinds
of a fault alone, and a fault of bad data always is of a kind that a header is said to be
unreadable for (`Fault.Corrupt.unreadable`). So what is reported as it is, and what is reported as
unavailable, comes from the source.

An intake that ends in the error phase knows nothing of the image, and the source that it
read is closed once.
-/

set_option autoImplicit false

namespace DiskStaging

/-- The fault of bad data shows that a header cannot be read. -/
theorem Fault.Corrupt.unreadable {fault : Fault} (corrupt : fault.Corrupt) :
    ∃ kind ∈ headerKinds, fault.isA kind = true := by
  cases corrupt with
  | gzip why => exact ⟨.io, by decide, rfl⟩
  | deflate why => exact ⟨.deflateData, by decide, rfl⟩
  | lzma why => exact ⟨.xzData, by decide, rfl⟩
  | cutShort => exact ⟨.endOfData, by decide, rfl⟩

/-! ## The faults of a source -/

namespace Source

/-- The fault that reading a source may raise: a closed one refuses, and an open one breaks
off as it does. -/
inductive Raises (source : Source) : Fault → Prop
  | shut (closed : source.closed = true) : Raises source .contentClosed
  | broken {failure : Break} (going : source.closed = false)
    (fails : source.failure = some failure) : Raises source failure.fault

/-- The same source further on: it breaks off in the same way. -/
def Onward (source later : Source) : Prop :=
  later.closes = source.closes ∧ later.failure = source.failure

/-- A source raises no other fault, however far it was read. -/
theorem reader_raises (source : Source) : reader.Raises source.Onward source.Raises := by
  refine ⟨reader_keeps_of fun _ _ _ _ onward => onward, ?_⟩
  rintro size - later fault after ⟨closes, failure⟩ ended
  obtain ⟨broken, -⟩ := read_error ended
  have closed : later.closed = source.closed := by
    simp only [Source.closed, closes]
  unfold fault? at broken
  by_cases shut : source.closed = true
  · rw [if_pos (closed.trans shut)] at broken
    cases broken
    exact .shut shut
  · rw [closed, if_neg shut, failure] at broken
    obtain ⟨failure, there, reached⟩ := Option.bind_eq_some_iff.mp broken
    split at reached
    · cases reached
      exact .broken (Bool.eq_false_iff.mpr shut) there
    · cases reached

end Source

/-! ## Looking at the header -/

/-- Shows the leading bytes that classify content, and how they are compressed: if those of the
content itself are compressed data, it shows those of what they decode to. -/
def leading (size : Int) : Act Content (Option Compression × Bytes) := do
  let first ← Content.peek size
  match Image.compression? first with
  | none => pure (none, first)
  | some compression =>
    Content.unpack compression
    let unpacked ← Content.peek size
    pure (some compression, unpacked)

theorem header_eq (size : Int) (content : Content) :
    header size content =
      match Content.peek size content with
      | .error cause after => .error (headerFault cause) after
      | .ok shown after => .ok shown after := by
  unfold header
  cases Content.peek size content <;> rfl

/-- Classifying content is looking at these bytes, and reporting what came of it. -/
theorem sniff_eq_leading (size : Int) (content : Content) :
    sniff size content =
      match leading size content with
      | .error cause after => .error (headerFault cause) after
      | .ok (compression, bytes) after => classify compression bytes after := by
  rw [sniff_eq]
  simp only [header_eq, leading, Bind.bind, EStateM.bind]
  cases Content.peek size content with
  | error cause after => rfl
  | ok first after =>
    dsimp only
    cases Image.compression? first with
    | none => rfl
    | some compression =>
      simp only [Content.unpack, EStateM.bind]
      cases Content.peek size ⟨after.streams.unpack compression (Fin.last _)⟩ <;> rfl

namespace Content

variable {kept : Source → Prop} {raised : Fault → Prop} {closes : Nat}

/-- Content that is open over a source with a property. -/
def Over (kept : Source → Prop) (closes : Nat) (content : Content) : Prop :=
  content.IsOpen closes ∧ kept content.source

theorem peek_raises (raises : Source.reader.Raises kept raised)
    (corrupt : ∀ {fault}, Fault.Corrupt fault → raised fault) {size : Int}
    (fits : ¬ Excessive (some size.toNat)) :
    Raises (Over kept closes) raised (Content.peek (some size)) where
  keeps := ((isOpen_lasting closes).and (source_lasting raises.keeps)).peek (some size)
  sort := by
    rintro ⟨streams⟩ fault after held ended
    obtain ⟨between, peeked⟩ := Ending.error_of_inside ended
    exact (Streams.peek_raises raises corrupt fits _).sort streams _ _ held peeked

theorem unpack_raises (raises : Source.reader.Raises kept raised) (compression : Compression) :
    Raises (Over kept closes) raised (Content.unpack compression) where
  keeps := ((isOpen_lasting closes).and (source_lasting raises.keeps)).unpack compression
  sort := by
    rintro ⟨streams⟩ fault after - ⟨⟩

end Content

/-- **Looking at a header raises what the source raises, or a fault of bad data**, if what is
looked at fits. -/
theorem leading_raises (source : Source) {size : Int} (fits : ¬ Excessive (some size.toNat)) :
    Raises (Content.Over source.Onward source.closes)
      (fun fault => source.Raises fault ∨ fault.Corrupt) (leading size) := by
  have raises : Source.reader.Raises source.Onward
      (fun fault => source.Raises fault ∨ fault.Corrupt) :=
    source.reader_raises.mono fun _ => .inl
  refine .bind (Content.peek_raises raises .inr fits) fun first => ?_
  cases Image.compression? first with
  | none => exact .pure (none, first)
  | some compression =>
    exact .bind (Content.unpack_raises raises compression) fun _ =>
      .bind (Content.peek_raises raises .inr fits) fun unpacked =>
        .pure (some compression, unpacked)

/-! ## What is reported -/

namespace Session

/-- What `info` reports of a fresh intake, case by case. -/
inductive Informs (settings : IntakeSettings) (before : Session) : PhaseResult → Prop
  /-- The object could not be opened. -/
  | unopened {cause : Fault} {cloud : Cloud} (none : settings.reader = none)
    (refused : before.intake.client.fetch before.intake.location.bucket
      before.intake.location.key before.cloud = .error cause cloud) :
    Informs settings before ⟨.error, some (.openFailed before.intake.name cause)⟩
  /-- The leading bytes are those of an image. -/
  | image {source : Source} {compression : Option Compression} {bytes : Bytes} {content : Content}
    {format : ImageFormat} (reads : settings.Reads before.intake.location before.cloud source)
    (shown : leading sniffSize (.ofSource source) = .ok (compression, bytes) content)
    (known : Image.format bytes = .ok format) :
    Informs settings before ⟨Intake.nextPhase format, .none⟩
  /-- The leading bytes are those of no usable image. -/
  | noImage {source : Source} {compression : Option Compression} {bytes : Bytes}
    {content : Content} {why : HeaderFault}
    (reads : settings.Reads before.intake.location before.cloud source)
    (shown : leading sniffSize (.ofSource source) = .ok (compression, bytes) content)
    (faulty : Image.format bytes = .error why) :
    Informs settings before ⟨.error, some (.header why)⟩
  /-- Looking at the header met a fault that shows that it cannot be read. -/
  | unreadable {source : Source} {cause : Fault} {content : Content}
    (reads : settings.Reads before.intake.location before.cloud source)
    (broken : leading sniffSize (.ofSource source) = .error cause content)
    (origin : source.Raises cause ∨ cause.Corrupt)
    (kinds : ∃ kind ∈ headerKinds, cause.isA kind = true) :
    Informs settings before ⟨.error, some (.unreadableHeader cause)⟩
  /-- The source raised some other fault of the import. -/
  | asItIs {source : Source} {cause : Fault} {content : Content}
    (reads : settings.Reads before.intake.location before.cloud source)
    (broken : leading sniffSize (.ofSource source) = .error cause content)
    (origin : source.Raises cause) (other : ∀ kind ∈ headerKinds, cause.isA kind = false)
    (importer : cause.isA .importer = true) :
    Informs settings before ⟨.error, some cause⟩
  /-- The source raised anything else. -/
  | unread {source : Source} {cause : Fault} {content : Content}
    (reads : settings.Reads before.intake.location before.cloud source)
    (broken : leading sniffSize (.ofSource source) = .error cause content)
    (origin : source.Raises cause) (other : ∀ kind ∈ headerKinds, cause.isA kind = false)
    (foreign : cause.isA .importer = false) :
    Informs settings before ⟨.error, some (.readFailed before.intake.name cause)⟩

/-- What `info` leaves behind of a fresh intake. In the error phase nothing is known of the image,
and a source that was opened or handed in is closed. -/
structure Answers (settings : IntakeSettings) (before : Session) (result : PhaseResult)
    (after : Session) : Prop where
  informs : Informs settings before result
  phase : after.intake.phase = some result.phase
  faulty : result.fault ≠ none ↔ result.phase = .error
  unknown : result.phase = .error → after.intake.format = none ∧ after.intake.compression = none
  closed : result.phase = .error → ∀ source,
    settings.Reads before.intake.location before.cloud source →
      ∃ left, after.intake.holding = .released left ∧ left.closes = source.closes + 1

theorem nextPhase_ne_error (format : ImageFormat) : Intake.nextPhase format ≠ .error := by
  cases format <;> decide

section Reporting

variable {settings : IntakeSettings} {session : Session} {source : Source}

/-- What went wrong in looking at the header is reported by its kinds. -/
theorem informs_of_broken {cause : Fault} {content : Content}
    (reads : settings.Reads session.intake.location session.cloud source)
    (broken : leading sniffSize (.ofSource source) = .error cause content) :
    Informs settings session
      ⟨.error, some (session.intake.readFault (headerFault cause))⟩ := by
  have fits : ¬ Excessive (some sniffSize.toNat) := by decide
  have origin := (leading_raises source fits).sort _ _ _
    ⟨Content.isOpen_ofSource source, rfl, rfl⟩ broken
  -- The kinds alone decide what is reported, and bad data always have one of these.
  by_cases kinds : headerKinds.any cause.isA = true
  · have reported : session.intake.readFault (headerFault cause) = .unreadableHeader cause := by
      rw [headerFault, if_pos kinds]
      rfl
    rw [reported]
    exact .unreadable reads broken origin (List.any_eq_true.mp kinds)
  · have kept : headerFault cause = cause := if_neg kinds
    have other : ∀ kind ∈ headerKinds, cause.isA kind = false := by
      intro kind listed
      exact Bool.eq_false_iff.mpr fun fits => kinds (List.any_eq_true.mpr ⟨kind, listed, fits⟩)
    have raised : source.Raises cause := by
      refine origin.resolve_right fun corrupt => ?_
      exact kinds (List.any_eq_true.mpr corrupt.unreadable)
    rw [kept, Intake.readFault]
    by_cases importer : cause.isA .importer = true
    · rw [if_pos importer]
      exact .asItIs reads broken raised other importer
    · rw [if_neg importer]
      exact .unread reads broken raised other (Bool.eq_false_iff.mpr importer)

/-- What `info` reports of a source, given how that was classified. -/
theorem informs_of_sniff (reads : settings.Reads session.intake.location session.cloud source) :
    Informs settings session
      (match sniff sniffSize (.ofSource source) with
      | .error fault _ => ⟨.error, some (session.intake.readFault fault)⟩
      | .ok found _ => ⟨Intake.nextPhase found.format, none⟩) := by
  rw [sniff_eq_leading]
  cases shown : leading sniffSize (.ofSource source) with
  | error cause content => exact informs_of_broken reads shown
  | ok value content =>
    obtain ⟨compression, bytes⟩ := value
    simp only [classify]
    cases known : Image.format bytes with
    | error why => exact .noImage reads shown known
    | ok format => exact .image reads shown known

/-- An intake that is refused the object has no source to read. -/
theorem no_source_of_refused {cause : Fault} {client : Client} {cloud between : Cloud}
    {location : Location} (none : settings.reader = none)
    (refused : client.fetch location.bucket location.key cloud = .error cause between)
    (reads : settings.Reads location cloud source) : False := by
  cases reads with
  | handedIn handed => cases none.symm.trans handed
  | fetched _ reachable found =>
    obtain ⟨after, fetched⟩ := Intake.fetch_of_found client reachable found
    cases refused.symm.trans fetched

end Reporting

/-- **`info` always answers, and says what went wrong.** A fresh intake that looks at its image
comes to a result, whatever the store and the source do. The result holds a fault exactly if it
leads to the error phase; the fault tells what went wrong where, and then nothing is known
of the image and the source is closed. -/
theorem info_answers {settings : IntakeSettings} {session : Session} {before after : Cloud}
    (created : Intake.create settings before = .ok session.intake after) :
    ∃ result later, perform .info session = .ok (some result) later ∧
      Answers settings session result later := by
  obtain ⟨location, client, -, same⟩ := Intake.create_eq created
  have fresh : session.intake.phase = none ∧ session.intake.closed = false ∧
      session.intake.format = none ∧ session.intake.compression = none := by
    rw [same]
    exact ⟨rfl, rfl, rfl, rfl⟩
  obtain ⟨idle, opened, format, compression⟩ := fresh
  rcases Intake.reads_or_refused created session.cloud with
    ⟨source, reads⟩ | ⟨none, cause, cloud, refused, unopened⟩
  · have begins : Begins settings source session := ⟨⟨before, after, created⟩, reads⟩
    obtain ⟨cloud, info⟩ := begins.info
    have informs := informs_of_sniff reads
    rw [info]
    cases sniffed : sniff sniffSize (.ofSource source) with
    | ok found content =>
      rw [sniffed] at informs
      have leads := nextPhase_ne_error found.format
      refine ⟨_, _, rfl, informs, rfl, by simp [leads], ?_, ?_⟩
      · exact fun failed => absurd failed leads
      · exact fun failed => absurd failed leads
    | error fault content =>
      rw [sniffed] at informs
      refine ⟨_, _, rfl, informs, rfl, by simp, fun _ => ⟨format, compression⟩, ?_⟩
      rintro - other others
      cases reads.unique others
      have kept := (sniff_keeps (Content.isOpen_lasting source.closes) sniffSize).error
        (Content.isOpen_ofSource source) sniffed
      exact ⟨_, rfl, kept.close⟩
  · refine ⟨_, _, info_unopened session.files idle opened unopened, .unopened none refused, rfl,
      by simp, fun _ => ⟨format, compression⟩, ?_⟩
    rintro - source reads
    exact (no_source_of_refused none refused reads).elim

/-- Gzip data that break off within their magic, with a fault that is also one of the import. -/
def movedOn : Source where
  rest := storedLetter
  most := some 2
  failure := some ⟨2, .foreign .phase "moved on"⟩
  closeFault := some (.foreign .io "stuck")

theorem leading_movedOn :
    Ending.fault? (leading sniffSize (.ofSource movedOn)) = some (.foreign .phase "moved on") := by
  cbv

/-- The fault is reported as it is, although closing the source raises another one. -/
theorem info_answers_as_it_is :
    ∃ later, perform .info (beginning movedOn none) =
        .ok (some ⟨.error, some (.foreign .phase "moved on")⟩) later ∧
      later.intake.format = none ∧ ∃ left, later.intake.holding = .released left ∧
        left.closes = 1 := by
  have begins := begins_beginning movedOn none
  obtain ⟨before, after, created⟩ := begins.created
  obtain ⟨result, later, info, answers⟩ := info_answers created
  have fault := leading_movedOn
  have told : result = ⟨.error, some (.foreign .phase "moved on")⟩ := by
    cases answers.informs with
    | unopened none refused => cases none
    | image reads shown known | noImage reads shown faulty =>
      cases begins.reads.unique reads
      rw [shown] at fault
      cases fault
    | unreadable reads broken origin kinds =>
      cases begins.reads.unique reads
      rw [broken] at fault
      cases fault
      exact absurd kinds (by decide)
    | asItIs reads broken origin other importer =>
      cases begins.reads.unique reads
      rw [broken] at fault
      cases fault
      rfl
    | unread reads broken origin other foreign =>
      cases begins.reads.unique reads
      rw [broken] at fault
      cases fault
      cases foreign
  rw [told] at info answers
  obtain ⟨left, held, closes⟩ := answers.closed rfl movedOn begins.reads
  exact ⟨later, info, (answers.unknown rfl).1, left, held, closes⟩

end Session

end DiskStaging
