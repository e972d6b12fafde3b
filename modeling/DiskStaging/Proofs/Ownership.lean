import DiskStaging.Proofs.Keeping
import DiskStaging.Proofs.Lifecycle

/-!
# Who opens the source and who closes it

An intake asks for its object at most once, by the names that its endpoint was resolved
to, and not at all if a source was handed in. What it holds then are streams over one
source, all of them open, so that closing the newest one closes the source once
(`Streams.IsOpen`). No read changes that. So in every run an intake waits for its source,
was refused it, keeps it open, or has parted with it and closed it once
(`Session.Tenure.called`), and after it was told to close or has reported that there is
no image, it keeps the source no more (`Session.opened_once_closed_once`).
-/

set_option autoImplicit false

namespace DiskStaging

/-! ## Open streams -/

/-- The fault that an action ends with. -/
def Ending.fault? {σ α : Type} : Ending σ α → Option Fault
  | .ok _ _ => none
  | .error fault _ => some fault

theorem Ending.fault?_inside {σ τ α : Type} (place : σ → τ) (ending : Ending σ α) :
    Ending.fault? (Ending.inside place ending) = Ending.fault? ending := by
  cases ending <;> rfl

theorem Source.fault?_close (source : Source) :
    Ending.fault? (Source.close source) = source.closeFault := by
  unfold Source.close
  cases source.closeFault <;> rfl

namespace Streams

/-- A stream and those below it down to the root are open, and their source was closed
that many times before. -/
def IsOpen (closes : Nat) : {count : Nat} → Fin (count + 1) → Streams count → Prop
  | 0, _ => fun (.root source front) => front.closed = false ∧ source.closes = closes
  | count + 1, i => fun (.atop below _ front older) =>
    if old : i.val < count + 1 then IsOpen closes ⟨i, old⟩ older
    else front.closed = false ∧ IsOpen closes below older

theorem isOpen_atop {closes count : Nat} {i : Fin (count + 2)} {below : Fin (count + 1)}
    {unpacker : Unpacker} {front : Lookahead} {older : Streams count} :
    IsOpen closes i (.atop below unpacker front older) ↔
      if old : i.val < count + 1 then IsOpen closes ⟨i, old⟩ older
      else front.closed = false ∧ IsOpen closes below older := Iff.rfl

/-- Streams of one shape are open alike. -/
theorem IsOpen.alike {closes count : Nat} {start streams : Streams count} {i : Fin (count + 1)}
    (opened : IsOpen closes i start) (alike : Alike start streams) : IsOpen closes i streams := by
  induction alike with
  | root closed same => exact ⟨closed.trans opened.1, same.trans opened.2⟩
  | atop closed _ ih =>
    rw [isOpen_atop] at opened ⊢
    split at opened
    · rename_i old
      rw [dif_pos old]
      exact ih opened
    · rename_i newest
      rw [dif_neg newest]
      exact ⟨closed.trans opened.1, ih opened.2⟩

/-- Below an open stream there is a source that was closed that many times. -/
theorem IsOpen.source {closes count : Nat} {streams : Streams count} {i : Fin (count + 1)}
    (opened : IsOpen closes i streams) : streams.source.closes = closes := by
  induction streams with
  | root source front => exact opened.2
  | atop below unpacker front older ih =>
    rw [isOpen_atop] at opened
    split at opened
    · exact ih opened
    · exact ih opened.2

/-- **Closing an open stream closes the source once**, whether or not that raises. -/
theorem IsOpen.close {closes count : Nat} {streams : Streams count} {i : Fin (count + 1)}
    (opened : IsOpen closes i streams) :
    (Ending.state (Streams.close i streams)).source.closes = closes + 1 := by
  induction streams with
  | root source front =>
    obtain ⟨going, same⟩ := opened
    simp only [Streams.close, going, Bool.false_eq_true, if_false]
    rw [Ending.state_inside, ← same]
    exact source.closes_close
  | atop below unpacker front older ih =>
    rw [isOpen_atop] at opened
    simp only [Streams.close]
    split at opened
    · rename_i old
      rw [dif_pos old, Ending.state_inside]
      exact ih opened
    · rename_i newest
      obtain ⟨going, opened⟩ := opened
      simp only [dif_neg newest, going, Bool.false_eq_true, if_false]
      rw [Ending.state_inside]
      exact ih opened

/-- Closing an open stream raises what closing the source raises. -/
theorem IsOpen.fault?_close {closes count : Nat} {streams : Streams count} {i : Fin (count + 1)}
    (opened : IsOpen closes i streams) :
    Ending.fault? (Streams.close i streams) = streams.source.closeFault := by
  induction streams with
  | root source front =>
    simp only [Streams.close, opened.1, Bool.false_eq_true, if_false]
    rw [Ending.fault?_inside]
    exact source.fault?_close
  | atop below unpacker front older ih =>
    rw [isOpen_atop] at opened
    simp only [Streams.close]
    split at opened
    · rename_i old
      rw [dif_pos old, Ending.fault?_inside]
      exact ih opened
    · rename_i newest
      obtain ⟨going, opened⟩ := opened
      simp only [dif_neg newest, going, Bool.false_eq_true, if_false]
      rw [Ending.fault?_inside]
      exact ih opened

end Streams

namespace Content

/-- The content is read through open streams over a source that was closed that many
times before. -/
def IsOpen (closes : Nat) (content : Content) : Prop :=
  Streams.IsOpen closes (Fin.last _) content.streams

variable {closes : Nat}

theorem isOpen_ofSource (source : Source) : (ofSource source).IsOpen source.closes := ⟨rfl, rfl⟩

/-- A property of content that looking at it, unpacking it and reading it keep. -/
structure Lasting (kept : Content → Prop) : Prop where
  peek : ∀ size, Keeps kept (Content.peek size)
  unpack : ∀ compression, Keeps kept (Content.unpack compression)
  read : ∀ {count : Nat},
    (Streams.reader count (Fin.last count)).Keeps fun streams => kept ⟨streams⟩

/-- Content that is open stays so. -/
theorem isOpen_lasting (closes : Nat) : Lasting (IsOpen closes) where
  peek := by
    rintro size ⟨streams⟩ opened
    simp only [Content.peek, onNewest]
    rw [Ending.state_inside]
    exact Streams.IsOpen.alike opened (Streams.peek_keeps size streams _ _ (.refl streams))
  unpack := by
    rintro compression ⟨streams⟩ opened
    exact Streams.isOpen_atop.mpr ((dif_neg (Nat.lt_irrefl _)).mpr ⟨rfl, opened⟩)
  read := by
    intro count size streams opened
    exact Streams.IsOpen.alike opened (Streams.reader_keeps streams _ size streams (.refl streams))

/-- Content over a source goes on being over one with the same property. -/
theorem source_lasting {kept : Source → Prop} (keeps : Source.reader.Keeps kept) :
    Lasting fun content => kept content.source where
  peek := by
    rintro size ⟨streams⟩ held
    simp only [Content.peek, onNewest]
    rw [Ending.state_inside]
    exact Streams.peek_keeps_source keeps size _ streams held
  unpack := fun _ _ held => held
  read := Streams.reader_keeps_source keeps _

theorem Lasting.and {kept other : Content → Prop} (lasting : Lasting kept) (also : Lasting other) :
    Lasting fun content => kept content ∧ other content where
  peek size content held := ⟨lasting.peek size content held.1, also.peek size content held.2⟩
  unpack compression content held :=
    ⟨lasting.unpack compression content held.1, also.unpack compression content held.2⟩
  read size streams held := ⟨lasting.read size streams held.1, also.read size streams held.2⟩

/-- Closing open content raises what closing its source raises. -/
theorem IsOpen.fault?_close {content : Content} (opened : content.IsOpen closes) :
    Ending.fault? (Content.close content) = content.source.closeFault := by
  obtain ⟨streams⟩ := content
  simp only [Content.close, onNewest]
  rw [Ending.fault?_inside]
  exact Streams.IsOpen.fault?_close opened

/-- Closing open content closes the source once. -/
theorem IsOpen.close {content : Content} (opened : content.IsOpen closes) :
    (Ending.state (Content.close content)).source.closes = closes + 1 := by
  obtain ⟨streams⟩ := content
  simp only [Content.close, onNewest]
  rw [Ending.state_inside]
  exact Streams.IsOpen.close opened

end Content

section Lasting

variable {kept : Content → Prop}

theorem header_keeps (lasting : Content.Lasting kept) (size : Int) : Keeps kept (header size) := by
  intro content held
  have shown := lasting.peek (some size) content held
  simp only [header]
  cases ended : Content.peek size content <;> rw [ended] at shown <;> exact shown

theorem classify_keeps (compression : Option Compression) (leading : Bytes) :
    Keeps kept (classify compression leading) := by
  unfold classify
  cases Image.format leading with
  | error why => exact .throw _
  | ok format => exact .pure _

/-- Classifying content keeps what looking at it and unpacking it keep. -/
theorem sniff_keeps (lasting : Content.Lasting kept) (size : Int) : Keeps kept (sniff size) := by
  refine .bind (header_keeps lasting size) fun leading => ?_
  cases Image.compression? leading with
  | none => exact classify_keeps none leading
  | some compression =>
    exact .bind (lasting.unpack compression) fun _ =>
      .bind (header_keeps lasting size) fun leading => classify_keeps (some compression) leading

end Lasting

/-! ## Open holdings -/

/-- What is held is content with a property. -/
def Holding.Holds (kept : Content → Prop) (holding : Holding) : Prop :=
  ∃ content, holding = .held content ∧ kept content

/-- What is held is open content of a source that was closed that many times before. -/
def Holding.IsOpen (closes : Nat) (holding : Holding) : Prop :=
  holding.Holds (Content.IsOpen closes)

/-- The source of what is open was closed as often as before. -/
theorem Holding.IsOpen.closed {closes : Nat} {holding : Holding} (opened : holding.IsOpen closes) :
    ∃ source, holding.source? = some source ∧ source.closes = closes := by
  obtain ⟨content, rfl, opened⟩ := opened
  exact ⟨content.source, rfl, Streams.IsOpen.source opened⟩

theorem Holding.IsOpen.isHeld {closes : Nat} {holding : Holding} (opened : holding.IsOpen closes) :
    holding.IsHeld := by
  obtain ⟨content, same, -⟩ := opened
  exact ⟨content, same⟩

namespace Intake

variable {closes : Nat} {kept : Content → Prop}

/-- A transfer keeps what reading the content keeps. -/
theorem transferWith_keeps (lasting : Content.Lasting kept) (operation : Operation)
    (wanted next : Phase) {copy : {σ : Type} → Reader σ → Act (FileTree × σ) (Path × Nat)}
    (copies : ∀ {σ : Type} {reader : Reader σ} {kept : σ → Prop}, reader.Keeps kept →
      Keeps (fun state => kept state.2) (copy reader)) :
    Keeps (fun state => state.1.holding.Holds kept)
      (transferWith operation wanted next copy) := by
  rintro ⟨intake, files⟩ ⟨⟨streams⟩, holding, held⟩
  have keeps := copies lasting.read (files, streams) held
  have left {content : Content} (held : kept content) : Holding.Holds kept (.held content) :=
    ⟨content, rfl, held⟩
  simp only [transferWith]
  cases intake.checkPhase operation (some wanted) with
  | error fault => exact ⟨_, holding, held⟩
  | ok _ =>
    replace holding : intake.holding = .held ⟨streams⟩ := holding
    rw [holding]
    dsimp only
    cases ended : copy (Streams.reader _ (Fin.last _)) (files, streams) with
    | error fault after =>
      obtain ⟨written, streams⟩ := after
      rw [ended] at keeps
      dsimp only
      split
      · exact left keeps
      · exact left keeps
    | ok copied after =>
      obtain ⟨path, size⟩ := copied
      obtain ⟨written, streams⟩ := after
      rw [ended] at keeps
      simp only [finish]
      cases Url.parse path.render <;> exact left keeps

theorem transfer_keeps (lasting : Content.Lasting kept) (scratch : Path) :
    Keeps (fun state => state.1.holding.Holds kept) (transfer scratch) := by
  rintro ⟨intake, files⟩ held
  exact transferWith_keeps lasting .transfer .transferScratch .convert
    (fun keeps => streamToScratch_keeps keeps scratch intake.chunk) (intake, files) held

theorem transferFile_keeps (lasting : Content.Lasting kept) (path : Path) :
    Keeps (fun state => state.1.holding.Holds kept) (transferFile path) := by
  rintro ⟨intake, files⟩ held
  exact transferWith_keeps lasting .transferFile .transferDataFile .resize
    (fun keeps =>
      .bind (streamToFile_keeps keeps path intake.chunk) fun written => .pure (path, written))
    (intake, files) held

/-- Closing an intake lets go of open content and closes its source once. -/
theorem close_released {intake : Intake} (opened : intake.holding.IsOpen closes) :
    ∃ source, source.closes = closes + 1 ∧
      Ending.state (close intake) =
        { intake with closed := true, holding := .released source } := by
  obtain ⟨content, holding, opened⟩ := opened
  refine ⟨_, opened.close, ?_⟩
  simp only [close, holding]
  rw [Ending.state_inside]

end Intake

/-! ## Fetching -/

/-- The source that is read is determined by what there is. -/
theorem IntakeSettings.Reads.unique {settings : IntakeSettings} {location : Location}
    {cloud : Cloud} {origin other : Source} (reads : settings.Reads location cloud origin)
    (again : settings.Reads location cloud other) : other = origin := by
  cases reads with
  | handedIn handed =>
    cases again with
    | handedIn same => exact Option.some.inj (same.symm.trans handed)
    | fetched none _ _ => cases none.symm.trans handed
  | fetched none _ found =>
    cases again with
    | handedIn handed => cases none.symm.trans handed
    | fetched _ _ same => exact congrArg Object.source (Option.some.inj (same.symm.trans found))

/-- Whatever comes of it, fetching an object asks for it once. -/
theorem fetch_requests (client : Client) (bucket key : String) (cloud : Cloud) :
    (Ending.state (client.fetch bucket key cloud)).requests = (bucket, key) :: cloud.requests := by
  have asked (cloud : Cloud) :
      (Ending.state (Cloud.fetch bucket key cloud)).requests = (bucket, key) :: cloud.requests := by
    simp only [Cloud.fetch]
    split
    · rfl
    · split <;> rfl
  unfold Client.fetch
  cases client.call? bucket key with
  | none => exact asked cloud
  | some call => exact asked { cloud with calls := call :: cloud.calls }

/-- What fetching gives is the source of the object that there is. -/
theorem fetch_found {client : Client} {bucket key : String} {cloud after : Cloud} {source : Source}
    (fetched : client.fetch bucket key cloud = .ok source after) :
    cloud.failure = none ∧ ∃ object, object.source = source ∧
      (cloud.objects.find? fun object => object.bucket = bucket && object.key = key) =
        some object := by
  have found (cloud : Cloud) (fetched : Cloud.fetch bucket key cloud = .ok source after) :
      cloud.failure = none ∧ ∃ object, object.source = source ∧
        (cloud.objects.find? fun object => object.bucket = bucket && object.key = key) =
          some object := by
    simp only [Cloud.fetch] at fetched
    split at fetched
    · cases fetched
    · rename_i reachable
      split at fetched
      · cases fetched
      · rename_i object there
        cases fetched
        exact ⟨reachable, object, rfl, there⟩
  unfold Client.fetch at fetched
  cases called : client.call? bucket key with
  | none =>
    rw [called] at fetched
    exact found cloud fetched
  | some call =>
    rw [called] at fetched
    exact found { cloud with calls := call :: cloud.calls } fetched

/-- An intake that was set up has a source to read, or is refused the object. -/
theorem Intake.reads_or_refused {settings : IntakeSettings} {intake : Intake} {before after : Cloud}
    (created : Intake.create settings before = .ok intake after) (cloud : Cloud) :
    (∃ source, settings.Reads intake.location cloud source) ∨
      settings.reader = none ∧ ∃ cause between,
        intake.client.fetch intake.location.bucket intake.location.key cloud =
            .error cause between ∧
          intake.openContent cloud = .error (.openFailed intake.name cause) between := by
  obtain ⟨location, client, -, rfl⟩ := Intake.create_eq created
  cases reader : settings.reader with
  | some source => exact .inl ⟨source, .handedIn reader⟩
  | none =>
    cases fetched : client.fetch location.bucket location.key cloud with
    | ok source between =>
      obtain ⟨reachable, object, rfl, found⟩ := fetch_found fetched
      exact .inl ⟨object.source, .fetched reader reachable found⟩
    | error cause between =>
      refine .inr ⟨rfl, cause, between, fetched, ?_⟩
      simp only [Intake.openContent, Intake.ofSettings, reader, fetched]

namespace Session

/-! ## What becomes of the source -/

/-- The source is not held, and no call can open one any more. -/
def Settled (session : Session) : Prop :=
  ¬ session.intake.holding.IsHeld ∧ (session.intake.closed = true ∨ session.intake.phase ≠ none)

section Calls

variable {session : Session} {step : Step} {ending : Ending Session (Option PhaseResult)}

/-- No call changes which object an intake is for. -/
theorem Does.location (does : Does session step ending) :
    (Ending.state ending).intake.location = session.intake.location := by
  cases does with
  | closed closes gone kept ended => rw [ended]
  | _ => rfl

/-- Only `info` asks for anything. -/
theorem Does.cloud (does : Does session step ending) (other : step ≠ .info) :
    (Ending.state ending).cloud = session.cloud := by
  cases does with
  | closed closes gone kept ended => rw [ended]
  | notOpened | opened => exact absurd rfl other
  | _ => rfl

/-- Once it is settled, no call asks for anything or touches the source. -/
theorem Does.settled (does : Does session step ending) (settled : session.Settled) :
    (Ending.state ending).cloud = session.cloud ∧
      (Ending.state ending).intake.holding = session.intake.holding ∧
        (Ending.state ending).Settled := by
  obtain ⟨gone, past⟩ := settled
  cases does with
  | refused misplaced kind => exact ⟨rfl, rfl, gone, past⟩
  | entered => exact ⟨rfl, rfl, gone, past⟩
  | closed closes released kept ended =>
    rw [ended]
    exact ⟨rfl, kept gone, released, .inl rfl⟩
  | notOpened idle usable | opened idle usable =>
    rcases past with shut | busy
    · cases usable.symm.trans shut
    · exact absurd idle busy
  | lost phases phase _ => exact ⟨rfl, rfl, gone, .inr (by simp [Ending.state])⟩
  | failed phases phase held | raised phases phase held | done phases phase held =>
    exact absurd held gone

/-- A call out of turn leaves everything as it is. -/
theorem after_misplaced (step : Step) (misplaced : step.Misplaced session.intake) :
    session.after step = session := by
  obtain ⟨fault, refused, -⟩ := (perform_does session step).refuses misplaced
  rw [after, refused]
  rfl

end Calls

/-- What was asked for: the object, unless a source was handed in. -/
def Asked (settings : IntakeSettings) (location : Location) (cloud : Cloud) (session : Session) :
    Prop :=
  settings.reader ≠ none ∧ session.cloud.requests = cloud.requests ∨
    settings.reader = none ∧
      session.cloud.requests = (location.bucket, location.key) :: cloud.requests

/-- How an intake stands to its source, given the cloud that it was set up in. -/
inductive Tenure (settings : IntakeSettings) (location : Location) (cloud : Cloud)
    (session : Session) : Prop
  /-- Nothing was asked for yet. -/
  | waiting (none : settings.reader = none) (idle : session.intake.phase = .none)
    (nothing : session.intake.holding = .nothing) (same : session.cloud = cloud)
  /-- The object was asked for, but there is none. -/
  | denied (asked : Asked settings location cloud session) (settled : session.Settled)
    (unread : ∀ origin, ¬ settings.Reads location cloud origin)
  /-- The source is held and open. -/
  | keeping {origin : Source} (reads : settings.Reads location cloud origin)
    (asked : Asked settings location cloud session)
    (opened : session.intake.holding.IsOpen origin.closes)
  /-- The source was closed once and let go. -/
  | parted {origin source : Source} (reads : settings.Reads location cloud origin)
    (asked : Asked settings location cloud session) (settled : session.Settled)
    (released : session.intake.holding = .released source)
    (once : source.closes = origin.closes + 1)

section Runs

variable {settings : IntakeSettings} {location : Location} {cloud : Cloud} {session : Session}

theorem Asked.same {other : Session} (asked : Asked settings location cloud session)
    (same : other.cloud = session.cloud) : Asked settings location cloud other := by
  unfold Asked
  rw [same]
  exact asked

/-- An intake that was just set up has the source that was handed in, or none yet. -/
theorem tenure_created {before : Cloud} {intake : Intake}
    (created : Intake.create settings before = .ok intake cloud) (files : FileTree) :
    Tenure settings intake.location cloud ⟨intake, cloud, files⟩ := by
  obtain ⟨location, client, -, rfl⟩ := Intake.create_eq created
  cases reader : settings.reader with
  | none => exact .waiting reader rfl (by simp only [Intake.ofSettings, reader]) rfl
  | some source =>
    refine .keeping (.handedIn reader) (.inl ⟨by simp [reader], rfl⟩)
      ⟨.ofSource source, ?_, Content.isOpen_ofSource source⟩
    simp only [Intake.ofSettings, reader]

theorem not_isHeld_released (source : Source) : ¬ Holding.IsHeld (.released source) := by
  rintro ⟨content, same⟩
  cases same

theorem not_isHeld_nothing : ¬ Holding.IsHeld .nothing := by
  rintro ⟨content, same⟩
  cases same

/-- Classifying open content keeps it, or lets it go and closes its source once. -/
theorem tenure_classified {intake : Intake} {before after : Cloud} {files : FileTree}
    {origin : Source} {content : Content} (idle : intake.phase = none)
    (usable : intake.closed = false) (reads : settings.Reads location cloud origin)
    (ready : intake.openContent before = .ok content after)
    (opened : content.IsOpen origin.closes)
    (asked : ∀ intake files, Asked settings location cloud ⟨intake, after, files⟩) :
    Tenure settings location cloud (Session.after ⟨intake, before, files⟩ .info) := by
  have left := sniff_keeps (Content.isOpen_lasting _) sniffSize content opened
  rw [Session.after, info_eq files idle usable ready]
  cases sniffed : sniff sniffSize content with
  | error fault content =>
    rw [sniffed] at left
    exact .parted reads (asked _ _) ⟨not_isHeld_released _, .inr (Option.some_ne_none _)⟩ rfl
      left.close
  | ok found content =>
    rw [sniffed] at left
    exact .keeping reads (asked _ _) ⟨content, rfl, left⟩

/-- What `info` does to an intake that waits for its source. -/
theorem tenure_fetched {intake : Intake} {files : FileTree} (none : settings.reader = none)
    (idle : intake.phase = .none) (usable : intake.closed = false)
    (nothing : intake.holding = .nothing) :
    Tenure settings intake.location cloud (Session.after ⟨intake, cloud, files⟩ .info) := by
  have requests := fetch_requests intake.client intake.location.bucket intake.location.key cloud
  cases fetched : intake.client.fetch intake.location.bucket intake.location.key cloud with
  | error fault after =>
    rw [fetched] at requests
    have unopened : intake.openContent cloud = .error (.openFailed intake.name fault) after := by
      simp only [Intake.openContent, nothing, fetched]
    rw [Session.after, info_unopened files idle usable unopened]
    refine .denied (.inr ⟨none, requests⟩)
      ⟨nothing ▸ not_isHeld_nothing, .inr (Option.some_ne_none _)⟩ ?_
    intro origin reads
    cases reads with
    | handedIn handed => cases none.symm.trans handed
    | fetched _ reachable found =>
      obtain ⟨last, given⟩ := Intake.fetch_of_found intake.client reachable found
      cases given.symm.trans fetched
  | ok source after =>
    rw [fetched] at requests
    have ready : intake.openContent cloud = .ok (.ofSource source) after := by
      simp only [Intake.openContent, nothing, fetched]
    obtain ⟨reachable, object, rfl, found⟩ := fetch_found fetched
    exact tenure_classified idle usable (.fetched none reachable found) ready
      (Content.isOpen_ofSource object.source) fun _ _ => .inr ⟨none, requests⟩

/-- A transfer keeps what reading the content that is held keeps. -/
theorem holds_of_transfer {kept : Content → Prop} (lasting : Content.Lasting kept) (step : Step)
    {wanted next : Phase} (phases : step.phases? = some (wanted, next))
    (held : session.intake.holding.Holds kept) :
    (session.after step).intake.holding.Holds kept := by
  obtain ⟨intake, cloud, files⟩ := session
  have ended (act : Act (Intake × FileTree) PhaseResult) :
      (Ending.state ((some <$> onFiles act : Act Session (Option PhaseResult))
        ⟨intake, cloud, files⟩)).intake = (Ending.state (act (intake, files))).1 := by
    rw [some_onFiles]
    cases act (intake, files) <;> rfl
  rcases Step.cases_of_phases phases with ⟨scratch, rfl, -, -⟩ | ⟨path, rfl, -, -⟩
  · rw [Session.after, perform, ended]
    exact Intake.transfer_keeps lasting scratch (intake, files) held
  · rw [Session.after, perform, ended]
    exact Intake.transferFile_keeps lasting path (intake, files) held

/-- A transfer keeps its source open. -/
theorem isOpen_of_transfer {closes : Nat} (step : Step) {wanted next : Phase}
    (phases : step.phases? = some (wanted, next))
    (opened : session.intake.holding.IsOpen closes) :
    (session.after step).intake.holding.IsOpen closes :=
  holds_of_transfer (Content.isOpen_lasting closes) step phases opened

/-- Closing an intake that keeps its source closes that once and lets it go. -/
theorem released_of_close {closes : Nat} {step : Step} (leaves : step = .close ∨ step = .exit)
    (opened : session.intake.holding.IsOpen closes) :
    ∃ source, source.closes = closes + 1 ∧
      session.after step =
        { session with
          intake := { session.intake with closed := true, holding := .released source } } := by
  obtain ⟨intake, cloud, files⟩ := session
  obtain ⟨source, once, ended⟩ := Intake.close_released opened
  refine ⟨source, once, ?_⟩
  have state : Session.after ⟨intake, cloud, files⟩ step =
      ⟨Ending.state (Intake.close intake), cloud, files⟩ := by
    rcases leaves with rfl | rfl <;>
      (simp only [Session.after, perform, Functor.map, EStateM.map, onIntake]
       cases Intake.close intake <;> rfl)
  rw [state, ended]

/-- An intake that was closed before it asked for anything goes on waiting. -/
theorem waiting_of_close {step : Step} (leaves : step = .close ∨ step = .exit)
    (none : settings.reader = none) (idle : session.intake.phase = .none)
    (nothing : session.intake.holding = .nothing) (same : session.cloud = cloud) :
    Tenure settings location cloud (session.after step) := by
  have shut := Intake.close_of_not_held (nothing ▸ not_isHeld_nothing)
  have state : session.after step =
      { session with intake := { session.intake with closed := true } } := by
    rcases leaves with rfl | rfl <;>
      simp only [Session.after, perform, Functor.map, EStateM.map, onIntake, shut] <;> rfl
  rw [state]
  exact .waiting none idle nothing same

/-- **Every call leaves an intake in one of the ways in which it can stand to its source.** -/
theorem Tenure.called (tenure : Tenure settings session.intake.location cloud session)
    (step : Step) :
    Tenure settings (session.after step).intake.location cloud (session.after step) := by
  have does := perform_does session step
  have place : (session.after step).intake.location = session.intake.location := does.location
  rw [place]
  cases tenure with
  | waiting none idle nothing same =>
    cases step with
    | info =>
      by_cases shut : session.intake.closed = true
      · rw [after_misplaced .info (.inl shut)]
        exact .waiting none idle nothing same
      · rw [← same]
        exact tenure_fetched none idle (Bool.eq_false_iff.mpr shut) nothing
    | transfer scratch =>
      rw [after_misplaced (.transfer scratch) (by simp [Step.Misplaced, idle])]
      exact .waiting none idle nothing same
    | transferFile path =>
      rw [after_misplaced (.transferFile path) (by simp [Step.Misplaced, idle])]
      exact .waiting none idle nothing same
    | close => exact waiting_of_close (.inl rfl) none idle nothing same
    | exit => exact waiting_of_close (.inr rfl) none idle nothing same
    | enter => exact .waiting none idle nothing same
  | denied asked settled unread =>
    obtain ⟨same, -, still⟩ := does.settled settled
    exact .denied (asked.same same) still unread
  | parted reads asked settled released once =>
    obtain ⟨same, holding, still⟩ := does.settled settled
    exact .parted reads (asked.same same) still (holding.trans released) once
  | keeping reads asked opened =>
    cases step with
    | info =>
      by_cases misplaced : Step.info.Misplaced session.intake
      · rw [after_misplaced .info misplaced]
        exact .keeping reads asked opened
      · obtain ⟨idle, usable⟩ := Step.idle_of_not_misplaced misplaced
        obtain ⟨content, holding, opened⟩ := opened
        have ready : session.intake.openContent session.cloud = .ok content session.cloud := by
          simp only [Intake.openContent, holding]
        exact tenure_classified idle usable reads ready opened fun _ _ => asked
    | transfer scratch =>
      exact .keeping reads (asked.same (does.cloud Step.noConfusion))
        (isOpen_of_transfer (.transfer scratch) rfl opened)
    | transferFile path =>
      exact .keeping reads (asked.same (does.cloud Step.noConfusion))
        (isOpen_of_transfer (.transferFile path) rfl opened)
    | close =>
      obtain ⟨source, once, ended⟩ := released_of_close (.inl rfl) opened
      rw [ended]
      exact .parted reads asked ⟨not_isHeld_released source, .inl rfl⟩ rfl once
    | exit =>
      obtain ⟨source, once, ended⟩ := released_of_close (.inr rfl) opened
      rw [ended]
      exact .parted reads asked ⟨not_isHeld_released source, .inl rfl⟩ rfl once
    | enter => exact .keeping reads asked opened

theorem Tenure.calledAll (tenure : Tenure settings session.intake.location cloud session)
    (steps : List Step) :
    (session.afterAll steps).intake.location = session.intake.location ∧
      Tenure settings session.intake.location cloud (session.afterAll steps) := by
  induction steps generalizing session with
  | nil => exact ⟨rfl, tenure⟩
  | cons step steps ih =>
    have place : (session.after step).intake.location = session.intake.location :=
      (perform_does session step).location
    obtain ⟨same, later⟩ := ih (tenure.called step)
    rw [place] at same later
    exact ⟨same, later⟩

theorem settled_afterAll (settled : session.Settled) (steps : List Step) :
    (session.afterAll steps).Settled := by
  induction steps generalizing session with
  | nil => exact settled
  | cons step steps ih => exact ih ((perform_does session step).settled settled).2.2

/-! ## Letting go -/

/-- An intake that is told to close keeps its source no more. -/
theorem settled_of_leaves {step : Step} (leaves : step = .close ∨ step = .exit)
    (session : Session) : (session.after step).Settled := by
  have does := perform_does session step
  unfold after
  generalize perform step session = ending at does ⊢
  cases does with
  | closed closes gone kept ended =>
    rw [ended]
    exact ⟨gone, .inl rfl⟩
  | refused misplaced kind => rcases leaves with rfl | rfl <;> exact misplaced.elim
  | entered | notOpened | opened => rcases leaves with same | same <;> cases same
  | lost phases | failed phases | raised phases | done phases =>
    rcases leaves with rfl | rfl <;> cases phases

/-- An intake whose `info` reports a fault keeps its source no more. -/
theorem settled_of_reported {fault : Option Fault} {after : Session}
    (reported : perform .info session = .ok (some ⟨.error, fault⟩) after) : after.Settled := by
  by_cases misplaced : Step.info.Misplaced session.intake
  · obtain ⟨why, refused, -⟩ := (perform_does session .info).refuses misplaced
    cases refused.symm.trans reported
  · obtain ⟨idle, usable⟩ := Step.idle_of_not_misplaced misplaced
    obtain ⟨intake, cloud, files⟩ := session
    cases ready : intake.openContent cloud with
    | error why left =>
      rw [info_unopened files idle usable ready] at reported
      cases reported
      refine ⟨?_, .inr (Option.some_ne_none _)⟩
      rintro ⟨content, holding⟩
      replace holding : intake.holding = .held content := holding
      simp only [Intake.openContent, holding] at ready
      cases ready
    | ok content left =>
      rw [info_eq files idle usable ready] at reported
      cases sniffed : sniff sniffSize content with
      | error why content =>
        rw [sniffed] at reported
        cases reported
        exact ⟨not_isHeld_released _, .inr (Option.some_ne_none _)⟩
      | ok found content =>
        rw [sniffed] at reported
        obtain ⟨format, compression⟩ := found
        rcases Intake.nextPhase_cases format with ⟨-, next⟩ | ⟨-, next⟩ <;>
          (simp only [next] at reported
           cases reported)

/-- A run in which the intake was told to close, or in which `info` found no image. -/
inductive LetGo (start : Session) : List Step → Prop
  | told {first later : List Step} {step : Step} (leaves : step = .close ∨ step = .exit) :
    LetGo start (first ++ step :: later)
  | reported {first later : List Step} {fault : Option Fault} {after : Session}
    (reported : perform .info (start.afterAll first) = .ok (some ⟨.error, fault⟩) after) :
    LetGo start (first ++ .info :: later)

theorem afterAll_append (first later : List Step) :
    session.afterAll (first ++ later) = (session.afterAll first).afterAll later := by
  simp only [afterAll, List.foldl_append]

/-- After such a run the source is not kept any more. -/
theorem LetGo.settled {steps : List Step} (gone : session.LetGo steps) :
    (session.afterAll steps).Settled := by
  cases gone with
  | told leaves =>
    rw [afterAll_append]
    exact settled_afterAll (settled_of_leaves leaves _) _
  | @reported first later fault after reported =>
    have settled : ((session.afterAll first).after .info).Settled := by
      rw [Session.after, reported]
      exact settled_of_reported reported
    rw [afterAll_append]
    exact settled_afterAll settled later

/-- Closing a closed intake again does nothing. -/
theorem close_again {step : Step} (leaves : step = .close ∨ step = .exit)
    (shut : session.intake.closed = true) (gone : ¬ session.intake.holding.IsHeld) :
    perform step session = .ok none session := by
  obtain ⟨intake, cloud, files⟩ := session
  have same : { intake with closed := true } = intake := by
    cases intake
    cases shut
    rfl
  have still := Intake.close_of_not_held gone
  rw [same] at still
  rcases leaves with rfl | rfl <;>
    simp only [perform, Functor.map, EStateM.map, onIntake, still] <;> rfl

/-- A closed intake stays closed. -/
theorem afterAll_shut (shut : session.intake.closed = true) (steps : List Step) :
    (session.afterAll steps).intake.closed = true := by
  induction steps generalizing session with
  | nil => exact shut
  | cons step steps ih => exact ih ((perform_does session step).shuts (.inr (.inr shut)))

/-- A run that closes its intake ends with a closed one that does not keep its source. -/
theorem closed_of_leaves {step : Step} (leaves : step = .close ∨ step = .exit)
    {steps : List Step} (called : step ∈ steps) :
    (session.afterAll steps).intake.closed = true ∧
      ¬ (session.afterAll steps).intake.holding.IsHeld := by
  obtain ⟨first, later, rfl⟩ := List.append_of_mem called
  refine ⟨?_, (LetGo.told leaves).settled.1⟩
  rw [afterAll_append]
  refine afterAll_shut ((perform_does _ step).shuts ?_) later
  exact leaves.imp_right .inl

/-! ## Whole runs -/

/-- What is asked for in a run from one cloud to another: nothing, or once the object that
the endpoint was resolved to, and never anything if a source was handed in. -/
def AsksOnce (settings : IntakeSettings) (location : Location) (before after : Cloud) : Prop :=
  after.requests = before.requests ∨
    settings.reader = none ∧ after.requests = (location.bucket, location.key) :: before.requests

/-- Setting up an intake records what it asks of libraries and client factories, and nothing
else. -/
theorem create_keeps {kept : Cloud → Prop}
    (blind : ∀ cloud calls handedOut, kept cloud → kept { cloud with calls, handedOut }) :
    Keeps kept (Intake.create settings) := by
  have quiet (service : ClientSettings) :
      Keeps kept (settings.factory.get settings.backend service) := by
    intro cloud held
    cases settings.factory with
    | library =>
      simp only [ClientFactory.get, createClient]
      cases cloud.library settings.backend with
      | missing => exact held
      | installed | refusing fault =>
        cases checkService service.service with
        | error why => exact held
        | ok _ => exact blind cloud _ cloud.handedOut held
    | readyMade failure =>
      cases failure <;> exact blind cloud cloud.calls _ held
  unfold Intake.create
  cases locate settings.endpoint settings.backend.schemes with
  | error why => exact .throw _
  | ok location =>
    refine .bind ?_ fun client => .pure _
    intro cloud held
    have got := quiet (settings.client (settings.backend.service location.url)) cloud held
    simp only [Intake.getClient]
    cases ended : settings.factory.get settings.backend
        (settings.client (settings.backend.service location.url)) cloud <;>
      rw [ended] at got <;> exact got

/-- Setting up an intake asks for no object. -/
theorem requests_of_create {before : Cloud} {intake : Intake}
    (created : Intake.create settings before = .ok intake cloud) :
    cloud.requests = before.requests := by
  have quiet : Keeps (fun cloud : Cloud => cloud.requests = before.requests)
      (Intake.create settings) := create_keeps fun _ _ _ same => same
  exact quiet.ok rfl created

/-- What an intake will read is known before it is set up. -/
theorem reads_of_create {before : Cloud} {intake : Intake} {location : Location} {source : Source}
    (created : Intake.create settings before = .ok intake cloud)
    (reads : settings.Reads location cloud source) : settings.Reads location before source := by
  have quiet : Keeps (fun cloud : Cloud => cloud.objects = before.objects ∧
      cloud.failure = before.failure) (Intake.create settings) :=
    create_keeps fun _ _ _ same => same
  obtain ⟨objects, failure⟩ := quiet.ok ⟨rfl, rfl⟩ created
  cases reads with
  | handedIn handed => exact .handedIn handed
  | fetched none reachable found => exact .fetched none (failure ▸ reachable) (objects ▸ found)

/-- However an intake stands to its source, it has asked for no more than its object. -/
theorem Tenure.asksOnce (tenure : Tenure settings location cloud session) :
    AsksOnce settings location cloud session.cloud := by
  cases tenure with
  | waiting _ _ _ same => exact .inl (congrArg Cloud.requests same)
  | denied asked | keeping _ asked | parted _ asked => exact asked.imp_left And.right

/-- A source that was opened or handed in was closed at most once, and exactly once if it is
kept no more. -/
theorem Tenure.custody (tenure : Tenure settings location cloud session) {origin : Source}
    (reads : settings.Reads location cloud origin)
    (opened : settings.reader ≠ none ∨ session.cloud.requests ≠ cloud.requests) :
    ∃ source, session.intake.holding.source? = some source ∧
      (source.closes = origin.closes ∨ source.closes = origin.closes + 1) ∧
        (session.Settled → source.closes = origin.closes + 1) := by
  cases tenure with
  | waiting none _ _ same =>
    rcases opened with handed | asked
    · exact absurd none handed
    · exact absurd (congrArg Cloud.requests same) asked
  | denied _ _ unread => exact absurd reads (unread origin)
  | keeping same _ still =>
    obtain rfl := same.unique reads
    obtain ⟨source, held, closes⟩ := still.closed
    refine ⟨source, held, .inl closes, ?_⟩
    intro settled
    exact absurd still.isHeld settled.1
  | parted same _ _ released once =>
    obtain rfl := same.unique reads
    exact ⟨_, congrArg Holding.source? released, .inr once, fun _ => once⟩

/-- **The object is asked for at most once and its source is closed exactly once.** In any
run of an intake that was set up, whatever fails on the way, nothing but the object that the
endpoint was resolved to is asked for, at most once, and not even that if a source was
handed in. The source that was opened or handed in is closed at most once, and exactly once
as soon as the intake was told to close or `info` has reported that there is no image.
Closing again does not raise and changes nothing. -/
theorem opened_once_closed_once {before : Cloud}
    (created : Intake.create settings before = .ok session.intake session.cloud)
    (steps : List Step) :
    locate settings.endpoint settings.backend.schemes = .ok session.intake.location ∧
      AsksOnce settings session.intake.location before (session.afterAll steps).cloud ∧
      (∀ origin, settings.Reads session.intake.location session.cloud origin →
        settings.reader ≠ none ∨
          (session.afterAll steps).cloud.requests ≠ before.requests →
        ∃ source, (session.afterAll steps).intake.holding.source? = some source ∧
          (source.closes = origin.closes ∨ source.closes = origin.closes + 1) ∧
          (session.LetGo steps → source.closes = origin.closes + 1)) ∧
      (.close ∈ steps ∨ .exit ∈ steps → ∀ step, step = .close ∨ step = .exit →
        perform step (session.afterAll steps) = .ok none (session.afterAll steps)) := by
  have requests := requests_of_create created
  have begins : Tenure settings session.intake.location session.cloud session :=
    tenure_created created session.files
  obtain ⟨-, tenure⟩ := begins.calledAll steps
  refine ⟨?_, ?_, ?_, ?_⟩
  · obtain ⟨location, client, located, same⟩ := Intake.create_eq created
    rw [same]
    exact located
  · have asks := tenure.asksOnce
    rwa [AsksOnce, requests] at asks
  · intro origin reads opened
    rw [← requests] at opened
    obtain ⟨source, held, closes, once⟩ := tenure.custody reads opened
    exact ⟨source, held, closes, fun gone => once gone.settled⟩
  · intro told step leaves
    obtain ⟨shut, gone⟩ := told.elim (closed_of_leaves (.inl rfl)) (closed_of_leaves (.inr rfl))
    exact close_again leaves shut gone

/-- Settings for an object that stands in a bucket. -/
def fetching : IntakeSettings where
  backend := .s3
  endpoint := "s3://images/disk"
  chunk := none
  factory := .readyMade none

/-- A cloud whose only object holds gzip data and does not like to be closed. -/
def stubborn : Cloud where
  objects := [⟨"images", "disk",
    { rest := storedLetter, closeFault := some (.foreign .timeout "The close timed out") }⟩]

/-- A session that was just set up to fetch that object. -/
def fetchingStubborn : Session where
  intake := .ofSettings fetching ⟨⟨"s3", "images", "/disk", "", "", ""⟩, "images", "disk"⟩
    .readyMade
  cloud := { stubborn with handedOut := [{}] }
  files := .fresh

/-- An object that is fetched, unpacked, closed in vain and closed again. -/
theorem opened_once_closed_once_stubborn :
    (fetchingStubborn.afterAll [.info, .close, .exit]).cloud.requests = [("images", "disk")] ∧
      ∃ source,
        (fetchingStubborn.afterAll [.info, .close, .exit]).intake.holding.source? = some source ∧
          source.closes = 1 := by
  have located : locate "s3://images/disk" (Backend.schemes .s3) =
      .ok ⟨⟨"s3", "images", "/disk", "", "", ""⟩, "images", "disk"⟩ := by decide +kernel
  have created : Intake.create fetching stubborn =
      .ok fetchingStubborn.intake fetchingStubborn.cloud := by
    unfold Intake.create
    rw [show locate fetching.endpoint fetching.backend.schemes = _ from located]
    rfl
  have asked : (fetchingStubborn.afterAll [.info, .close, .exit]).cloud.requests =
      [("images", "disk")] := by decide +kernel
  obtain ⟨-, -, custody, -⟩ := opened_once_closed_once created [.info, .close, .exit]
  obtain ⟨source, held, -, once⟩ := custody _ (.fetched rfl rfl rfl) (.inr (by
    rw [asked]
    exact List.cons_ne_nil _ _))
  have letGo : fetchingStubborn.LetGo ([.info] ++ .close :: [.exit]) := .told (.inl rfl)
  exact ⟨asked, source, held, once letGo⟩

end Runs

end Session

end DiskStaging
