import DiskStaging.Intake.Session
import DiskStaging.Proofs.Sniffing
import Mathlib

/-!
# What the operations of a session do

A fresh intake reads the source that was handed in, or that of the object that its
endpoint names (`IntakeSettings.Reads`). What `info` does to it depends on how the
source is classified, and on nothing else (`Session.info_eq`).

A transfer has a target: the path of a file that can be opened for writing, and the
phase to go on with (`Session.Target`). It pours what is left of the content into
that file (`Session.perform_transfer`), and the file is the only thing that changes
in the file tree (`FileTree.written_write`).
-/

set_option autoImplicit false

namespace DiskStaging

/-! ## Fresh intakes -/

/-- The source that an intake will read: the one that was handed in, or that of the
object. -/
inductive IntakeSettings.Reads (settings : IntakeSettings) (location : Location) (cloud : Cloud) :
    Source → Prop
  | handedIn {source : Source} (handed : settings.reader = some source) :
    Reads settings location cloud source
  | fetched {object : Object} (none : settings.reader = none) (reachable : cloud.failure = .none)
    (found : (cloud.objects.find? fun object =>
      object.bucket = location.bucket && object.key = location.key) = some object) :
    Reads settings location cloud object.source

namespace Intake

variable {settings : IntakeSettings} {intake : Intake} {before cloud : Cloud} {source : Source}

/-- An intake is set up as its settings describe. -/
theorem create_eq {after : Cloud} (created : create settings before = .ok intake after) :
    ∃ location client, locate settings.endpoint settings.backend.schemes = .ok location ∧
      intake = ofSettings settings location client := by
  unfold create at created
  cases located : locate settings.endpoint settings.backend.schemes with
  | error why =>
    rw [located] at created
    cases created
  | ok location =>
    rw [located] at created
    obtain ⟨client, between, -, rest⟩ := bind_eq_ok created
    cases rest
    exact ⟨location, client, rfl, rfl⟩

/-- A client is what the factory gives. -/
theorem getClient_eq_ok_iff {service : String} {client : Client} {after : Cloud} :
    getClient settings service before = .ok client after ↔
      settings.factory.get settings.backend (settings.client service) before =
        .ok client after := by
  rw [getClient]
  cases settings.factory.get settings.backend (settings.client service) before <;> simp

/-- A client that reaches the object gets its source. -/
theorem fetch_of_found {bucket key : String} {object : Object} (client : Client)
    (reachable : cloud.failure = none)
    (found : (cloud.objects.find? fun object =>
      object.bucket = bucket && object.key = key) = some object) :
    ∃ after, client.fetch bucket key cloud = .ok object.source after := by
  unfold Client.fetch Cloud.fetch
  cases client.call? bucket key with
  | none =>
    simp only [reachable, found]
    exact ⟨_, rfl⟩
  | some call =>
    simp only [Bind.bind, EStateM.bind, Cloud.record, reachable, found]
    exact ⟨_, rfl⟩

/-- A fresh intake opens the content of the source that it was set up to read. -/
theorem openContent_of_reads {location : Location} (client : Client)
    (reads : settings.Reads location cloud source) :
    ∃ after, (ofSettings settings location client).openContent cloud =
      .ok (.ofSource source) after := by
  cases reads with
  | handedIn handed =>
    simp only [openContent, ofSettings, handed]
    exact ⟨cloud, rfl⟩
  | fetched none reachable found =>
    obtain ⟨after, fetched⟩ := fetch_of_found client reachable found
    simp only [openContent, ofSettings, none, fetched]
    exact ⟨after, rfl⟩

end Intake

/-! ## Writing files -/

namespace FileTree

/-- The tree after some content was written at a place. Nothing else has changed, and
a device has forgotten what was written. -/
structure Written (before after : FileTree) (place : Place) (content : Bytes) : Prop where
  home : after.home = before.home
  there : after.node? place =
    if before.node? place = some .sink then some .sink else some (.file content)
  elsewhere : ∀ other, other ≠ place → after.node? other = before.node? other

/-- Only the root has no name, and it is no file. -/
theorem place_ne_nil {tree : FileTree} {path : Path} {place : Place}
    (opened : tree.openFile path = .ok place) : place ≠ [] := by
  rintro rfl
  unfold openFile at opened
  cases found : tree.place path with
  | error why =>
    rw [found] at opened
    cases opened
  | ok inside =>
    rw [found] at opened
    simp only [Bind.bind, Except.bind] at opened
    split at opened
    · cases opened
    · rename_i _ file
      cases opened
      exact file rfl

/-- **Writing changes nothing but the file at the place.** -/
theorem written_write {tree : FileTree} {place : Place} (named : place ≠ []) (content : Bytes) :
    Written tree (tree.write place content) place content := by
  by_cases device : tree.node? place = some .sink
  · have same : tree.write place content = tree := by
      rw [write, device]
    rw [same]
    exact ⟨rfl, by rw [if_pos device, device], fun _ _ => rfl⟩
  · have put : tree.write place content = tree.put place (.file content) := by
      unfold write
      split
      · rename_i sink
        exact absurd sink device
      · rfl
    rw [put]
    refine ⟨rfl, ?_, ?_⟩
    · rw [node?_put _ _ _ _ named, if_pos rfl, if_neg device]
    · intro other apart
      rw [node?_put _ _ _ _ named, if_neg apart]

end FileTree

/-! ## Pouring content into files -/

/-- Copying content into a file, which breaks off where the content does. -/
theorem streamToFile_eq {σ : Type} (reader : Reader σ) {files : FileTree} {path : Path}
    {place : Place} (opened : files.openFile path = .ok place) (chunk : Option Int) (state : σ) :
    streamToFile reader path chunk (files, state) =
      let poured := reader.pour (sizeAsked chunk) #[] state
      let written := files.write place poured.content.toList
      match poured.fault with
      | some fault => .error (.copy path.render fault) (written, poured.state)
      | none => .ok poured.content.size (written, poured.state) := by
  cases broken : (reader.pour (sizeAsked chunk) #[] state).fault with
  | none => simp only [streamToFile, opened, broken]
  | some fault => simp only [streamToFile, opened, broken]

namespace Intake

/-- What an intake comes to when the content that it holds was poured into the file at
a path, given the phase to go on with. -/
def poured {count : Nat} (intake : Intake) (path : Path) (next : Phase)
    (all : Reader.Poured (Streams count)) (files : FileTree) :
    Ending (Intake × FileTree) PhaseResult :=
  let intake := { intake with holding := .held ⟨all.state⟩ }
  match all.fault with
  | some fault =>
    .ok ⟨.error, some (.copy path.render fault)⟩ ({ intake with phase := some .error }, files)
  | none =>
    match Url.parse path.render with
    | .error why => .error (.url why) ({ intake with written := all.content.size }, files)
    | .ok url =>
      .ok ⟨next, none⟩
        ({ intake with written := all.content.size, url, phase := some next }, files)

theorem transferWith_eq {intake : Intake} {files written : FileTree} {content : Content}
    {operation : Operation} {wanted next : Phase} {path : Path}
    {copy : {σ : Type} → Reader σ → Act (FileTree × σ) (Path × Nat)}
    {all : Reader.Poured (Streams content.count)} (phase : intake.phase = some wanted)
    (held : intake.holding = .held content)
    (copied : copy (Streams.reader _ (Fin.last _)) (files, content.streams) =
      match all.fault with
      | some fault => .error (.copy path.render fault) (written, all.state)
      | none => .ok (path, all.content.size) (written, all.state)) :
    transferWith operation wanted next copy (intake, files) =
      poured intake path next all written := by
  have free : intake.checkPhase operation (some wanted) = .ok () := if_pos phase
  obtain ⟨streams⟩ := content
  simp only [transferWith, free]
  rw [held]
  dsimp only
  rw [copied]
  unfold poured
  cases all.fault with
  | some fault => rfl
  | none =>
    simp only [finish]
    cases Url.parse path.render <;> rfl

end Intake

/-! ## Operations -/

namespace Session

/-- The ending of a call, given that of the action on the files that it does. -/
def ofFiles (cloud : Cloud) :
    Ending (Intake × FileTree) PhaseResult → Ending Session (Option PhaseResult)
  | .ok result (intake, files) => .ok (some result) ⟨intake, cloud, files⟩
  | .error fault (intake, files) => .error fault ⟨intake, cloud, files⟩

theorem some_onFiles (act : Act (Intake × FileTree) PhaseResult) (intake : Intake) (cloud : Cloud)
    (files : FileTree) :
    (some <$> onFiles act : Act Session (Option PhaseResult)) ⟨intake, cloud, files⟩ =
      ofFiles cloud (act (intake, files)) := by
  simp only [Functor.map, EStateM.map, onFiles]
  cases act (intake, files) <;> rfl

/-- What `info` does to a fresh intake is told by classifying its content. -/
theorem info_eq {intake : Intake} {cloud after : Cloud} {content : Content} (files : FileTree)
    (fresh : intake.phase = none) (opened : intake.closed = false)
    (ready : intake.openContent cloud = .ok content after) :
    perform .info ⟨intake, cloud, files⟩ =
      match sniff sniffSize content with
      | .error fault content =>
        .ok (some ⟨.error, some (intake.readFault fault)⟩)
          ⟨{ intake with
              holding := .released (Ending.state (Content.close content)).source
              phase := some .error }, after, files⟩
      | .ok found content =>
        .ok (some ⟨Intake.nextPhase found.format, none⟩)
          ⟨{ intake with
              holding := .held content
              format := some found.format
              compression := found.compression
              phase := some (Intake.nextPhase found.format) }, after, files⟩ := by
  have free : intake.checkPhase .info none = .ok () := if_pos fresh
  have going : ¬ intake.closed = true := by
    rw [opened]
    exact Bool.false_ne_true
  simp only [perform, onCloud, Functor.map, EStateM.map, Intake.info, if_neg going, free, ready]
  cases sniff sniffSize content <;> rfl

/-- What `info` does to a fresh intake that has no content to open. -/
theorem info_unopened {intake : Intake} {cloud after : Cloud} {fault : Fault} (files : FileTree)
    (fresh : intake.phase = none) (opened : intake.closed = false)
    (broken : intake.openContent cloud = .error fault after) :
    perform .info ⟨intake, cloud, files⟩ =
      .ok (some ⟨.error, some fault⟩) ⟨{ intake with phase := some .error }, after, files⟩ := by
  have free : intake.checkPhase .info none = .ok () := if_pos fresh
  have going : ¬ intake.closed = true := by
    rw [opened]
    exact Bool.false_ne_true
  simp only [perform, onCloud, Functor.map, EStateM.map, Intake.info, if_neg going, free, broken]
  rfl

/-- A session with an intake that was just set up and will read a source. -/
structure Begins (settings : IntakeSettings) (source : Source) (session : Session) : Prop where
  created : ∃ before after, Intake.create settings before = .ok session.intake after
  reads : settings.Reads session.intake.location session.cloud source

section Beginning

variable {settings : IntakeSettings} {source : Source} {session : Session}

/-- What a fresh intake knows of the image. -/
theorem Begins.fresh (begins : session.Begins settings source) :
    session.intake.phase = none ∧ session.intake.closed = false ∧
      session.intake.url = session.intake.location.url ∧ session.intake.written = 0 ∧
        session.intake.chunk = settings.chunk := by
  obtain ⟨before, after, created⟩ := begins.created
  obtain ⟨location, client, -, same⟩ := Intake.create_eq created
  rw [same]
  exact ⟨rfl, rfl, rfl, rfl, rfl⟩

/-- What `info` does to a fresh intake is told by classifying the source. -/
theorem Begins.info (begins : session.Begins settings source) :
    ∃ cloud, perform .info session =
      match sniff sniffSize (.ofSource source) with
      | .error fault content =>
        .ok (some ⟨.error, some (session.intake.readFault fault)⟩)
          ⟨{ session.intake with
              holding := .released (Ending.state (Content.close content)).source
              phase := some .error }, cloud, session.files⟩
      | .ok found content =>
        .ok (some ⟨Intake.nextPhase found.format, none⟩)
          ⟨{ session.intake with
              holding := .held content
              format := some found.format
              compression := found.compression
              phase := some (Intake.nextPhase found.format) }, cloud, session.files⟩ := by
  obtain ⟨fresh, opened, -⟩ := begins.fresh
  obtain ⟨before, after, created⟩ := begins.created
  obtain ⟨location, client, -, same⟩ := Intake.create_eq created
  have located : session.intake.location = location := by rw [same, Intake.ofSettings]
  have reads := begins.reads
  rw [located] at reads
  obtain ⟨cloud, ready⟩ := Intake.openContent_of_reads client reads
  rw [← same] at ready
  exact ⟨cloud, info_eq session.files fresh opened ready⟩

/-- Whatever an endpoint names, a source that was handed in is read in its place. -/
theorem begins_handedIn {location : Location} (cloud : Cloud) (files : FileTree)
    (located : locate settings.endpoint settings.backend.schemes = .ok location)
    (ready : settings.factory = .readyMade none) (handed : settings.reader = some source) :
    Begins settings source ⟨.ofSettings settings location .readyMade, cloud, files⟩ := by
  refine ⟨⟨cloud, ?_⟩, .handedIn handed⟩
  unfold Intake.create
  rw [located]
  simp only [Bind.bind, EStateM.bind, Intake.getClient, ready, ClientFactory.get]
  exact ⟨_, rfl⟩

end Beginning

/-- Settings for an object that stands in a bucket, with a source handed in. -/
def handedIn (source : Source) (chunk : Option Int) : IntakeSettings where
  backend := .s3
  endpoint := "s3://images/disk"
  chunk := chunk
  factory := .readyMade none
  reader := some source

/-- Gzip data that hold one letter. -/
def storedLetter : Bytes :=
  [0x1F, 0x8B, 0x08, 0, 0, 0, 0, 0, 0, 3, 1, 1, 0, 0xFE, 0xFF, 0x41, 0x8B, 0x9E, 0xD9, 0xD3,
    1, 0, 0, 0]

/-- A session that was just set up with these. -/
def beginning (source : Source) (chunk : Option Int) : Session where
  intake := .ofSettings (handedIn source chunk)
    ⟨⟨"s3", "images", "/disk", "", "", ""⟩, "images", "disk"⟩ .readyMade
  cloud := {}
  files := .fresh

theorem begins_beginning (source : Source) (chunk : Option Int) :
    (beginning source chunk).Begins (handedIn source chunk) source := by
  have located : locate "s3://images/disk" (Backend.schemes .s3) =
      .ok ⟨⟨"s3", "images", "/disk", "", "", ""⟩, "images", "disk"⟩ := by decide +kernel
  exact begins_handedIn {} .fresh located rfl rfl

/-- In a fresh tree, a file of the working directory can be written. -/
theorem openFile_fresh :
    FileTree.openFile .fresh ⟨.here, ["disk"]⟩ = .ok ["tmp", "work", "disk"] := by
  cbv

/-- A transfer and the file that it writes: the phase that it needs, its path, its
place in the file tree, and the phase that it leads to. -/
inductive Target (files : FileTree) : Step → Phase → Path → Place → Phase → Prop
  | scratch {directory : Path} {place : Place} (there : files.isDirectory directory = .ok true)
    (opened : files.openFile (stagingPath directory) = .ok place) :
    Target files (.transfer directory) .transferScratch (stagingPath directory) place .convert
  | file {path : Path} {place : Place} (opened : files.openFile path = .ok place) :
    Target files (.transferFile path) .transferDataFile path place .resize

theorem Target.opened {files : FileTree} {step : Step} {wanted next : Phase} {path : Path}
    {place : Place} (target : Target files step wanted path place next) :
    files.openFile path = .ok place := by
  cases target with
  | scratch there opened => exact opened
  | file opened => exact opened

/-- **A transfer pours what is left of the content into its target.** -/
theorem perform_transfer {intake : Intake} {files : FileTree} {step : Step} {wanted next : Phase}
    {path : Path} {place : Place} {content : Content} (cloud : Cloud)
    (target : Target files step wanted path place next) (phase : intake.phase = some wanted)
    (held : intake.holding = .held content) :
    let all := content.pour (sizeAsked intake.chunk)
    perform step ⟨intake, cloud, files⟩ =
      ofFiles cloud (intake.poured path next all (files.write place all.content.toList)) := by
  intro all
  have copied : streamToFile (Streams.reader _ (Fin.last content.count)) path intake.chunk
      (files, content.streams) =
        match all.fault with
        | some fault =>
          .error (.copy path.render fault) (files.write place all.content.toList, all.state)
        | none => .ok all.content.size (files.write place all.content.toList, all.state) :=
    streamToFile_eq _ target.opened intake.chunk content.streams
  cases target with
  | @scratch directory _ there opened =>
    have transferred : Intake.transfer directory (intake, files) =
        intake.poured (stagingPath directory) .convert all
          (files.write place all.content.toList) := by
      unfold Intake.transfer
      refine Intake.transferWith_eq phase held ?_
      simp only [streamToScratch, there, copied]
      cases all.fault <;> rfl
    rw [perform, some_onFiles, transferred]
  | file opened =>
    have transferred : Intake.transferFile path (intake, files) =
        intake.poured path .resize all (files.write place all.content.toList) := by
      unfold Intake.transferFile
      refine Intake.transferWith_eq phase held ?_
      simp only [Bind.bind, EStateM.bind, copied]
      cases all.fault <;> rfl
    rw [perform, some_onFiles, transferred]

end Session

end DiskStaging
