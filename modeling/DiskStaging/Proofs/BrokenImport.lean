import DiskStaging.Proofs.PlainImport

/-!
# Imports that break off

A source that breaks off never passes for a whole one (`Session.broken_import`). If it
does so in the header, `info` reports it; if it does so later, the transfer reports it,
and the file then holds exactly what came before, the bytes that `info` had looked at
included. So it is where somebody else closes the source in between: what was looked
at is still written. Of gzip data that break off, the file holds the front of what all
of them decode to.
-/

set_option autoImplicit false

namespace DiskStaging

/-! ## Sources of some data -/

namespace Source

/-- The source gives some data from their start on, in pieces of any size, unless
reading breaks off. -/
structure Carries (source : Source) (data : Bytes) : Prop where
  pieces : source.most ≠ some 0
  fresh : source.closes = 0
  start : source.position = 0
  rest : source.rest = data

variable {source : Source} {data : Bytes}

theorem Carries.remaining_eq (carries : source.Carries data) :
    source.remaining = atMost (source.failure.map (·.position)) data := by
  have opened : source.closed = false := by
    rw [closed, carries.fresh]
    rfl
  simp only [remaining, opened, Bool.false_eq_true, if_false, carries.start, carries.rest,
    Nat.sub_zero]

theorem Carries.whole_eq (carries : source.Carries data) :
    source.whole = source.failure.all fun failure => data.length < failure.position := by
  have opened : source.closed = false := by
    rw [closed, carries.fresh]
    rfl
  simp only [whole, opened, Bool.not_false, Bool.true_and, carries.start, carries.rest,
    Nat.zero_add]

theorem Carries.holds (carries : source.Carries data) :
    source.Holds source.whole source.remaining :=
  ⟨carries.pieces, rfl, rfl⟩

/-- Where reading breaks off, the source gives what comes before. -/
theorem Carries.holds_front (carries : source.Carries data) {position : Nat} {fault : Fault}
    (broken : source.failure = some ⟨position, fault⟩) (inside : position ≤ data.length) :
    source.Holds false (data.take position) := by
  refine ⟨carries.pieces, ?_, ?_⟩
  · rw [carries.whole_eq, broken]
    simpa using inside
  · rw [carries.remaining_eq, broken]
    rfl

/-- A source that breaks off behind the header gives the header. -/
theorem Carries.take_remaining (carries : source.Carries data) {size : Nat}
    (behind : ∀ failure ∈ source.failure, size ≤ failure.position) :
    source.remaining.take size = data.take size := by
  rw [carries.remaining_eq]
  cases broken : source.failure with
  | none => rfl
  | some failure =>
    have reached := behind failure broken
    exact (List.take_take ..).trans (by rw [Nat.min_eq_left reached])

/-- Only data that are shorter than the header may end in it. -/
theorem Carries.whole_of_short (carries : source.Carries data) {size : Nat}
    (behind : ∀ failure ∈ source.failure, size ≤ failure.position)
    (short : source.remaining.length < size) : source.whole = true := by
  rw [carries.remaining_eq] at short
  rw [carries.whole_eq]
  cases broken : source.failure with
  | none => rfl
  | some failure =>
    have reached := behind failure broken
    rw [broken] at short
    have cut : (data.take failure.position).length < size := short
    rw [List.length_take] at cut
    simp only [Option.all_some, decide_eq_true_eq]
    omega

/-- Closed, a source holds nothing, and that is not the whole. -/
theorem holds_close (pieces : source.most ≠ some 0) :
    (Ending.state (close source)).Holds false [] := by
  unfold close
  cases source.closeFault <;> exact ⟨pieces, rfl, rfl⟩

end Source

namespace Session

/-! ## Failures -/

/-- The import is in a phase, nothing counts as written, and the image is where it was. -/
structure Unmoved (after : Session) (phase : Phase) (url : Url) : Prop where
  phase : after.intake.phase = some phase
  written : after.intake.written = 0
  url : after.intake.url = url

/-- The ending of an operation that reports a failure. -/
def Failed (url : Url) : Ending Session (Option PhaseResult) → Prop
  | .ok result after => (∃ fault, result = some ⟨.error, some fault⟩) ∧ after.Unmoved .error url
  | .error _ _ => False

/-- The ending of a transfer that reports a failure and leaves bytes of some kind in
the file at a place. -/
def CutOff (url : Url) (files : FileTree) (place : Place) (kind : Bytes → Prop)
    (ending : Ending Session (Option PhaseResult)) : Prop :=
  Failed url ending ∧
    ∃ given, kind given ∧ FileTree.Written files (Ending.state ending).files place given

section Transferring

variable {intake : Intake} {cloud : Cloud} {files : FileTree} {step : Step} {wanted next : Phase}
  {path : Path} {place : Place} {content : Content} {bytes : Bytes} {url : Url}

/-- A transfer of content that breaks off reports that. -/
theorem perform_broken (cloud : Cloud) (target : Target files step wanted path place next)
    (phase : intake.phase = some wanted) (held : intake.holding = .held content) {fault : Fault}
    (broken : (content.pour (sizeAsked intake.chunk)).fault = some fault) :
    ∃ after, perform step ⟨intake, cloud, files⟩ =
      .ok (some ⟨.error, some (.copy path.render fault)⟩) after := by
  rw [perform_transfer cloud target phase held]
  simp only [ofFiles, Intake.poured, broken]
  exact ⟨_, rfl⟩

/-- A transfer of content that breaks off fails, and the file holds what came before. -/
theorem perform_cut (target : Target files step wanted path place next)
    (unmoved : Unmoved ⟨intake, cloud, files⟩ wanted url)
    (held : intake.holding = .held content) {fault : Fault}
    (broken : (content.pour (sizeAsked intake.chunk)).fault = some fault) {kind : Bytes → Prop}
    (left : kind (content.pour (sizeAsked intake.chunk)).content.toList) :
    CutOff url files place kind (perform step ⟨intake, cloud, files⟩) := by
  obtain ⟨phase, written, same⟩ := unmoved
  rw [perform_transfer cloud target phase held]
  simp only [ofFiles, Intake.poured, broken]
  refine ⟨⟨⟨_, rfl⟩, rfl, written, same⟩, _, left, ?_⟩
  exact FileTree.written_write (FileTree.place_ne_nil target.opened) _

/-- Of content that breaks off, the file holds the front. -/
theorem perform_gives (target : Target files step wanted path place next)
    (unmoved : Unmoved ⟨intake, cloud, files⟩ wanted url)
    (held : intake.holding = .held content) (gives : content.Gives false bytes)
    (chunk : intake.chunk ≠ some 0) :
    CutOff url files place (· <+: bytes) (perform step ⟨intake, cloud, files⟩) := by
  obtain ⟨front, complete⟩ := gives.pour (sizeAsked_ne_zero chunk)
  cases broken : (content.pour (sizeAsked intake.chunk)).fault with
  | none => exact absurd (complete broken).2 Bool.false_ne_true
  | some fault => exact perform_cut target unmoved held broken front

/-- Of steady content that breaks off, the file holds all that it gives. -/
theorem perform_givesAll (target : Target files step wanted path place next)
    (unmoved : Unmoved ⟨intake, cloud, files⟩ wanted url)
    (held : intake.holding = .held content) (gives : content.GivesAll false bytes) {limit : Int}
    (chunk : intake.chunk = some limit) (positive : 0 < limit) :
    CutOff url files place (· = bytes) (perform step ⟨intake, cloud, files⟩) := by
  have asked : sizeAsked intake.chunk = some limit.toNat := by
    rw [chunk, sizeAsked, if_neg (by omega)]
  obtain ⟨all, complete⟩ := gives.pour (show 0 < limit.toNat by omega)
  rw [← asked] at all complete
  cases broken : (content.pour (sizeAsked intake.chunk)).fault with
  | none => exact absurd (complete.mp broken) Bool.false_ne_true
  | some fault => exact perform_cut target unmoved held broken all

end Transferring

/-! ## Breaking off -/

section Breaking

variable {settings : IntakeSettings} {session : Session} {source : Source} {data : Bytes}

/-- Where reading breaks off in the header, `info` reports it. -/
theorem info_broken (begins : session.Begins settings source) {bytes : Bytes}
    (arrives : source.Holds false bytes) (plain : Image.compression? bytes = none)
    (short : bytes.length < 512) :
    Failed session.intake.location.url (perform .info session) ∧
      (Ending.state (perform .info session)).files = session.files := by
  obtain ⟨-, -, url, written, -⟩ := begins.fresh
  obtain ⟨cloud, info⟩ := begins.info
  have classified := sniff_plain arrives plain
  rw [info]
  cases sniffed : sniff sniffSize (.ofSource source) with
  | error fault content => exact ⟨⟨⟨_, rfl⟩, rfl, written, url⟩, rfl⟩
  | ok found content =>
    rw [sniffed] at classified
    exact absurd (classified.1 short) Bool.false_ne_true

/-- Where reading breaks off behind the header, `info` finds the format, and the
content begins with what it has looked at. -/
theorem info_ready (begins : session.Begins settings source) (carries : source.Carries data)
    (plain : ∀ compression, ¬ Image.compressionMagic compression <+: data)
    (behind : ∀ failure ∈ source.failure, 512 ≤ failure.position) {format : ImageFormat}
    (found : Image.format data = .ok format) :
    ∃ left front cloud,
      perform .info session = .ok (some ⟨Intake.nextPhase format, none⟩)
        ⟨{ session.intake with
            holding := .held ⟨.root left front⟩
            format := some format
            compression := none
            phase := some (Intake.nextPhase format) }, cloud, session.files⟩ ∧
      Lookahead.Holds (Source.Holds source.whole) (front, left) source.remaining ∧
        front.peeked = data.take 512 := by
  obtain ⟨cloud, info⟩ := begins.info
  have header := carries.take_remaining behind
  have same : Image.format source.remaining = .ok format := by
    rw [← Image.format_take (by decide : qcow2HeaderSize ≤ 512), header,
      Image.format_take (by decide), found]
  have uncompressed : Image.compression? source.remaining = none := by
    rw [← Image.compression?_take (by decide : 6 ≤ 512), header,
      Image.compression?_take (by decide)]
    exact Image.compression?_eq_none.mpr plain
  have classified := sniff_plain carries.holds uncompressed
  rw [info]
  cases told : sniff sniffSize (.ofSource source) with
  | error fault content =>
    rw [told] at classified
    rcases classified with ⟨short, broken⟩ | ⟨why, faulty, -⟩
    · rw [carries.whole_of_short behind short] at broken
      cases broken
    · rw [faulty] at same
      cases same
  | ok sniffed content =>
    rw [told] at classified
    obtain ⟨-, known, none, left, front, rfl, held, stock⟩ := classified
    obtain ⟨kind, compression⟩ := sniffed
    obtain rfl : compression = .none := none
    rw [known] at same
    cases same
    exact ⟨left, front, cloud, rfl, held, stock.trans header⟩

/-- `info` reports a failure and touches no file. -/
def FailsAtOnce (session : Session) : Prop :=
  Failed session.intake.location.url (perform .info session) ∧
    (Ending.state (perform .info session)).files = session.files

/-- `info` leads to a transfer. After what is done to the intake in between, the
transfer fails, whatever its target, and leaves bytes of some kind there. -/
def FailsLater (session : Session) (format : ImageFormat) (between : Intake → Intake)
    (kind : Bytes → Prop) : Prop :=
  ∃ after, perform .info session = .ok (some ⟨Intake.nextPhase format, none⟩) after ∧
    after.Unmoved (Intake.nextPhase format) session.intake.location.url ∧
      after.files = session.files ∧
        ∀ files step path place next,
          Target files step (Intake.nextPhase format) path place next →
            CutOff session.intake.location.url files place kind
              (perform step ⟨between after.intake, after.cloud, files⟩)

/-- A source of an image that is not compressed breaks off behind the header. -/
theorem failsLater_plain (begins : session.Begins settings source) (carries : source.Carries data)
    (plain : ∀ compression, ¬ Image.compressionMagic compression <+: data) {position : Nat}
    {fault : Fault} (broken : source.failure = some ⟨position, fault⟩)
    (inside : position ≤ data.length) (behind : 512 ≤ position) {limit : Int}
    (chunk : settings.chunk = some limit) (positive : 0 < limit) {format : ImageFormat}
    (found : Image.format data = .ok format) :
    FailsLater session format id (· = data.take position) := by
  obtain ⟨-, -, url, written, asked⟩ := begins.fresh
  have reached : ∀ failure ∈ source.failure, 512 ≤ failure.position := by
    intro failure there
    rw [broken] at there
    cases there
    exact behind
  obtain ⟨left, front, cloud, info, held, -⟩ := info_ready begins carries plain reached found
  obtain ⟨-, whole, remaining⟩ := carries.holds_front broken inside
  rw [whole, remaining] at held
  refine ⟨_, info, ⟨rfl, written, url⟩, rfl, ?_⟩
  intro files step path place next target
  exact perform_givesAll target ⟨rfl, written, url⟩ rfl (Content.givesAll_root held)
    (asked.trans chunk) positive

/-- Somebody else closes the source of an image that is not compressed. -/
theorem failsLater_closed (begins : session.Begins settings source) (carries : source.Carries data)
    (plain : ∀ compression, ¬ Image.compressionMagic compression <+: data)
    (behind : ∀ failure ∈ source.failure, 512 ≤ failure.position) {limit : Int}
    (chunk : settings.chunk = some limit) (positive : 0 < limit) {format : ImageFormat}
    (found : Image.format data = .ok format) :
    FailsLater session format (fun intake => Ending.state (Intake.closeSource intake))
      (· = data.take 512) := by
  obtain ⟨-, -, url, written, asked⟩ := begins.fresh
  obtain ⟨left, front, cloud, info, held, stock⟩ := info_ready begins carries plain behind found
  obtain ⟨opened, rest, -, pieces, -⟩ := held
  have shut : Lookahead.Holds (Source.Holds false) (front, Ending.state (Source.close left))
      (data.take 512) :=
    ⟨opened, [], by rw [stock, List.append_nil], Source.holds_close pieces⟩
  refine ⟨_, info, ⟨rfl, written, url⟩, rfl, ?_⟩
  intro files step path place next target
  have turned (intake : Intake) (same : intake.holding = .held ⟨.root left front⟩) :
      Ending.state (Intake.closeSource intake) =
        { intake with holding := .held ⟨.root (Ending.state (Source.close left)) front⟩ } := by
    simp only [Intake.closeSource, same, Content.closeSource, Streams.onSource]
    cases Source.close left <;> rfl
  dsimp only
  rw [turned _ rfl]
  exact perform_givesAll target ⟨rfl, written, url⟩ rfl (Content.givesAll_root shut)
    (asked.trans chunk) positive

/-- A source that cannot be classified fails at once. -/
theorem failsAtOnce_of_sniff (begins : session.Begins settings source) {fault : Fault}
    {content : Content} (told : sniff sniffSize (.ofSource source) = .error fault content) :
    FailsAtOnce session := by
  obtain ⟨-, -, url, written, -⟩ := begins.fresh
  obtain ⟨cloud, info⟩ := begins.info
  rw [told] at info
  rw [FailsAtOnce, info]
  exact ⟨⟨⟨_, rfl⟩, rfl, written, url⟩, rfl⟩

/-- A session is ready for a transfer, but of an image whose end is missing. -/
structure Awaits (session : Session) (wanted : Phase) (url : Url) (image : Bytes) : Prop where
  unmoved : session.Unmoved wanted url
  held : ∃ content, session.intake.holding = .held content ∧ content.Gives false image
  chunk : session.intake.chunk ≠ some 0

/-- Whether compressed data are complete does not show before the transfer, unless
classifying them gets that far. -/
theorem info_awaits (begins : session.Begins settings source) {compression : Compression}
    {image : Bytes} (chunk : settings.chunk ≠ some 0)
    (unpacked : Unpacked 512 compression false image (sniff sniffSize (.ofSource source))) :
    FailsAtOnce session ∨
      ∃ format after, perform .info session = .ok (some ⟨Intake.nextPhase format, none⟩) after ∧
        after.Awaits (Intake.nextPhase format) session.intake.location.url image ∧
          after.files = session.files := by
  obtain ⟨-, -, url, written, asked⟩ := begins.fresh
  obtain ⟨cloud, info⟩ := begins.info
  cases told : sniff sniffSize (.ofSource source) with
  | error fault content => exact .inl (failsAtOnce_of_sniff begins told)
  | ok found content =>
    rw [told] at info unpacked
    obtain ⟨-, -, gives, -⟩ := unpacked
    exact .inr ⟨found.format, _, info,
      ⟨⟨rfl, written, url⟩, ⟨content, rfl, gives⟩, by rwa [asked]⟩, rfl⟩

/-- Compressed data that are not complete fail at once or in the transfer. -/
theorem fails_of_sniff (begins : session.Begins settings source) {compression : Compression}
    {image : Bytes} (chunk : settings.chunk ≠ some 0)
    (unpacked : Unpacked 512 compression false image (sniff sniffSize (.ofSource source))) :
    FailsAtOnce session ∨ ∃ format, FailsLater session format id (· <+: image) := by
  rcases info_awaits begins chunk unpacked with failed | ⟨format, after, info, awaits, files⟩
  · exact .inl failed
  · obtain ⟨unmoved, ⟨content, held, gives⟩, positive⟩ := awaits
    refine .inr ⟨format, after, info, unmoved, files, ?_⟩
    intro files step path place next target
    exact perform_gives target ⟨unmoved.phase, unmoved.written, unmoved.url⟩ held gives positive

/-- A source of gzip data breaks off. -/
theorem fails_gzip (begins : session.Begins settings source) (carries : source.Carries data)
    {position : Nat} {fault : Fault} (broken : source.failure = some ⟨position, fault⟩)
    (inside : position ≤ data.length) (magic : Image.compressionMagic .gzip <+: data)
    (chunk : settings.chunk ≠ some 0) :
    FailsAtOnce session ∨
      ∃ format, FailsLater session format id (· <+: (Gzip.contents data).given) := by
  have front : ∃ less, source.Holds false less ∧ less <+: data :=
    ⟨_, carries.holds_front broken inside, List.take_prefix position data⟩
  have unpacked := sniff_gzip (Source.serves false).loosen front magic
  rw [Bool.and_false] at unpacked
  exact fails_of_sniff begins chunk unpacked

/-- **A source that breaks off never passes for a whole one.** If it breaks off in the
header, `info` fails and touches no file. If it does so later, and the header is good,
the transfer fails and the file holds exactly what came before. If the source is closed
before the transfer, the file holds what `info` has looked at. And if it gives gzip data
that decode to an image, `info` or the transfer fails, and the file holds the front of
that image. In place of a file there may be a device that forgets what is written to it
(`FileTree.Written`).

That gzip data do not break off by an interruption is assumed although no step needs it: what
buffers these data would then read again, and such a second try is not modelled. -/
theorem broken_import (begins : session.Begins settings source) (carries : source.Carries data) :
    (∀ position fault limit, source.failure = some ⟨position, fault⟩ → position ≤ data.length →
      (∀ compression, ¬ Image.compressionMagic compression <+: data) →
        settings.chunk = some limit → 0 < limit →
          (position < 512 → FailsAtOnce session) ∧
            (512 ≤ position → ∀ format, Image.format data = .ok format →
              FailsLater session format id (· = data.take position))) ∧
    (∀ format limit, (∀ failure ∈ source.failure, 512 ≤ failure.position) →
      (∀ compression, ¬ Image.compressionMagic compression <+: data) →
        settings.chunk = some limit → 0 < limit → Image.format data = .ok format →
          FailsLater session format (fun intake => Ending.state (Intake.closeSource intake))
            (· = data.take (min 512 data.length))) ∧
    (∀ position fault image, source.failure = some ⟨position, fault⟩ → position ≤ data.length →
      fault.kind ≠ .interrupted → Image.compressionMagic .gzip <+: data →
        Gzip.contents data = ⟨image, true⟩ → settings.chunk ≠ some 0 →
          FailsAtOnce session ∨ ∃ format, FailsLater session format id (· <+: image)) := by
  refine ⟨?_, ?_, ?_⟩
  · intro position fault limit broken inside plain chunk positive
    refine ⟨?_, ?_⟩
    · intro early
      have short : (data.take position).length < 512 := by
        rw [List.length_take]
        omega
      refine info_broken begins (carries.holds_front broken inside) ?_ short
      refine Image.compression?_eq_none.mpr fun compression leading => ?_
      exact plain compression (leading.trans (List.take_prefix position data))
    · intro late format found
      exact failsLater_plain begins carries plain broken inside late chunk positive found
  · intro format limit behind plain chunk positive found
    have same : data.take (min 512 data.length) = data.take 512 := by
      rw [List.take_eq_take_iff]
      omega
    rw [same]
    exact failsLater_closed begins carries plain behind chunk positive found
  · intro position fault image broken inside _ magic decoded chunk
    have fails := fails_gzip begins carries broken inside magic chunk
    rwa [decoded] at fails

end Breaking

/-- A source that times out at a position. -/
def slow (data : Bytes) (position : Nat) : Source where
  rest := data
  failure := some ⟨position, .foreign .timeout "The read operation timed out"⟩

/-- Raw data that break off behind the header or whose source is closed, and gzip data
that break off behind the last byte. -/
theorem broken_import_raw_and_gzip :
    FailsLater (beginning (slow (List.replicate 600 7) 520) (some 64)) .raw id
      (· = (List.replicate 600 7).take 520) ∧
    FailsLater (beginning { rest := [1, 2, 3] } (some 64)) .raw
      (fun intake => Ending.state (Intake.closeSource intake)) (· = [1, 2, 3]) ∧
    (FailsAtOnce (beginning (slow storedLetter 24) none) ∨
      ∃ format, FailsLater (beginning (slow storedLetter 24) none) format id (· <+: [0x41])) := by
  refine ⟨?_, ?_, ?_⟩
  · have carries : (slow (List.replicate 600 7) 520).Carries (List.replicate 600 7) :=
      ⟨by decide, rfl, rfl, rfl⟩
    have plain := (broken_import (begins_beginning _ (some 64)) carries).1 520 _ 64 rfl
    refine (plain ?_ (fun compression => by cases compression <;> decide) rfl (by decide)).2
      (by decide) .raw (by decide +kernel)
    rw [List.length_replicate]
    decide
  · have closing := (broken_import (begins_beginning { rest := [1, 2, 3] } (some 64))
      ⟨by decide, rfl, rfl, rfl⟩).2.1
    exact closing .raw 64 (by simp) (fun compression => by cases compression <;> decide) rfl
      (by decide) (by decide +kernel)
  · have gzip := (broken_import (begins_beginning (slow storedLetter 24) none)
      ⟨by decide, rfl, rfl, rfl⟩).2.2
    exact gzip 24 _ [0x41] rfl (by decide) (by decide) (by decide) (by decide +kernel) (by decide)

end Session

end DiskStaging
