import DiskStaging.Proofs.Conservation
import DiskStaging.Proofs.ImageHeaders
import DiskStaging.Proofs.TransferOutcomes

/-!
# What successful transfers cover

The header bytes that made an image pass are still kept in front of the content when the
transfer begins (`sniff_keeps_header`), and whoever pours content gets all that is kept in
front (`Reader.Releases.pour`). So a transfer that goes on has written at least the header
(`Session.covered_of_ran`).

There are two exceptions. With chunks of no bytes, the first chunk passes for the end, and
nothing is written. And a transfer that raises because the path of its file is no URL has
taken everything; one that is called after it finds what is left.
-/

set_option autoImplicit false

namespace DiskStaging

/-! ## What is kept in front -/

section Keeping

variable {σ : Type} {below : Reader σ}

/-- What is shown stays in front. -/
theorem Lookahead.peek_shows {size : Option Int} {front : Lookahead} {state : σ} {shown : Bytes}
    {after : Lookahead × σ} (peeked : Lookahead.peek below size (front, state) = .ok shown after) :
    shown <+: after.1.peeked := by
  unfold peek at peeked
  dsimp only at peeked
  split at peeked
  · cases peeked
  · split at peeked
    · cases peeked
    · rename_i size
      cases filled : fill below size.toNat front state with
      | error fault after =>
        rw [filled] at peeked
        cases peeked
      | ok _ after =>
        rw [filled] at peeked
        cases peeked
        exact prefix_upTo size _

/-- The front of the newest stream. -/
def Streams.front : {count : Nat} → Streams count → Lookahead
  | _, .root _ front => front
  | _, .atop _ _ front _ => front

/-- The front of some content. -/
def Content.front (content : Content) : Lookahead := content.streams.front

theorem Content.peek_shows {size : Option Int} {content after : Content} {shown : Bytes}
    (peeked : Content.peek size content = .ok shown after) : shown <+: after.front.peeked := by
  obtain ⟨streams⟩ := content
  cases streams with
  | root source front =>
    rw [show (Content.mk (.root source front)) = ⟨Streams.ofRoot (front, source)⟩ from rfl,
      peek_root] at peeked
    cases looked : Lookahead.peek Source.reader size (front, source) with
    | error fault left =>
      rw [looked] at peeked
      cases peeked
    | ok given left =>
      rw [looked] at peeked
      cases peeked
      exact Lookahead.peek_shows looked
  | atop below unpacker front older =>
    rw [show (Content.mk (.atop below unpacker front older)) =
      ⟨Streams.ofNewest below (front, unpacker, older)⟩ from rfl, peek_newest] at peeked
    cases looked : Lookahead.peek (Unpacker.reader (Streams.reader _ below)) size
      (front, unpacker, older) with
    | error fault left =>
      rw [looked] at peeked
      cases peeked
    | ok given left =>
      rw [looked] at peeked
      cases peeked
      exact Lookahead.peek_shows looked

theorem header_shows {size : Int} {content after : Content} {leading : Bytes}
    (looked : header size content = .ok leading after) : leading <+: after.front.peeked := by
  unfold header at looked
  split at looked
  · cases looked
  · exact Content.peek_shows looked

theorem classify_keeps_header {compression : Option Compression} {leading : Bytes}
    {content after : Content} {found : Sniffed} (shown : leading <+: content.front.peeked)
    (classified : classify compression leading content = .ok found after) :
    found.format.headerSize ≤ after.front.peeked.length := by
  unfold classify at classified
  cases passed : Image.format leading with
  | error why =>
    rw [passed] at classified
    cases classified
  | ok format =>
    rw [passed] at classified
    cases classified
    exact (Image.headerSize_le passed).trans shown.length_le

/-- Content that was classified keeps the header that made it pass. -/
theorem sniff_keeps_header {size : Int} {content after : Content} {found : Sniffed}
    (sniffed : sniff size content = .ok found after) :
    found.format.headerSize ≤ after.front.peeked.length := by
  rw [sniff_eq] at sniffed
  cases looked : header size content with
  | error fault left =>
    rw [looked] at sniffed
    cases sniffed
  | ok leading left =>
    rw [looked] at sniffed
    dsimp only at sniffed
    split at sniffed
    · exact classify_keeps_header (header_shows looked) sniffed
    · rename_i compression packed
      cases again : header size ⟨left.streams.unpack compression (Fin.last _)⟩ with
      | error fault left =>
        rw [again] at sniffed
        cases sniffed
      | ok leading left =>
        rw [again] at sniffed
        exact classify_keeps_header (header_shows again) sniffed

end Keeping

/-! ## Pouring what is kept -/

namespace Reader

variable {σ : Type} {reader : Reader σ}

/-- What is kept is given out by reads, and by nothing else, before they find the end. -/
def Releases (reader : Reader σ) (kept : σ → Nat) : Prop :=
  ∀ (size : Option Nat) (state : σ) (given : Bytes) (after : σ), size ≠ some 0 →
    reader.read size state = .ok given after →
      kept state ≤ given.length + kept after ∧ (given = [] → kept state = 0)

/-- **Whoever reads until nothing comes gets what is kept.** -/
theorem Releases.pour {kept : σ → Nat} (releases : reader.Releases kept) {size : Option Nat}
    (asked : size ≠ some 0) (gathered : Array UInt8) (state : σ)
    (whole : (reader.pour size gathered state).fault = none) :
    gathered.size + kept state ≤ (reader.pour size gathered state).content.size := by
  fun_induction Reader.pour reader size gathered state with
  | case1 gathered state fault after read => cases whole
  | case2 gathered state after read =>
    have none := (releases _ _ _ _ asked read).2 rfl
    dsimp only
    omega
  | case3 gathered state byte more after read ih =>
    have less := (releases _ _ _ _ asked read).1
    have rest := ih whole
    rw [size_append] at rest
    omega

end Reader

theorem Lookahead.releases {σ : Type} (below : Reader σ) :
    (Lookahead.reader below).Releases fun state => state.1.peeked.length := by
  rintro size ⟨front, state⟩ given after asked read
  change Lookahead.read below size (front, state) = .ok given after at read
  unfold Lookahead.read at read
  dsimp only at read ⊢
  split at read
  · cases read
  · split at read
    · rename_i count byte more kept
      cases read
      rw [kept, List.length_take, List.length_drop]
      have positive : 0 < count := Nat.pos_of_ne_zero fun zero => asked (by rw [zero])
      refine ⟨by omega, fun nothing => ?_⟩
      rcases List.take_eq_nil_iff.mp nothing with zero | nothing
      · exact absurd zero (Nat.ne_of_gt positive)
      · cases nothing
    · split at read
      · cases read
      · cases read
        rw [List.length_append]
        refine ⟨by omega, fun nothing => ?_⟩
        rw [(List.append_eq_nil_iff.mp nothing).1, List.length_nil]

/-- A read of no bytes takes none while some are kept. -/
theorem Lookahead.read_none {σ : Type} (below : Reader σ) {front : Lookahead} (state : σ)
    (kept : front.peeked ≠ []) :
    Lookahead.read below (some 0) (front, state) =
      if front.closed then .error .streamClosed (front, state) else .ok [] (front, state) := by
  obtain ⟨byte, more, shape⟩ := List.exists_cons_of_ne_nil kept
  obtain ⟨peeked, closed⟩ := front
  cases shape
  rfl

namespace Streams

/-- The newest stream releases what is kept in front of it. -/
theorem releases (count : Nat) :
    (reader count (Fin.last count)).Releases fun streams => streams.front.peeked.length := by
  cases count with
  | zero =>
    rintro size ⟨source, front⟩ given after asked read
    change Ending.inside ofRoot (Lookahead.read Source.reader size (front, source)) =
      .ok given after at read
    cases ended : Lookahead.read Source.reader size (front, source) with
    | error fault left =>
      rw [ended] at read
      cases read
    | ok more left =>
      rw [ended] at read
      cases read
      exact Lookahead.releases Source.reader size (front, source) given left asked ended
  | succ count =>
    intro size streams given after asked read
    cases streams with
    | atop below unpacker front older =>
      have newest : ¬ (Fin.last (count + 1)).val < count + 1 := Nat.lt_irrefl _
      simp only [reader, dif_neg newest, newestReader] at read
      cases ended : Lookahead.read (Unpacker.reader (reader count below)) size
        (front, unpacker, older) with
      | error fault left =>
        rw [ended] at read
        cases read
      | ok more left =>
        rw [ended] at read
        cases read
        exact Lookahead.releases (Unpacker.reader (reader count below)) size
          (front, unpacker, older) given left asked ended

/-- A read of no bytes changes nothing while some are kept. -/
theorem read_none {count : Nat} (streams : Streams count) (kept : streams.front.peeked ≠ []) :
    (reader count (Fin.last count)).read (some 0) streams =
      if streams.front.closed then .error .streamClosed streams else .ok [] streams := by
  cases streams with
  | root source front =>
    have kept : front.peeked ≠ [] := kept
    change Ending.inside ofRoot (Lookahead.read Source.reader (some 0) (front, source)) = _
    rw [Lookahead.read_none Source.reader source kept, apply_ite (Ending.inside ofRoot)]
    rfl
  | @atop count below unpacker front older =>
    have kept : front.peeked ≠ [] := kept
    have newest : ¬ (Fin.last (count + 1)).val < count + 1 := Nat.lt_irrefl _
    simp only [reader, dif_neg newest, newestReader]
    rw [Lookahead.read_none (Unpacker.reader (reader count below)) (unpacker, older) kept,
      apply_ite (Ending.inside (ofNewest below))]
    rfl

end Streams

namespace Content

/-- Pouring content gives all that is kept in front of it. -/
theorem kept_le_pour {content : Content} {size : Option Nat} (asked : size ≠ some 0)
    (whole : (content.pour size).fault = none) :
    content.front.peeked.length ≤ (content.pour size).content.size := by
  have given := (Streams.releases content.count).pour asked #[] content.streams whole
  rw [Array.size_empty, Nat.zero_add] at given
  exact given

/-- Pouring content in pieces of no bytes gives nothing while some bytes are kept in front, and
leaves them there. -/
theorem pour_none {content : Content} (kept : content.front.peeked ≠ []) :
    (content.pour (some 0)).content.size = 0 ∧
      (content.pour (some 0)).state = content.streams := by
  have read := Streams.read_none content.streams kept
  unfold Content.pour Reader.pour
  split
  · rename_i fault after ended
    rw [read] at ended
    split at ended
    · cases ended
      exact ⟨rfl, rfl⟩
    · cases ended
  · rename_i after ended
    rw [read] at ended
    split at ended
    · cases ended
    · cases ended
      exact ⟨rfl, rfl⟩
  · rename_i byte more after ended
    rw [read] at ended
    split at ended <;> cases ended

end Content

/-! ## Runs -/

/-- What is kept in front of the content, if any is held. -/
def Holding.front? : Holding → Option Lookahead
  | .held content => some content.front
  | _ => none

theorem Holding.held_of_front? {holding : Holding} {front : Lookahead}
    (kept : holding.front? = some front) :
    ∃ content, holding = .held content ∧ content.front = front := by
  cases holding with
  | nothing => cases kept
  | held content => exact ⟨content, rfl, Option.some_inj.mp kept⟩
  | released source => cases kept

namespace Session

/-- Whether a transfer raised that the path of its file is no URL. -/
def raisesUrl : Ending Session (Option PhaseResult) → Bool
  | .error (.url _) _ => true
  | _ => false

/-- What an intake that was set up comes to through calls, and whether a transfer raised on
the way that the path of its file is no URL. Between calls, the cloud, the files and the source
may do anything, but what is kept in front of the content stays. -/
inductive Ran (settings : IntakeSettings) : Bool → Session → Prop
  | created {before cloud : Cloud} {intake : Intake} (files : FileTree)
    (created : Intake.create settings before = .ok intake cloud) :
    Ran settings false ⟨intake, cloud, files⟩
  | called {lost : Bool} {session : Session} (ran : Ran settings lost session) (step : Step) :
    Ran settings (lost || raisesUrl (perform step session)) (session.after step)
  | elsewhere {lost : Bool} {session : Session} (ran : Ran settings lost session) (cloud : Cloud)
    (files : FileTree) {holding : Holding} (akin : session.intake.holding.Akin holding)
    (same : holding.front? = session.intake.holding.front?) :
    Ran settings lost ⟨{ session.intake with holding }, cloud, files⟩

/-- The header that made an image pass is kept until it is transferred, and was written
then. -/
structure Covers (settings : IntakeSettings) (lost : Bool) (session : Session) : Prop where
  chunk : session.intake.chunk = settings.chunk
  /-- The header is kept, unless a transfer has taken it and raised. -/
  ahead : ∀ front, session.intake.holding.front? = some front →
    session.intake.phase = some .transferScratch ∨ session.intake.phase = some .transferDataFile →
      ∃ format, session.intake.format = some format ∧
        (lost = false ∨ settings.chunk = some 0 → format.headerSize ≤ front.peeked.length)
  /-- The header was written, unless it was taken before or nothing was. -/
  covered : session.intake.phase = some .convert ∨ session.intake.phase = some .resize →
    ∃ format, session.intake.format = some format ∧
      (settings.chunk = some 0 → session.intake.written = 0) ∧
        (settings.chunk ≠ some 0 → lost = false → format.headerSize ≤ session.intake.written)

section Runs

variable {settings : IntakeSettings} {lost : Bool} {session after : Session} {step : Step}
  {wanted next : Phase}

/-- An image that passed was classified, and what was looked at is kept. -/
theorem sniffed_of_ok (passed : perform .info session = .ok (some ⟨next, none⟩) after) :
    ∃ content found left, sniff sniffSize content = .ok found left ∧
      after.intake.holding = .held left ∧ after.intake.format = some found.format := by
  have does := perform_does session .info
  rw [passed] at does
  obtain ⟨intake, cloud, files⟩ := session
  obtain ⟨idle, usable⟩ : intake.phase = none ∧ intake.closed = false := by
    cases does with
    | opened idle usable => exact ⟨idle, usable⟩
    | closed closes _ _ _ => rcases closes with closes | closes <;> cases closes
    | done phases _ _ => cases phases
  cases ready : intake.openContent cloud with
  | error fault left =>
    rw [info_unopened files idle usable ready] at passed
    cases passed
  | ok content left =>
    rw [info_eq files idle usable ready] at passed
    cases sniffed : sniff sniffSize content with
    | error fault kept =>
      rw [sniffed] at passed
      cases passed
    | ok found kept =>
      rw [sniffed] at passed
      cases passed
      exact ⟨content, found, kept, sniffed, rfl, rfl⟩

theorem covers_error (chunk : session.intake.chunk = settings.chunk)
    (phase : session.intake.phase = some .error) : Covers settings lost session := by
  refine ⟨chunk, fun front kept early => ?_, fun late => ?_⟩
  · rw [phase] at early
    simp at early
  · rw [phase] at late
    simp at late

/-- Less is known after a transfer raised. -/
theorem Covers.weaken (covers : Covers settings lost session) (more : Bool) :
    Covers settings (lost || more) session := by
  refine ⟨covers.chunk, fun front kept early => ?_, fun late => ?_⟩
  · obtain ⟨format, known, enough⟩ := covers.ahead front kept early
    refine ⟨format, known, fun least => enough ?_⟩
    exact least.imp_left fun none => (Bool.or_eq_false_iff.mp none).1
  · obtain ⟨format, known, nothing, enough⟩ := covers.covered late
    exact ⟨format, known, nothing, fun chunk none =>
      enough chunk (Bool.or_eq_false_iff.mp none).1⟩

/-- What a transfer finds in front of its content. -/
theorem Covers.kept (covers : Covers settings lost session) {content : Content}
    (phases : step.phases? = some (wanted, next)) (phase : session.intake.phase = some wanted)
    (held : session.intake.holding = .held content) :
    ∃ format, session.intake.format = some format ∧
      (lost = false ∨ settings.chunk = some 0 →
        format.headerSize ≤ content.front.peeked.length) := by
  have front : session.intake.holding.front? = some content.front := by rw [held]; rfl
  refine covers.ahead content.front front ?_
  rcases Step.cases_of_phases phases with ⟨_, -, rfl, -⟩ | ⟨_, -, rfl, -⟩
  · exact .inl phase
  · exact .inr phase

/-- While a header is kept in front of content, pouring it in pieces of no bytes does nothing. -/
theorem pour_of_kept {content : Content} {format : ImageFormat}
    (enough : format.headerSize ≤ content.front.peeked.length) :
    (content.pour (some 0)).content.size = 0 ∧
      (content.pour (some 0)).state = content.streams := by
  apply Content.pour_none
  intro none
  rw [none] at enough
  exact absurd enough (Nat.not_le_of_gt format.headerSize_pos)

/-- A transfer that goes on writes the header that is kept. -/
theorem Covers.goesOn {path : Path} {content : Content} (covers : Covers settings lost session)
    (phases : step.phases? = some (wanted, next))
    (went : GoesOn session step wanted next path content after)
    (phase : after.intake.phase = some next) (chunk : after.intake.chunk = session.intake.chunk)
    (format : after.intake.format = session.intake.format) : Covers settings lost after := by
  obtain ⟨found, known, enough⟩ := covers.kept phases went.phase went.held
  have whole := went.whole
  have written := went.written
  rw [covers.chunk] at chunk whole written
  refine ⟨chunk, fun front kept early => ?_, fun _ => ⟨found, format.trans known, ?_, ?_⟩⟩
  · rw [phase] at early
    rcases Step.cases_of_phases phases with ⟨_, -, -, rfl⟩ | ⟨_, -, -, rfl⟩ <;> simp at early
  · intro nothing
    rw [nothing] at written
    exact written.trans (pour_of_kept (enough (.inr nothing))).1
  · intro some fresh
    rw [written]
    exact (enough (.inl fresh)).trans (Content.kept_le_pour (sizeAsked_ne_zero some) whole)

/-- A transfer that raises has taken nothing, or raises that its path is no URL. -/
theorem Covers.raises {fault : Fault} (covers : Covers settings lost session)
    (phases : step.phases? = some (wanted, next)) (phase : session.intake.phase = some wanted)
    (raises : Raises session step wanted next fault after) :
    Covers settings (lost || raisesUrl (.error fault after)) after := by
  cases raises with
  | longName transfer held long => exact covers.weaken _
  | @noUrl path place content why all target held poured whole unreadable =>
    obtain ⟨format, known, enough⟩ := covers.kept phases phase held
    refine ⟨covers.chunk, fun front kept early => ⟨format, known, fun least => ?_⟩, fun late => ?_⟩
    · cases kept
      have nothing : settings.chunk = some 0 := by
        refine least.resolve_left fun none => ?_
        cases (Bool.or_eq_false_iff.mp none).2
      have same := (pour_of_kept (enough (.inr nothing))).2
      rw [covers.chunk, nothing] at poured
      rw [← poured]
      exact same ▸ enough (.inr nothing)
    · rw [phase] at late
      rcases Step.cases_of_phases phases with ⟨_, -, rfl, -⟩ | ⟨_, -, rfl, -⟩ <;> simp at late

/-- **Every call keeps the header or writes it.** -/
theorem Covers.called (covers : Covers settings lost session) (step : Step) :
    Covers settings (lost || raisesUrl (perform step session)) (session.after step) := by
  have does := perform_does session step
  unfold after
  generalize performed : perform step session = ending at does ⊢
  cases does with
  | refused misplaced kind => exact covers.weaken _
  | entered => exact covers.weaken _
  | closed closes gone kept ended =>
    rw [ended]
    refine ⟨covers.chunk, fun front kept early => ?_, (covers.weaken _).covered⟩
    obtain ⟨content, held, -⟩ := Holding.held_of_front? kept
    exact absurd ⟨content, held⟩ gone
  | notOpened idle usable => exact covers_error covers.chunk rfl
  | @opened format compression content cloud idle usable =>
    obtain ⟨before, found, left, sniffed, held, known⟩ := sniffed_of_ok performed
    cases held
    refine ⟨covers.chunk, fun front kept early => ?_, fun late => ?_⟩
    · cases kept
      exact ⟨found.format, known, fun _ => sniff_keeps_header sniffed⟩
    · rcases Intake.nextPhase_cases format with ⟨-, next⟩ | ⟨-, next⟩
      · rw [Ending.state, next] at late
        simp at late
      · rw [Ending.state, next] at late
        simp at late
  | lost phases phase gone => exact covers_error covers.chunk rfl
  | failed phases phase held => exact covers_error covers.chunk rfl
  | raised phases phase held =>
    exact covers.raises phases phase (raises_of_error phases phase performed)
  | done phases phase held =>
    obtain ⟨path, content, went⟩ := goesOn_of_done phases performed
    exact (covers.goesOn phases went rfl rfl rfl).weaken false

theorem covers_of_ran (ran : Ran settings lost session) : Covers settings lost session := by
  induction ran with
  | created files created =>
    obtain ⟨location, client, -, rfl⟩ := Intake.create_eq created
    refine ⟨rfl, fun front kept early => ?_, fun late => ?_⟩
    · rcases early with early | early <;> cases early
    · rcases late with late | late <;> cases late
  | called ran step covers => exact covers.called step
  | elsewhere ran cloud files akin same covers =>
    refine ⟨covers.chunk, fun front kept early => ?_, covers.covered⟩
    exact covers.ahead front (same.symm.trans kept) early

/-- **A successful transfer covers the header that made the image pass**, unless chunks have no
bytes or a transfer had raised before. With chunks of no bytes, nothing is written. -/
theorem covered_of_ran (ran : Ran settings lost session)
    (late : session.intake.phase = some .convert ∨ session.intake.phase = some .resize) :
    ∃ format, session.intake.format = some format ∧
      (settings.chunk = some 0 → session.intake.written = 0) ∧
        (settings.chunk ≠ some 0 → lost = false → format.headerSize ≤ session.intake.written) :=
  (covers_of_ran ran).covered late

theorem Begins.ran {source : Source} (begins : session.Begins settings source) :
    Ran settings false session := by
  obtain ⟨before, cloud, created⟩ := begins.created
  exact (Ran.created session.files created).elsewhere session.cloud session.files (.refl _) rfl

/-- A call that does not raise so. -/
theorem Ran.well (ran : Ran settings lost session) (step : Step)
    (well : raisesUrl (perform step session) = false) : Ran settings lost (session.after step) := by
  have called := ran.called step
  rwa [well, Bool.or_false] at called

/-- Three raw bytes that were opened and then transferred in chunks of some size. -/
def rawStored (chunk : Option Int) : Session :=
  ((beginning { rest := [1, 2, 3] } chunk).after .info).after (.transferFile ⟨.here, ["disk"]⟩)

/-- A raw image is covered, but not if it is copied in chunks of no bytes. -/
theorem covered_of_ran_raw :
    (rawStored none).intake.phase = some .resize ∧ 1 ≤ (rawStored none).intake.written ∧
      (rawStored (some 0)).intake.phase = some .resize ∧
        (rawStored (some 0)).intake.written = 0 := by
  have whole : (rawStored none).intake.phase = some .resize := by cbv
  have empty : (rawStored (some 0)).intake.phase = some .resize := by cbv
  have ran := ((begins_beginning { rest := [1, 2, 3] } none).ran.well .info (by cbv)).well
    (.transferFile ⟨.here, ["disk"]⟩) (by cbv)
  obtain ⟨format, -, -, covered⟩ := covered_of_ran ran (.inr whole)
  have ran := ((begins_beginning { rest := [1, 2, 3] } (some 0)).ran.well .info (by cbv)).well
    (.transferFile ⟨.here, ["disk"]⟩) (by cbv)
  obtain ⟨-, -, nothing, -⟩ := covered_of_ran ran (.inr empty)
  exact ⟨whole, format.headerSize_pos.trans_le (covered (by decide) rfl), empty, nothing rfl⟩

end Runs

end Session

end DiskStaging
