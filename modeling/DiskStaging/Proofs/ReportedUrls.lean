import DiskStaging.Proofs.BackendChoice
import DiskStaging.Proofs.HostedUrls

/-!
# The URL that is reported

Reports name an object by the URL that its endpoint was read as. Written, that URL is an endpoint
itself, and it locates the same object (`locate_render`): it is read as it was written
(`Url.parse_render`), and its escapes are in order, since what reading drops or cuts off stands in
no escape of a text in which they are (`Text.Percent.Escaped.cleaned`, `Url.escaped_render`). So
the name of an intake sets up the same intake again, whatever was done with it in the meantime
(`Session.reported_url`).
-/

set_option autoImplicit false

namespace DiskStaging

open Text Percent

namespace Text.Percent

/-! ## Escapes in order -/

/-- Every percent sign introduces two hexadecimal digits. -/
def Escaped (text : List Char) : Prop :=
  ∀ before behind, text = before ++ '%' :: behind →
    ∃ high low rest, behind = high :: low :: rest ∧
      (hexValue? high).isSome = true ∧ (hexValue? low).isSome = true

section Escaping

variable {text front behind : List Char}

theorem escaped_of_not_mem (plain : '%' ∉ text) : Escaped text := by
  rintro before behind rfl
  exact absurd (List.mem_append_right _ List.mem_cons_self) plain

theorem Escaped.right (front : List Char) (escaped : Escaped (front ++ behind)) :
    Escaped behind := by
  rintro before rest rfl
  exact escaped (front ++ before) rest (List.append_assoc ..).symm

/-- An escape does not reach beyond what is no digit. -/
theorem Escaped.left (escaped : Escaped (front ++ behind))
    (apart : ∀ c ∈ behind.head?, hexValue? c = none) : Escaped front := by
  rintro before rest rfl
  obtain ⟨high, low, more, split, first, second⟩ := escaped before (rest ++ behind) (by simp)
  have outside {c : Char} {rest : List Char} (shape : behind = c :: rest)
      (digit : (hexValue? c).isSome = true) : False := by
    rw [apart c (by rw [shape]; rfl)] at digit
    cases digit
  match rest with
  | [] => exact (outside split first).elim
  | [_] => exact (outside (List.cons.inj split).2 second).elim
  | _ :: _ :: rest =>
    simp only [List.cons_append, List.cons.injEq] at split
    obtain ⟨rfl, rfl, -⟩ := split
    exact ⟨_, _, rest, rfl, first, second⟩

theorem Escaped.append (first : Escaped front) (second : Escaped behind) :
    Escaped (front ++ behind) := by
  intro before rest split
  rcases List.append_eq_append_iff.mp split with ⟨middle, rfl, shape⟩ | ⟨middle, rfl, shape⟩
  · exact second middle rest shape
  · cases middle with
    | nil => exact second [] rest shape.symm
    | cons c middle =>
      obtain ⟨rfl, rfl⟩ := List.cons.inj shape
      obtain ⟨high, low, more, rfl, digits⟩ := first before middle rfl
      exact ⟨high, low, more ++ behind, rfl, digits⟩

theorem escaped_cons (c : Char) (rest : List Char) :
    Escaped (c :: rest) ↔
      (c = '%' → ∃ high low more, rest = high :: low :: more ∧
        (hexValue? high).isSome = true ∧ (hexValue? low).isSome = true) ∧ Escaped rest := by
  constructor
  · intro escaped
    refine ⟨?_, Escaped.right [c] escaped⟩
    rintro rfl
    exact escaped [] rest rfl
  · rintro ⟨first, later⟩ before behind split
    cases before with
    | nil =>
      obtain ⟨rfl, rfl⟩ := List.cons.inj split
      exact first rfl
    | cons initial before =>
      exact later before behind (List.cons.inj split).2

/-- The check of escapes is met where they are in order. -/
theorem wellFormed_iff (text : List Char) : wellFormed text = true ↔ Escaped text := by
  induction text with
  | nil =>
    refine ⟨fun _ => escaped_of_not_mem List.not_mem_nil, fun _ => rfl⟩
  | cons c rest ih =>
    rw [escaped_cons, ← ih]
    by_cases percent : c = '%'
    · subst percent
      match rest with
      | [] => simp [wellFormed]
      | [_] => simp [wellFormed]
      | high :: low :: more => simp [wellFormed, and_assoc]
    · rw [wellFormed_cons percent]
      simp [percent]

/-- Taking out what reading ignores tears no escape. -/
theorem Escaped.unbroken (escaped : Escaped text) : Escaped (Url.unbroken text) := by
  intro before behind split
  obtain ⟨first, rest, rfl, -, left⟩ := List.filter_eq_append_iff.mp split
  obtain ⟨skipped, rest, rfl, -, -, left⟩ := List.filter_eq_cons_iff.mp left
  obtain ⟨high, low, more, rfl, digits⟩ := escaped (first ++ skipped) rest (by simp)
  have kept {c : Char} (digit : (hexValue? c).isSome = true) : decide (Url.Kept c) = true := by
    refine decide_eq_true ⟨?_, ?_, ?_⟩ <;> rintro rfl <;> exact absurd digit (by decide)
  refine ⟨high, low, Url.unbroken more, ?_, digits⟩
  simp only [← left, List.filter_cons, kept digits.1, kept digits.2, if_true, Url.unbroken]

theorem Escaped.cleaned (escaped : Escaped text) : Escaped (Url.cleaned text) := by
  rw [Url.cleaned_eq]
  rw [← List.takeWhile_append_dropWhile (p := (· ≤ ' ')) (l := text)] at escaped
  exact (escaped.right _).unbroken

/-- Text that is cut at a delimiter is not cut in an escape. -/
theorem Escaped.cutAt (escaped : Escaped text) (separator : Char)
    (apart : hexValue? separator = none) :
    Escaped (Url.cutAt separator text).1 ∧ Escaped (Url.cutAt separator text).2 := by
  cases found : cut? separator text with
  | none =>
    rw [Url.cutAt, found]
    exact ⟨escaped, escaped_of_not_mem List.not_mem_nil⟩
  | some pair =>
    obtain ⟨before, behind⟩ := pair
    rw [eq_of_cut? found] at escaped
    rw [Url.cutAt, found]
    refine ⟨escaped.left ?_, Escaped.right [separator] (escaped.right _)⟩
    rintro c first
    cases first
    exact apart

theorem Escaped.cutParams (escaped : Escaped text) (scheme : List Char) :
    Escaped (Url.cutParams scheme text).1 ∧ Escaped (Url.cutParams scheme text).2 := by
  have split := Url.eq_cutParams scheme text
  rw [split, List.append_assoc] at escaped
  generalize Url.cutParams scheme text = pair at escaped ⊢
  have delimiter : hexValue? ';' = none := by decide
  have params : Escaped (Url.delimited ';' pair.2) := by
    refine (escaped.right _).left fun c first => ?_
    rw [Url.head?_spare first, delimiter]
  refine ⟨escaped.left fun c first => ?_, ?_⟩
  · rw [List.head?_append, Option.mem_def, Option.or_eq_some_iff] at first
    rcases first with first | ⟨-, first⟩
    · rw [Url.head?_delimited first, delimiter]
    · rw [Url.head?_spare first, delimiter]
  · cases shape : pair.2 with
    | nil => exact escaped_of_not_mem List.not_mem_nil
    | cons c more =>
      rw [shape] at params
      exact Escaped.right [';'] params

theorem Escaped.delimited (escaped : Escaped text) {delimiter : Char} (other : delimiter ≠ '%') :
    Escaped (Url.delimited delimiter text) := by
  cases text with
  | nil => exact escaped_of_not_mem List.not_mem_nil
  | cons c rest =>
    exact (escaped_cons delimiter (c :: rest)).mpr ⟨fun same => absurd same other, escaped⟩

end Escaping

end Text.Percent

namespace Url

/-- The six parts of a URL. -/
def parts (url : Url) : List String :=
  [url.scheme, url.netloc, url.path, url.params, url.query, url.fragment]

/-- The escapes of the parts of a text, and of what is written of it. -/
structure EscapedBehind (text : List Char) : Prop where
  path : Escaped (cutParams (schemeOf text) (beforeQuery text)).1
  params : Escaped (cutParams (schemeOf text) (beforeQuery text)).2
  query : Escaped (cutAt '?' (beforeFragment text)).2
  fragment : Escaped (cutAt '#' (behindHost text)).2

theorem escapedBehind {text : List Char} (escaped : Escaped (behindHost text)) :
    EscapedBehind text := by
  obtain ⟨before, fragment⟩ := escaped.cutAt '#' (by decide)
  obtain ⟨front, query⟩ := before.cutAt '?' (by decide)
  obtain ⟨path, params⟩ := front.cutParams (schemeOf text)
  exact ⟨path, params, query, fragment⟩

theorem EscapedBehind.written {text : List Char} (escaped : EscapedBehind text) :
    Escaped (writtenPath text ++ writtenEnd text) :=
  (escaped.path.append (escaped.params.delimited (by decide))).append
    ((escaped.query.delimited (by decide)).append (escaped.fragment.delimited (by decide)))

section Reading

variable {text : String} {url : Url}

/-- The escapes of a text with a host part are those of its host part and of what stands behind
that. -/
theorem escaped_announced {text scheme host rest : List Char} (escaped : Escaped text)
    (announced : Announces text scheme host rest) :
    '%' ∉ scheme ∧ Escaped host ∧ Escaped rest := by
  obtain ⟨front, start, whole⟩ := announced.start
  have clean := escaped.cleaned
  rw [whole] at clean
  have behind : Escaped (host ++ rest) := Escaped.right ['/', '/'] (clean.right _)
  refine ⟨not_mem_of_isSchemeChar (by decide) start.chars, behind.left fun c first => ?_,
    behind.right _⟩
  rcases announced.behind c first with rfl | rfl | rfl <;> decide

/-- The escapes of a URL are in order if those of its text are. -/
theorem escaped_parts (escaped : Escaped text.toList) (read : parse text = .ok url)
    (hosted : url.netloc ≠ "") : ∀ part ∈ url.parts, Escaped part.toList := by
  obtain ⟨scheme, host, rest⟩ :=
    escaped_announced escaped (announces_of_hostOf (hostOf_ne_nil read hosted))
  obtain ⟨path, params, query, fragment⟩ := escapedBehind rest
  rw [(eq_ofParts read).2]
  simp only [parts, ofParts, List.forall_mem_cons, String.toList_ofList]
  exact ⟨escaped_of_not_mem scheme, host, path, params, query, fragment, by simp⟩

/-- Writing a URL tears no escape. -/
theorem escaped_render (escaped : Escaped text.toList) (read : parse text = .ok url)
    (hosted : url.netloc ≠ "") : Escaped url.render.toList := by
  have some := hostOf_ne_nil read hosted
  obtain ⟨scheme, host, rest⟩ := escaped_announced escaped (announces_of_hostOf some)
  have front : '%' ∉ writtenScheme (cleaned text.toList) ++ ['/', '/'] := by
    rw [writtenScheme]
    split <;> simp [scheme]
  rw [toList_render read, written_of_hostOf some]
  have whole := (escaped_of_not_mem front).append (host.append (escapedBehind rest).written)
  simpa using whole

end Reading

end Url

/-! ## Endpoints -/

section Endpoints

variable {endpoint : String} {schemes : List String}

/-- The URL of an endpoint, written, is an endpoint with the same URL. -/
theorem parseEndpoint_render {url : Url} (read : parseEndpoint endpoint schemes = .ok url) :
    parseEndpoint url.render schemes = .ok url := by
  obtain ⟨-, good, parsed, listed, hosted⟩ := parseEndpoint_eq_ok read
  have again := Url.parse_render parsed hosted
  have some : url.render ≠ "" := by
    intro none
    rw [none] at again
    exact Url.hostOf_ne_nil again hosted rfl
  have escaped := Url.escaped_render ((wellFormed_iff _).mp good) parsed hosted
  rw [parseEndpoint_of_parse some ((wellFormed_iff _).mpr escaped) again hosted, if_pos listed]

/-- It locates the same object. -/
theorem locate_render {location : Location} (located : locate endpoint schemes = .ok location) :
    locate location.url.render schemes = .ok location := by
  have read := (locate_eq_ok located).1
  rw [locate, read] at located
  rw [locate, parseEndpoint_render read, located]

end Endpoints

namespace Intake

variable {settings : IntakeSettings} {before after : Cloud}

/-- An endpoint of the same object sets up the same intake. -/
theorem create_of_locate {intake : Intake} {endpoint : String}
    (created : create settings before = .ok intake after)
    (located : locate endpoint settings.backend.schemes = .ok intake.location) :
    create { settings with endpoint } before = .ok intake after := by
  obtain ⟨location, client, first, rfl⟩ := create_eq created
  replace located : locate endpoint settings.backend.schemes = .ok location := located
  rw [create, first] at created
  obtain ⟨client, between, got, rest⟩ := bind_eq_ok created
  have made := getClient_eq_ok_iff.mp got
  have again : getClient { settings with endpoint } (settings.backend.service location.url)
      before = .ok client between := getClient_eq_ok_iff.mpr made
  rw [create]
  simp only [located, Bind.bind, EStateM.bind, again]
  exact rest

end Intake

namespace Session

/-- **The URL that an intake is reported by is an endpoint for the same object.** -/
theorem reported_url (endpoint : String) (schemes : List String) :
    (∀ url, parseEndpoint endpoint schemes = .ok url →
      (∀ part ∈ url.parts, Escaped part.toList) ∧
        parseEndpoint url.render schemes = .ok url ∧ Url.Canonical url.render.toList) ∧
    (∀ location, locate endpoint schemes = .ok location →
      locate location.url.render schemes = .ok location) ∧
    ∀ (settings : IntakeSettings) (session : Session) (before : Cloud) (steps : List Step),
      Intake.create settings before = .ok session.intake session.cloud →
      Intake.create { settings with endpoint := (session.afterAll steps).intake.name } before =
        .ok session.intake session.cloud := by
  refine ⟨fun url read => ?_, fun location located => locate_render located, ?_⟩
  · obtain ⟨-, good, parsed, -, hosted⟩ := parseEndpoint_eq_ok read
    have again := Url.parse_render parsed hosted
    exact ⟨Url.escaped_parts ((wellFormed_iff _).mp good) parsed hosted,
      parseEndpoint_render read, (Url.render_eq_iff again).mp rfl⟩
  · intro settings session before steps created
    have place := ((tenure_created created session.files).calledAll steps).1
    obtain ⟨location, client, located, same⟩ := Intake.create_eq created
    refine Intake.create_of_locate created ?_
    rw [Intake.name, place, same]
    exact locate_render located

/-- Settings with an endpoint that is not written as URLs are. -/
def spelledOddly : IntakeSettings where
  backend := .s3
  endpoint := "\n HTTP://u@[::1]:8%30//b/k%41;?\t#"
  chunk := none
  factory := .readyMade none

/-- The URL of that endpoint. -/
def plainUrl : Url := ⟨"http", "u@[::1]:8%30", "//b/k%41", "", "", ""⟩

/-- A session that was just set up by that endpoint. -/
def startedOddly : Session where
  intake := .ofSettings spelledOddly ⟨plainUrl, "b", "kA"⟩ .readyMade
  cloud := { handedOut := [spelledOddly.client (Backend.service .s3 plainUrl)] }
  files := .fresh

/-- What is left of an endpoint with a blank, a tab and a line end, capitals and empty parts is an
endpoint for the same object, whatever was done in the meantime. -/
theorem reported_url_spelledOddly :
    (∀ part ∈ plainUrl.parts, Escaped part.toList) ∧
      parseEndpoint "http://u@[::1]:8%30//b/k%41" ["http"] = .ok plainUrl ∧
      Url.Canonical "http://u@[::1]:8%30//b/k%41".toList ∧
      locate "http://u@[::1]:8%30//b/k%41" ["http"] = .ok ⟨plainUrl, "b", "kA"⟩ ∧
      Intake.create { spelledOddly with
          endpoint := (startedOddly.afterAll [.info, .close]).intake.name } {} =
        .ok startedOddly.intake startedOddly.cloud := by
  have shown : plainUrl.render = "http://u@[::1]:8%30//b/k%41" := by decide +kernel
  have read : parseEndpoint spelledOddly.endpoint ["http"] = .ok plainUrl := by decide +kernel
  have located : locate spelledOddly.endpoint ["http"] = .ok ⟨plainUrl, "b", "kA"⟩ := by
    decide +kernel
  have place : locate spelledOddly.endpoint spelledOddly.backend.schemes =
      .ok ⟨plainUrl, "b", "kA"⟩ := by
    decide +kernel
  have created : Intake.create spelledOddly {} =
      .ok startedOddly.intake startedOddly.cloud := by
    unfold Intake.create
    rw [place]
    rfl
  obtain ⟨parsed, found, again⟩ := reported_url spelledOddly.endpoint ["http"]
  obtain ⟨escaped, same, canonical⟩ := parsed plainUrl read
  have object := found ⟨plainUrl, "b", "kA"⟩ located
  have later := again spelledOddly startedOddly {} [.info, .close] created
  rw [← shown]
  exact ⟨escaped, same, canonical, object, later⟩

end Session

end DiskStaging
