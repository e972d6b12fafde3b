import DiskStaging.Proofs.CommandRuns
import DiskStaging.Proofs.EncodedLocation

/-!
# The backend of a source

The command tells the backend by how the text of the source starts, and reading the source as a
URL tells its scheme. Reading ignores blanks in front, and tabs and line ends, and does not
mind the case of letters, so one and the same URL can start in many ways
(`Url.exists_spelling`). A source that only Amazon's backend takes is never sent to the other
one. A source of Google's scheme is sent to Google's backend if it starts with the scheme as
it is written in URLs, and is refused otherwise (`CommandLine.backend_of_accepted`).
-/

set_option autoImplicit false

namespace DiskStaging

open Text Percent

namespace Url

/-! ## Spellings of a URL -/

/-- What reading keeps in front stands in front of the text. -/
theorem exists_of_cleaned {text front behind : List Char} (some : front ≠ [])
    (read : cleaned text = front ++ behind) :
    ∃ first rest, text = first ++ rest ∧ cleaned first = front ∧ unbroken rest = behind := by
  rw [cleaned_eq] at read
  obtain ⟨first, rest, split, kept, left⟩ := List.filter_eq_append_iff.mp read
  have whole := List.takeWhile_append_dropWhile (p := (· ≤ ' ')) (l := text)
  refine ⟨text.takeWhile (· ≤ ' ') ++ first, rest, ?_, ?_, left⟩
  · rw [List.append_assoc, ← split, whole]
  · obtain ⟨c, more, rfl⟩ : ∃ c more, first = c :: more := by
      refine List.exists_cons_of_ne_nil ?_
      rintro rfl
      exact some kept.symm
    have outside := List.head?_dropWhile_not (· ≤ ' ') text
    rw [split] at outside
    have visible : ¬c ≤ ' ' := by simpa using outside
    have blank : ∀ c ∈ text.takeWhile (· ≤ ' '), decide (c ≤ ' ') = true := by
      intro c inside
      exact List.mem_takeWhile_imp (p := (· ≤ ' ')) inside
    rw [cleaned_eq, List.dropWhile_append_of_pos blank,
      List.dropWhile_cons_of_neg (by simpa using visible)]
    exact kept

/-- **A URL with a scheme and a host is spelled with its scheme**, in letters of any case, and
with what reading ignores. -/
theorem exists_spelling {text : List Char} (schemed : schemeOf (cleaned text) ≠ [])
    (hosted : hostOf (cleaned text) ≠ []) :
    ∃ first rest, text = first ++ rest ∧
      (cleaned first).map Char.toLower = schemeOf (cleaned text) ++ [':', '/', '/'] ∧
      behindScheme (cleaned text) = '/' :: '/' :: unbroken rest := by
  obtain ⟨front, whole, lower, -⟩ := exists_front (cleaned text)
  rcases announced_or_not (cleaned text) with ⟨announced, -⟩ | ⟨-, none, -⟩
  · have read : cleaned text =
        (front ++ ['/', '/']) ++ (hostOf (cleaned text) ++ behindHost (cleaned text)) :=
      calc cleaned text
        _ = front ++ behindScheme (cleaned text) := whole
        _ = front ++ (['/', '/'] ++ hostOf (cleaned text) ++ behindHost (cleaned text)) :=
            congrArg (front ++ ·) announced
        _ = _ := by simp only [List.append_assoc]
    obtain ⟨first, rest, split, kept, left⟩ := exists_of_cleaned (by simp) read
    have letters : front.map Char.toLower = schemeOf (cleaned text) ++ [':'] := by
      rw [← lower, writtenScheme, if_neg (by simpa using schemed)]
    refine ⟨first, rest, split, ?_, ?_⟩
    · rw [kept, List.map_append, letters, List.append_assoc]
      rfl
    · rw [announced, left]
      simp
  · exact absurd none hosted

theorem not_mem_scheme {scheme : List Char} (plain : isPlainScheme scheme = true) :
    '%' ∉ scheme ++ [':', '/', '/'] := by
  intro found
  rcases List.mem_append.mp found with found | found
  · cases isUnreserved_of_plainScheme plain found
  · exact absurd found (by decide)

/-- A text that is spelled so has no escape in front. -/
theorem no_escape {first scheme : List Char} (plain : isPlainScheme scheme = true)
    (spelled : (cleaned first).map Char.toLower = scheme ++ [':', '/', '/']) : '%' ∉ first := by
  intro inside
  rw [cleaned_eq] at spelled
  have behind : '%' ∈ first.dropWhile (· ≤ ' ') := by
    rw [← List.takeWhile_append_dropWhile (p := (· ≤ ' ')) (l := first)] at inside
    refine (List.mem_append.mp inside).resolve_left fun blank => ?_
    exact absurd (List.mem_takeWhile_imp (p := (· ≤ ' ')) blank) (by decide)
  have kept : '%' ∈ unbroken (first.dropWhile (· ≤ ' ')) :=
    List.mem_filter.mpr ⟨behind, by decide⟩
  apply not_mem_scheme plain
  rw [← spelled]
  exact List.mem_map.mpr ⟨'%', kept, by decide⟩

/-! ## Reading -/

/-- A URL is told by its scheme and what stands behind that. -/
theorem parse_congr {first second : String}
    (same : cutScheme (cleaned first.toList) = cutScheme (cleaned second.toList)) :
    parse first = parse second := by
  unfold parse
  rw [same]

theorem parts_of_parse {text : String} {url : Url} (read : parse text = .ok url) :
    url.scheme.toList = schemeOf (cleaned text.toList) ∧
      url.netloc.toList = hostOf (cleaned text.toList) ∧
      url.path.toList <+: beforeQuery (cleaned text.toList) := by
  unfold parse at read
  simp only [Bind.bind, Except.bind, pure, Except.pure] at read
  split at read
  · cases read
  · split at read
    · cases read
    · cases read
      simp only [String.toList_ofList]
      refine ⟨rfl, rfl, ?_⟩
      exact (List.prefix_append _ _).trans (writtenPath_starts (cleaned text.toList))

end Url

/-- The text of a URL of a scheme, given what stands behind the slashes. -/
def withScheme (scheme rest : String) : String := scheme ++ "://" ++ rest

theorem cutScheme_withScheme {scheme : String} (plain : Url.isPlainScheme scheme.toList = true)
    (rest : String) : Url.cutScheme (Url.cleaned (withScheme scheme rest).toList) =
      (scheme.toList, '/' :: '/' :: Url.unbroken rest.toList) := by
  have basic (c : Char) (inside : c ∈ scheme.toList ++ [':', '/', '/']) : Url.IsBasic c := by
    rcases List.mem_append.mp inside with inside | inside
    · exact .inl (Url.isUnreserved_of_plainScheme plain inside)
    · simp only [List.mem_cons, List.not_mem_nil, or_false] at inside
      rcases inside with rfl | rfl | rfl
      · exact .inr (.inr (.inr rfl))
      all_goals exact .inr (.inr (.inl rfl))
  have text : (withScheme scheme rest).toList =
      scheme.toList ++ [':', '/', '/'] ++ rest.toList := by
    simp [withScheme, String.toList_append]
  rw [text, Url.cleaned_append (by simp) basic, List.append_assoc]
  exact Url.cutScheme_hosted plain _

/-- A URL with a host part is spelled with its scheme, and reads the same when it is written so. -/
theorem parse_withScheme {endpoint : String} {url : Url} (parsed : Url.parse endpoint = .ok url)
    (plain : Url.isPlainScheme url.scheme.toList = true) (hosted : url.netloc ≠ "") :
    ∃ first rest, endpoint.toList = first ++ rest ∧
      (Url.cleaned first).map Char.toLower = url.scheme.toList ++ [':', '/', '/'] ∧
      Url.parse (withScheme url.scheme (String.ofList rest)) = .ok url := by
  obtain ⟨scheme, netloc, -⟩ := Url.parts_of_parse parsed
  have schemed : Url.schemeOf (Url.cleaned endpoint.toList) ≠ [] := by
    rw [← scheme]
    intro none
    rw [none] at plain
    cases plain
  have served : Url.hostOf (Url.cleaned endpoint.toList) ≠ [] := by
    rw [← netloc]
    exact mt String.toList_eq_nil_iff.mp hosted
  obtain ⟨first, rest, split, spelled, behind⟩ := Url.exists_spelling schemed served
  refine ⟨first, rest, split, by rw [spelled, scheme], ?_⟩
  rw [← parsed]
  apply Url.parse_congr
  rw [cutScheme_withScheme plain, String.toList_ofList, ← behind, scheme]
  rfl

/-! ## Endpoints -/

/-- An endpoint that is read is a well-formed URL of one of the schemes, with a host part. -/
theorem parseEndpoint_eq_ok {endpoint : String} {schemes : List String} {url : Url}
    (read : parseEndpoint endpoint schemes = .ok url) :
    endpoint ≠ "" ∧ wellFormed endpoint.toList = true ∧ Url.parse endpoint = .ok url ∧
      url.scheme ∈ schemes ∧ url.netloc ≠ "" := by
  unfold parseEndpoint at read
  split at read
  · cases read
  · rename_i some
    split at read
    · cases read
    · rename_i good
      split at read
      · cases read
      · rename_i found parsed
        split at read
        · cases read
        · rename_i listed
          split at read
          · cases read
          · rename_i hosted
            cases read
            exact ⟨by simpa using some, by simpa using good, parsed, by simpa using listed,
              by simpa using hosted⟩

theorem parseEndpoint_of_parse {endpoint : String} {schemes : List String} {url : Url}
    (some : endpoint ≠ "") (good : wellFormed endpoint.toList = true)
    (parsed : Url.parse endpoint = .ok url) (hosted : url.netloc ≠ "") :
    parseEndpoint endpoint schemes =
      if url.scheme ∈ schemes then .ok url else .error (.wrongScheme schemes) := by
  rw [parseEndpoint, if_neg (by simpa using some), good, parsed]
  by_cases listed : url.scheme ∈ schemes
  · simp [listed, hosted]
  · simp [listed]

/-- An object that is located is the one that the path of the endpoint names. -/
theorem locate_eq_ok {endpoint : String} {schemes : List String} {location : Location}
    (located : locate endpoint schemes = .ok location) :
    parseEndpoint endpoint schemes = .ok location.url ∧
      splitObject (objectPath location.url) = (location.bucket, location.key) ∧
      location.bucket ≠ "" ∧ location.key ≠ "" := by
  unfold locate at located
  cases read : parseEndpoint endpoint schemes with
  | error why =>
    rw [read] at located
    cases located
  | ok url =>
    rw [read] at located
    simp only [Bind.bind, Except.bind] at located
    split at located
    · cases located
    · rename_i named
      cases located
      simpa using named

/-- An object is not located under other schemes than its own. -/
theorem locate_wrongScheme {endpoint : String} {schemes others : List String} {location : Location}
    (located : locate endpoint schemes = .ok location) (other : location.url.scheme ∉ others) :
    locate endpoint others = .error (.wrongScheme others) := by
  obtain ⟨some, good, parsed, -, hosted⟩ := parseEndpoint_eq_ok (locate_eq_ok located).1
  rw [locate, parseEndpoint_of_parse some good parsed hosted, if_neg other]
  rfl

/-- **A URL is the same under all spellings of its scheme**, and locates the same object. -/
theorem locate_withScheme {endpoint : String} {schemes : List String} {location : Location}
    (located : locate endpoint schemes = .ok location)
    (plain : Url.isPlainScheme location.url.scheme.toList = true) :
    ∃ first rest, endpoint = first ++ rest ∧
      (Url.cleaned first.toList).map Char.toLower = (withScheme location.url.scheme "").toList ∧
      locate (withScheme location.url.scheme rest) schemes = .ok location := by
  have read := (locate_eq_ok located).1
  obtain ⟨-, good, parsed, listed, hosted⟩ := parseEndpoint_eq_ok read
  obtain ⟨first, rest, split, spelled, same⟩ := parse_withScheme parsed plain hosted
  have text : (withScheme location.url.scheme (String.ofList rest)).toList =
      location.url.scheme.toList ++ [':', '/', '/'] ++ rest := by
    simp [withScheme, String.toList_append]
  have formed : wellFormed (withScheme location.url.scheme (String.ofList rest)).toList = true := by
    rw [split, wellFormed_append (Url.no_escape plain spelled)] at good
    rw [text, wellFormed_append (Url.not_mem_scheme plain), good]
  have some : withScheme location.url.scheme (String.ofList rest) ≠ "" := by
    rw [ne_eq, ← String.toList_eq_nil_iff, text]
    simp
  refine ⟨String.ofList first, String.ofList rest, ?_, ?_, ?_⟩
  · rw [← String.toList_inj]
    simp [split]
  · simp [spelled, withScheme, String.toList_append]
  · rw [locate, read] at located
    rw [locate, parseEndpoint_of_parse some formed same hosted, if_pos listed, located]

namespace CommandLine

theorem run_of_backendOf {arguments : Arguments} {backend : Backend} (cloud : Cloud)
    (files : FileTree) (unnamed : arguments.backend = none)
    (told : backendOf arguments.source = backend) :
    run arguments cloud files = run { arguments with backend := some backend } cloud files := by
  have same : ({ arguments with backend := some backend } : Arguments).settings =
      arguments.settings := by
    simp [Arguments.settings, unnamed, told]
  unfold run
  rw [same]
  rfl

/-- An endpoint that its backend does not take is reported, and nothing is done. -/
theorem run_refused {arguments : Arguments} {why : EndpointFault} (cloud : Cloud)
    (files : FileTree)
    (refused : locate arguments.source
      (arguments.backend.getD (backendOf arguments.source)).schemes = .error why) :
    run arguments cloud files =
      { report := Report.failed { status := 0 } arguments.verbose (.endpoint arguments.source why)
        cloud, files } := by
  have created : Intake.create arguments.settings cloud =
      .error (.endpoint arguments.source why) cloud := by
    rw [Intake.create, Arguments.settings, refused]
    rfl
  rw [run, created]

theorem backendOf_gs (rest : String) : backendOf ("gs://" ++ rest) = .gcs := by
  refine if_pos (List.isPrefixOf_iff_prefix.mpr ?_)
  rw [String.toList_append]
  exact List.prefix_append _ _

/-- A source that Amazon's backend takes does not start with Google's scheme. -/
theorem backendOf_eq_s3 {source : String} {location : Location}
    (located : locate source (Backend.schemes .s3) = .ok location) : backendOf source = .s3 := by
  obtain ⟨-, -, parsed, listed, -⟩ := parseEndpoint_eq_ok (locate_eq_ok located).1
  refine if_neg fun starts => ?_
  obtain ⟨rest, split⟩ := List.isPrefixOf_iff_prefix.mp starts
  have text : source = withScheme "gs" (String.ofList rest) := by
    rw [← String.toList_inj, ← split]
    simp [withScheme, String.toList_append]
  have scheme : location.url.scheme.toList = "gs".toList := by
    rw [(Url.parts_of_parse parsed).1, text]
    exact congrArg Prod.fst (cutScheme_withScheme (by decide) _)
  rw [String.toList_inj.mp scheme] at listed
  exact absurd listed (by decide)

/-- **A source that a backend accepts is sent to it if it starts as URLs of its scheme are
written.** -/
theorem backend_of_accepted {arguments : Arguments} (cloud : Cloud) (files : FileTree)
    (unnamed : arguments.backend = none) :
    (∀ location, locate arguments.source (Backend.schemes .s3) = .ok location →
      run arguments cloud files = run { arguments with backend := some .s3 } cloud files) ∧
    ∀ location, locate arguments.source (Backend.schemes .gcs) = .ok location →
      location.url.scheme = "gs" →
      (∃ first rest, arguments.source = first ++ rest ∧
        (Url.cleaned first.toList).map Char.toLower = "gs://".toList ∧
        locate ("gs://" ++ rest) (Backend.schemes .gcs) = .ok location ∧
        run { arguments with source := "gs://" ++ rest } cloud files =
          run { arguments with source := "gs://" ++ rest, backend := some .gcs } cloud files) ∧
      run arguments cloud files =
        if "gs://".toList <+: arguments.source.toList then
          run { arguments with backend := some .gcs } cloud files
        else
          { report := Report.failed { status := 0 } arguments.verbose
              (.endpoint arguments.source (.wrongScheme (Backend.schemes .s3)))
            cloud, files } := by
  refine ⟨fun location located => run_of_backendOf cloud files unnamed (backendOf_eq_s3 located),
    fun location located scheme => ⟨?_, ?_⟩⟩
  · have plain : Url.isPlainScheme location.url.scheme.toList = true := by
      rw [scheme]
      decide
    obtain ⟨first, rest, split, spelled, same⟩ := locate_withScheme located plain
    rw [scheme] at spelled same
    exact ⟨first, rest, split, spelled, same,
      run_of_backendOf cloud files unnamed (backendOf_gs rest)⟩
  · split
    · rename_i starts
      exact run_of_backendOf cloud files unnamed (if_pos (List.isPrefixOf_iff_prefix.mpr starts))
    · rename_i other
      have told : backendOf arguments.source = .s3 :=
        if_neg (mt List.isPrefixOf_iff_prefix.mp other)
      refine run_refused cloud files ?_
      rw [unnamed, told]
      exact locate_wrongScheme located (by rw [scheme]; decide)

/-- A web address is sent to Amazon's backend. One of Google's scheme in capitals, with a blank
in front and a tab inside, is refused. -/
theorem backend_of_accepted_capitals :
    run (asking "http://h/images/disk") {} .fresh =
        run { asking "http://h/images/disk" with backend := some .s3 } {} .fresh ∧
      run (asking " GS:/\t/images/disk") {} .fresh =
        { report := ⟨1, "", "Error: Unsupported scheme in endpoint  GS:/\t/images/disk. " ++
            "Expected one of: http, https, s3\n"⟩
          cloud := {}
          files := .fresh } := by
  have web : locate "http://h/images/disk" (Backend.schemes .s3) =
      .ok ⟨⟨"http", "h", "/images/disk", "", "", ""⟩, "images", "disk"⟩ := by decide +kernel
  have storage : locate " GS:/\t/images/disk" (Backend.schemes .gcs) =
      .ok ⟨⟨"gs", "images", "/disk", "", "", ""⟩, "images", "disk"⟩ := by decide +kernel
  have text : Report.failed { status := 0 } false (.endpoint " GS:/\t/images/disk"
      (.wrongScheme (Backend.schemes .s3))) =
        ⟨1, "", "Error: Unsupported scheme in endpoint  GS:/\t/images/disk. " ++
          "Expected one of: http, https, s3\n"⟩ := by decide +kernel
  have refused := ((@backend_of_accepted (asking " GS:/\t/images/disk") {} .fresh
    rfl).2 _ storage rfl).2
  rw [if_neg (by decide)] at refused
  exact ⟨(backend_of_accepted {} .fresh rfl).1 _ web, refused.trans (by rw [← text]; rfl)⟩

end CommandLine

end DiskStaging
