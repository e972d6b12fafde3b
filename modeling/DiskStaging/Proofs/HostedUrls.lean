import DiskStaging.Proofs.AddressingStyles

/-!
# URLs with a host

Text names a host where two slashes stand at its start or behind its scheme (`Url.Announces`). That
is the one thing that can keep text from being a URL: its host part may have brackets that are not
in order, or characters that look like delimiters. All text whose host part is fine reads as a URL,
and text without a host part does anyway (`Url.parse_eq`).

A URL with a host part is written with its scheme, its host part and what stands behind that, so it
is announced again just as it was read. What was left out of it is read back as empty, and so it
is read as the same URL (`Url.parse_render`).
-/

set_option autoImplicit false

namespace DiskStaging

namespace Url

open Text

/-! ## What stands in front of a host -/

theorem isLetter_eq (c : Char) : isLetter c = c.isAlpha := by
  rw [isLetter, Char.isAlpha, Char.isUpper, Char.isLower, Bool.or_comm]
  simp [Char.le_def]

theorem isLetter_toLower (c : Char) : isLetter c.toLower = isLetter c := by
  rw [isLetter_eq, isLetter_eq, Char.isAlpha_toLower_eq_isAlpha]

theorem isSchemeChar_of_isLetter {c : Char} (letter : isLetter c = true) :
    isSchemeChar c = true := by
  simp [isSchemeChar, letter]

theorem isSchemeChar_toLower {c : Char} (plain : isSchemeChar c = true) :
    isSchemeChar c.toLower = true := by
  by_cases capital : c.isUpper = true
  · refine isSchemeChar_of_isLetter ?_
    rw [isLetter_toLower, isLetter_eq, Char.isAlpha, capital, Bool.true_or]
  · rwa [Char.toLower_eq_of_not_isUpper capital]

theorem all_toLower {scheme : List Char} (plain : scheme.all isSchemeChar = true) :
    (scheme.map Char.toLower).all isSchemeChar = true := by
  simp only [List.all_map, List.all_eq_true] at plain ⊢
  exact fun c inside => isSchemeChar_toLower (plain c inside)

/-- Characters of schemes are visible. -/
theorem visible_of_isSchemeChar {c : Char} (plain : isSchemeChar c = true) : ' ' < c := by
  have least {first : Char} (after : first ≤ c) (visible : ' ' < first) : ' ' < c :=
    lt_of_lt_of_le visible after
  simp only [isSchemeChar, isLetter, Bool.or_eq_true, Bool.and_eq_true, decide_eq_true_eq] at plain
  rcases plain with ((((small | capital) | digit) | rfl) | rfl) | rfl
  · exact least small.1 (by decide)
  · exact least capital.1 (by decide)
  · exact least digit.1 (by decide)
  all_goals decide

theorem not_mem_of_isSchemeChar {c : Char} {scheme : List Char} (other : isSchemeChar c = false)
    (plain : scheme.all isSchemeChar = true) : c ∉ scheme := by
  intro inside
  cases other.symm.trans (List.all_eq_true.mp plain c inside)

namespace Front

variable {front scheme : List Char}

/-- A scheme is cut off where a slash follows it. -/
theorem cutScheme (start : Front front scheme) (rest : List Char) :
    Url.cutScheme (front ++ '/' :: rest) = (scheme, '/' :: rest) := by
  cases start with
  | none =>
    -- A colon further on has a slash in front of it, and no scheme starts with one.
    unfold Url.cutScheme
    split
    · rename_i first more behind found
      have slash : first = '/' := by
        have whole := eq_of_cut? found
        simp only [List.nil_append, List.cons_append, List.cons.injEq] at whole
        exact whole.1.symm
      have none : isLetter '/' = false := by decide
      simp [slash, none]
    · rfl
  | @named first more letter chars =>
    have colon : ':' ∉ first :: more := not_mem_of_isSchemeChar (by decide)
      (by simp [isSchemeChar_of_isLetter letter, chars])
    rw [List.append_assoc, List.singleton_append, Url.cutScheme, cut?_append colon]
    simp [letter, chars]

theorem chars (start : Front front scheme) : scheme.all isSchemeChar = true := by
  cases start with
  | none => rfl
  | @named first more letter chars =>
    refine all_toLower ?_
    rw [List.all_cons, isSchemeChar_of_isLetter letter, chars, Bool.true_and]

/-- It is a start in lower case as well. -/
theorem lower (start : Front front scheme) : Front (front.map Char.toLower) scheme := by
  cases start with
  | none => exact .none
  | @named first more letter chars =>
    have small : isLetter first.toLower = true := by rw [isLetter_toLower, letter]
    have again := Front.named small (all_toLower chars)
    simpa [Function.comp_def] using again

theorem visible (start : Front front scheme) : ∀ c ∈ front, ' ' < c := by
  cases start with
  | none => simp
  | @named first more letter chars =>
    intro c inside
    simp only [List.cons_append, List.mem_cons, List.mem_append, List.not_mem_nil,
      or_false] at inside
    rcases inside with rfl | inside | rfl
    · exact visible_of_isSchemeChar (isSchemeChar_of_isLetter letter)
    · exact visible_of_isSchemeChar (List.all_eq_true.mp chars c inside)
    · decide

end Front

/-! ## Announced hosts -/

/-- Text announces a host part: two slashes stand in front of it, at the start or behind the scheme,
and behind it the rest starts. -/
structure Announces (text scheme host rest : List Char) : Prop where
  start : ∃ front, Front front scheme ∧ cleaned text = front ++ '/' :: '/' :: (host ++ rest)
  inside : ∀ c ∈ host, c ≠ '/' ∧ c ≠ '?' ∧ c ≠ '#'
  behind : ∀ c ∈ rest.head?, c = '/' ∨ c = '?' ∨ c = '#'

section Announcing

variable {text scheme host rest : List Char}

/-- What a text announces is what is read from it. -/
theorem Announces.parts (announces : Announces text scheme host rest) :
    schemeOf (cleaned text) = scheme ∧ hostOf (cleaned text) = host ∧
      behindHost (cleaned text) = rest := by
  obtain ⟨front, start, whole⟩ := announces.start
  have cut := start.cutScheme ('/' :: (host ++ rest))
  rw [← whole] at cut
  have inside (c : Char) (listed : c ∈ host) : (c ≠ '/' && c ≠ '?' && c ≠ '#') = true := by
    simpa [and_assoc] using announces.inside c listed
  have outside : ∀ c ∈ rest.head?, (c ≠ '/' && c ≠ '?' && c ≠ '#') = false := by
    intro c first
    rcases announces.behind c first with rfl | rfl | rfl <;> rfl
  have netloc : cutNetloc ('/' :: '/' :: (host ++ rest)) = (host, rest) := by
    simp only [cutNetloc]
    rw [List.takeWhile_append_of_pos inside, List.dropWhile_append_of_pos inside]
    cases rest with
    | nil => simp
    | cons c rest =>
      have first := outside c rfl
      rw [List.takeWhile_cons_of_neg (by simp only [first]; decide),
        List.dropWhile_cons_of_neg (by simp only [first]; decide), List.append_nil]
  simp only [schemeOf, hostOf, behindHost, behindScheme, cut, netloc, and_self]

/-- No delimiter stands in a host part. -/
theorem inside_of_mem_hostOf {c : Char} (listed : c ∈ hostOf text) :
    c ≠ '/' ∧ c ≠ '?' ∧ c ≠ '#' := by
  unfold hostOf cutNetloc at listed
  split at listed
  · have inside := List.mem_takeWhile_imp listed
    simpa [and_assoc] using inside
  · cases listed

/-- A host part that is read was announced. -/
theorem announces_of_hostOf (hosted : hostOf (cleaned text) ≠ []) :
    Announces text (schemeOf (cleaned text)) (hostOf (cleaned text))
      (behindHost (cleaned text)) := by
  obtain ⟨front, start, whole⟩ := Front.exists_front (cleaned text)
  rcases announced_or_not (cleaned text) with ⟨announced, behind⟩ | ⟨-, none, -⟩
  · refine ⟨⟨front, start, ?_⟩, fun c listed => inside_of_mem_hostOf listed, behind⟩
    rw [announced] at whole
    simpa using whole
  · exact absurd none hosted

end Announcing

/-! ## Reading -/

/-- Checks a host part. -/
def checkHost (host : List Char) : Except UrlFault Unit := do
  checkBrackets host
  checkLookalikes host

/-- The URL of a scheme, a host part and what stands behind that. -/
def ofParts (scheme host rest : List Char) : Url :=
  let (before, fragment) := cutAt '#' rest
  let (path, query) := cutAt '?' before
  let (path, params) := cutParams scheme path
  { scheme := String.ofList scheme
    netloc := String.ofList host
    path := String.ofList path
    params := String.ofList params
    query := String.ofList query
    fragment := String.ofList fragment }

/-- **Text is a URL if its host part is fine.** -/
theorem parse_eq (text : String) :
    parse text = (checkHost (hostOf (cleaned text.toList))).map fun _ =>
      ofParts (schemeOf (cleaned text.toList)) (hostOf (cleaned text.toList))
        (behindHost (cleaned text.toList)) := by
  unfold parse checkHost
  simp only [Bind.bind, Except.bind, hostOf, behindHost, behindScheme, schemeOf]
  cases checkBrackets (cutNetloc (cutScheme (cleaned text.toList)).2).1 with
  | error why => rfl
  | ok _ =>
    cases checkLookalikes (cutNetloc (cutScheme (cleaned text.toList)).2).1 with
    | error why => rfl
    | ok _ => simp only [Except.map, ofParts, pure, Except.pure]

/-- What reading a text gives. -/
theorem eq_ofParts {text : String} {url : Url} (read : parse text = .ok url) :
    checkHost (hostOf (cleaned text.toList)) = .ok () ∧
      url = ofParts (schemeOf (cleaned text.toList)) (hostOf (cleaned text.toList))
        (behindHost (cleaned text.toList)) := by
  rw [parse_eq] at read
  cases checked : checkHost (hostOf (cleaned text.toList)) with
  | error why =>
    rw [checked] at read
    cases read
  | ok value =>
    rw [checked] at read
    cases read
    exact ⟨rfl, rfl⟩

/-- A URL with a host part is read from text that announces one. -/
theorem hostOf_ne_nil {text : String} {url : Url} (read : parse text = .ok url)
    (hosted : url.netloc ≠ "") : hostOf (cleaned text.toList) ≠ [] := by
  intro none
  refine hosted ?_
  rw [(eq_ofParts read).2, ofParts, none]

/-! ## Reading what was written -/

theorem cutAt_delimited {separator : Char} {front : List Char} (absent : separator ∉ front)
    (part : List Char) : cutAt separator (front ++ delimited separator part) = (front, part) := by
  cases part with
  | nil =>
    have plain : cutAt separator front = (front, []) := cutAt_of_not_mem absent
    simpa [delimited] using plain
  | cons c more =>
    rw [delimited, if_neg (by simp), cutAt, cut?_append absent]
    rfl

/-- The parameters that were cut off a path are cut off it again. -/
theorem cutParams_delimited (scheme path : List Char) :
    cutParams scheme ((cutParams scheme path).1 ++ delimited ';' (cutParams scheme path).2) =
      cutParams scheme path := by
  by_cases known : schemesWithParams.contains (String.ofList scheme) = true
  · by_cases found : ';' ∈ lastSegment path
    · obtain ⟨front, params, rfl, first, last⟩ := exists_params found
      rw [cutParams_append known first last]
      cases params with
      | nil =>
        have plain := cutParams_of_not_mem scheme first
        simpa [delimited] using plain
      | cons c more => exact cutParams_append known first last
    · simp [cutParams_of_not_mem scheme found, delimited]
  · have plain (path : List Char) : cutParams scheme path = (path, []) := if_neg known
    simp [plain, delimited]

/-- What is written behind a host part is read as what stood there. -/
theorem ofParts_written (host text : List Char) :
    ofParts (schemeOf text) host (writtenPath text ++ writtenEnd text) =
      ofParts (schemeOf text) host (behindHost text) := by
  have path : writtenPath text ⊆ beforeQuery text := (writtenPath_starts text).subset
  have query : '?' ∉ writtenPath text := fun found => not_mem_cutAt '?' _ (path found)
  have fragment : '#' ∉ writtenPath text ++ delimited '?' (cutAt '?' (beforeFragment text)).2 := by
    have whole : (writtenPath text ++ delimited '?' (cutAt '?' (beforeFragment text)).2) ⊆
        beforeFragment text := by
      have split := eq_cutAt '?' (beforeFragment text)
      intro c listed
      rw [split]
      rcases List.mem_append.mp listed with listed | listed
      · exact List.mem_append_left _ (path listed)
      · exact List.mem_append_right _ (List.mem_append_left _ listed)
    exact fun found => not_mem_cutAt '#' _ (whole found)
  have params : cutParams (schemeOf text) (writtenPath text) =
      cutParams (schemeOf text) (beforeQuery text) :=
    cutParams_delimited (schemeOf text) (beforeQuery text)
  rw [writtenEnd, ← List.append_assoc]
  simp only [ofParts, cutAt_delimited fragment, cutAt_delimited query, params]
  rfl

/-- A URL with a host part is written with two slashes in front of that. -/
theorem written_of_hostOf {text : List Char} (hosted : hostOf text ≠ []) :
    written text = writtenScheme text ++
      '/' :: '/' :: (hostOf text ++ (writtenPath text ++ writtenEnd text)) := by
  rcases announced_or_not text with ⟨-, first⟩ | ⟨-, none, -⟩
  · have shown : showsHost (schemeOf text) (hostOf text) (writtenPath text) = true := by
      simp [showsHost, hosted]
    rw [written, hostAndPath_of_announced first, if_pos shown]
    simp
  · exact absurd none hosted

theorem kept_of_mem_cleaned (text : List Char) {c : Char} (listed : c ∈ cleaned text) : Kept c := by
  rw [cleaned_eq] at listed
  exact of_decide_eq_true (List.mem_filter.mp listed).2

/-- Reading ignores nothing of a host part and what stands in front of it if it keeps what
stands behind. -/
theorem cleaned_hosted {front scheme behind : List Char} (start : Front front scheme)
    (kept : ∀ c ∈ behind, Kept c) :
    cleaned (front ++ '/' :: '/' :: behind) = front ++ '/' :: '/' :: behind := by
  refine (cleaned_eq_iff _).mpr ⟨fun c listed => ?_, fun c first => ?_⟩
  · simp only [List.mem_append, List.mem_cons] at listed
    rcases listed with listed | rfl | rfl | listed
    · have visible := start.visible c listed
      refine ⟨?_, ?_, ?_⟩ <;> rintro rfl <;> exact absurd visible (by decide)
    · decide
    · decide
    · exact kept c listed
  · cases front with
    | nil =>
      cases first
      decide
    | cons initial more =>
      cases first
      exact start.visible _ List.mem_cons_self

theorem head?_written {text : List Char}
    (first : ∀ c ∈ (behindHost text).head?, c = '/' ∨ c = '?' ∨ c = '#') :
    ∀ c ∈ (writtenPath text ++ writtenEnd text).head?, c = '/' ∨ c = '?' ∨ c = '#' := by
  intro c start
  rw [writtenEnd] at start
  simp only [List.head?_append, Option.mem_def, Option.or_eq_some_iff] at start
  rcases start with path | ⟨-, query | ⟨-, fragment⟩⟩
  · exact .inl (slash_of_starts first (writtenPath_starts text) c path)
  · exact .inr (.inl (head?_delimited query))
  · exact .inr (.inr (head?_delimited fragment))

/-- What a URL with a host part is written as announces that again, with nothing that reading
ignores. -/
theorem announces_render {text : String} {url : Url} (read : parse text = .ok url)
    (hosted : url.netloc ≠ "") :
    Announces url.render.toList (schemeOf (cleaned text.toList)) (hostOf (cleaned text.toList))
      (writtenPath (cleaned text.toList) ++ writtenEnd (cleaned text.toList)) := by
  have announced := announces_of_hostOf (hostOf_ne_nil read hosted)
  obtain ⟨front, start, whole⟩ := announced.start
  have lower : writtenScheme (cleaned text.toList) = front.map Char.toLower :=
    start.map_toLower.symm
  have shown : url.render.toList = front.map Char.toLower ++
      '/' :: '/' :: (hostOf (cleaned text.toList) ++
        (writtenPath (cleaned text.toList) ++ writtenEnd (cleaned text.toList))) := by
    rw [toList_render read, written_of_hostOf (hostOf_ne_nil read hosted), lower]
  refine ⟨⟨_, start.lower, ?_⟩, announced.inside, head?_written announced.behind⟩
  rw [shown]
  refine cleaned_hosted start.lower fun c listed => kept_of_mem_cleaned text.toList ?_
  rw [whole]
  refine List.mem_append_right _ (List.mem_cons_of_mem _ (List.mem_cons_of_mem _ ?_))
  exact ((List.Sublist.refl _).append (written_sublist _)).subset listed

/-- **A URL with a host part is read from what it is written as.** -/
theorem parse_render {text : String} {url : Url} (read : parse text = .ok url)
    (hosted : url.netloc ≠ "") : parse url.render = .ok url := by
  obtain ⟨scheme, netloc, behind⟩ := (announces_render read hosted).parts
  rw [parse_eq, scheme, netloc, behind, ofParts_written, ← parse_eq, read]

end Url
end DiskStaging
