import DiskStaging.Proofs.PathUrls
import DiskStaging.Proofs.TransferOutcomes

/-!
# Texts that URLs give back

A URL that was read from text is not always written as that text. Characters that reading
ignores are gone, letters of the scheme have become small, delimiters of empty parts are left
out, and two slashes are put in front of the host part or left out, whether they were there
or not. Text without anything of this kind is canonical (`Url.Canonical`), and just the
canonical texts come back (`Url.render_eq_iff`). Names without delimiters are of that kind
(`Url.canonical_of_plain`).

The file that a transfer wrote is named by a URL that was read from its path, so the URL gives
the path back if that is canonical, and only then (`Session.transferred_url`).
-/

set_option autoImplicit false

namespace DiskStaging

namespace Url

open Text

/-! ## The parts of a text -/

/-- The scheme that a text starts with, in lower case. -/
def schemeOf (text : List Char) : List Char := (cutScheme text).1

/-- What stands behind the scheme. -/
def behindScheme (text : List Char) : List Char := (cutScheme text).2

/-- The host part. -/
def hostOf (text : List Char) : List Char := (cutNetloc (behindScheme text)).1

/-- What stands behind the host part. -/
def behindHost (text : List Char) : List Char := (cutNetloc (behindScheme text)).2

/-- What stands behind the host part, up to the fragment. -/
def beforeFragment (text : List Char) : List Char := (cutAt '#' (behindHost text)).1

/-- What stands behind the host part, up to the query. -/
def beforeQuery (text : List Char) : List Char := (cutAt '?' (beforeFragment text)).1

/-- The last segment of a path. -/
def lastSegment (path : List Char) : List Char := (path.reverse.takeWhile (· ≠ '/')).reverse

/-- Nothing stands behind the first occurrence of a character. -/
def Dangles (separator : Char) (text : List Char) : Bool := (cut? separator text).any (·.2.isEmpty)

/-- The parameters of the last segment of a path are announced, but empty. -/
def ParamsDangle (scheme path : List Char) : Bool :=
  schemesWithParams.contains (String.ofList scheme) && Dangles ';' (lastSegment path)

/-- Text as URLs are written. -/
structure Canonical (text : List Char) : Prop where
  /-- Reading ignores nothing. -/
  kept : ∀ c ∈ text, Kept c
  start : ∀ c ∈ text.head?, ' ' < c
  /-- The scheme is in lower case. -/
  lower : schemeOf text <+: text
  /-- Two slashes announce the host part where they will be written, and only there. -/
  slashes : ['/', '/'] <+: behindScheme text ↔
    showsHost (schemeOf text) (hostOf text) (behindHost text) = true
  /-- No part is announced and empty. -/
  fragment : Dangles '#' (behindHost text) = false
  query : Dangles '?' (beforeFragment text) = false
  params : ParamsDangle (schemeOf text) (beforeQuery text) = false

/-- A delimiter that stands at the end of a text and announces nothing. -/
def spare (separator : Char) (dangles : Bool) : List Char := if dangles then [separator] else []

/-! ## Parts and their delimiters -/

/-- Text is what stands before a delimiter and behind it, and the delimiter once more if it
dangles. -/
theorem eq_cutAt (separator : Char) (text : List Char) :
    text = (cutAt separator text).1 ++
      (delimited separator (cutAt separator text).2 ++
        spare separator (Dangles separator text)) := by
  cases found : cut? separator text with
  | none => simp [cutAt, Dangles, found, delimited, spare]
  | some pair =>
    obtain ⟨before, behind⟩ := pair
    have whole := eq_of_cut? found
    cases behind with
    | nil => simpa [cutAt, Dangles, found, delimited, spare] using whole
    | cons c more => simpa [cutAt, Dangles, found, delimited, spare] using whole

/-- What stands before a delimiter is free of it. -/
theorem not_mem_cutAt (separator : Char) (text : List Char) :
    separator ∉ (cutAt separator text).1 := by
  induction text with
  | nil => exact List.not_mem_nil
  | cons c rest ih =>
    rw [cutAt, cut?]
    split
    · exact List.not_mem_nil
    · rename_i other
      rw [cutAt] at ih
      cases found : cut? separator rest with
      | none =>
        rw [found] at ih
        exact List.not_mem_cons_of_ne_of_not_mem (Ne.symm other) ih
      | some pair =>
        rw [found] at ih
        exact List.not_mem_cons_of_ne_of_not_mem (Ne.symm other) ih

theorem head?_spare {separator c : Char} {dangles : Bool}
    (first : (spare separator dangles).head? = some c) : c = separator := by
  cases dangles with
  | false => cases first
  | true => exact (Option.some_inj.mp first).symm

theorem head?_delimited {separator c : Char} {part : List Char}
    (first : (delimited separator part).head? = some c) : c = separator := by
  cases part with
  | nil => cases first
  | cons => exact (Option.some_inj.mp first).symm

theorem lastSegment_suffix (path : List Char) : lastSegment path <:+ path := by
  have front : path.reverse.takeWhile (· ≠ '/') <+: path.reverse := List.takeWhile_prefix _
  have back := List.reverse_suffix.mpr front
  rwa [List.reverse_reverse] at back

/-- The parameters of a path are cut off its last segment. -/
theorem cutParams_eq {scheme path before : List Char}
    (params : schemesWithParams.contains (String.ofList scheme) = true)
    (whole : before ++ lastSegment path = path) :
    cutParams scheme path =
      (before ++ (cutAt ';' (lastSegment path)).1, (cutAt ';' (lastSegment path)).2) := by
  have front : path.take (path.length - (lastSegment path).length) = before := by
    have length := congrArg List.length whole
    rw [List.length_append] at length
    rw [← length, Nat.add_sub_cancel]
    exact (congrArg (List.take before.length) whole.symm).trans List.take_left
  have last : (path.reverse.takeWhile (· ≠ '/')).reverse = lastSegment path := rfl
  unfold cutParams
  rw [if_pos params]
  dsimp only
  rw [last, front]
  cases found : cut? ';' (lastSegment path) with
  | none => simp [cutAt, found, whole]
  | some pair => simp [cutAt, found]

/-- A path is its segments and their parameters. -/
theorem eq_cutParams (scheme path : List Char) :
    path = (cutParams scheme path).1 ++ delimited ';' (cutParams scheme path).2 ++
      spare ';' (ParamsDangle scheme path) := by
  by_cases params : schemesWithParams.contains (String.ofList scheme) = true
  · obtain ⟨before, whole⟩ := lastSegment_suffix path
    have last := eq_cutAt ';' (lastSegment path)
    rw [cutParams_eq params whole, ParamsDangle, params, Bool.true_and]
    rw [List.append_assoc, List.append_assoc, ← last, whole]
  · have other : cutParams scheme path = (path, []) := if_neg params
    rw [other, ParamsDangle, Bool.eq_false_iff.mpr params, Bool.false_and]
    simp [delimited, spare]

/-! ## Writing what was read -/

/-- The path that is read from a text, with its parameters, as it is written. -/
def writtenPath (text : List Char) : List Char :=
  (cutParams (schemeOf text) (beforeQuery text)).1 ++
    delimited ';' (cutParams (schemeOf text) (beforeQuery text)).2

/-- The query and the fragment that are read from a text, as they are written. -/
def writtenEnd (text : List Char) : List Char :=
  delimited '?' (cutAt '?' (beforeFragment text)).2 ++
    delimited '#' (cutAt '#' (behindHost text)).2

/-- The scheme that is read from a text, as it is written. -/
def writtenScheme (text : List Char) : List Char :=
  if (schemeOf text).isEmpty then [] else schemeOf text ++ [':']

/-- The URL that is read from a text, as it is written. -/
def written (text : List Char) : List Char :=
  writtenScheme text ++ hostAndPath (schemeOf text) (hostOf text) (writtenPath text) ++
    writtenEnd text

/-- What was read is written so. -/
theorem toList_render {text : String} {url : Url} (read : parse text = .ok url) :
    url.render.toList = written (cleaned text.toList) := by
  unfold parse at read
  simp only [Bind.bind, Except.bind, pure, Except.pure] at read
  split at read
  · cases read
  · split at read
    · cases read
    · cases read
      simp only [render, String.toList_ofList, written, writtenScheme, writtenPath, writtenEnd,
        schemeOf, hostOf, behindScheme, behindHost, beforeFragment, beforeQuery,
        List.append_assoc]
      rfl

theorem writtenPath_starts (text : List Char) : writtenPath text <+: beforeQuery text := by
  exact ⟨_, (eq_cutParams (schemeOf text) (beforeQuery text)).symm⟩

theorem cutAt_starts (separator : Char) (text : List Char) : (cutAt separator text).1 <+: text := by
  exact ⟨_, (eq_cutAt separator text).symm⟩

/-- What stands behind the host part is written without the delimiters that dangle. -/
theorem eq_behindHost (text : List Char) :
    behindHost text = writtenPath text ++
      spare ';' (ParamsDangle (schemeOf text) (beforeQuery text)) ++
      (delimited '?' (cutAt '?' (beforeFragment text)).2 ++
        spare '?' (Dangles '?' (beforeFragment text))) ++
      (delimited '#' (cutAt '#' (behindHost text)).2 ++
        spare '#' (Dangles '#' (behindHost text))) := by
  have path := eq_cutParams (schemeOf text) (beforeQuery text)
  have query := eq_cutAt '?' (beforeFragment text)
  have fragment := eq_cutAt '#' (behindHost text)
  rw [writtenPath, ← path]
  exact fragment.trans (congrArg (· ++ _) query)

/-- Nothing is written behind the host part that does not stand there. -/
theorem written_sublist (text : List Char) :
    (writtenPath text ++ writtenEnd text).Sublist (behindHost text) := by
  rw [eq_behindHost, writtenEnd, ← List.append_assoc]
  exact ((List.sublist_append_left _ _).append (List.sublist_append_left _ _)).append
    (List.sublist_append_left _ _)

/-- What stands behind the host part is written as it is if nothing dangles. -/
theorem written_eq_behindHost (text : List Char) :
    writtenPath text ++ writtenEnd text = behindHost text ↔
      Dangles '#' (behindHost text) = false ∧ Dangles '?' (beforeFragment text) = false ∧
        ParamsDangle (schemeOf text) (beforeQuery text) = false := by
  have whole := eq_behindHost text
  constructor
  · intro same
    have sizes := congrArg List.length (same.trans whole)
    rw [writtenEnd] at sizes
    simp only [List.length_append, spare] at sizes
    refine ⟨?_, ?_, ?_⟩
    all_goals
      refine Bool.eq_false_iff.mpr fun dangles => ?_
      simp only [dangles, if_true, List.length_cons, List.length_nil] at sizes
      omega
  · rintro ⟨fragment, query, params⟩
    rw [fragment, query, params] at whole
    simpa [spare, writtenEnd] using whole.symm

/-- How a text starts that has a scheme or none, and the scheme in lower case. -/
inductive Front : List Char → List Char → Prop
  | none : Front [] []
  | named {first : Char} {more : List Char} (letter : isLetter first = true)
    (chars : more.all isSchemeChar = true) :
    Front (first :: more ++ [':']) ((first :: more).map Char.toLower)

namespace Front

variable {front scheme : List Char}

/-- Every text starts so. -/
theorem exists_front (text : List Char) :
    ∃ front, Front front (schemeOf text) ∧ text = front ++ behindScheme text := by
  have unnamed (same : cutScheme text = ([], text)) :
      ∃ front, Front front (schemeOf text) ∧ text = front ++ behindScheme text := by
    refine ⟨[], ?_, ?_⟩
    · rw [schemeOf, same]
      exact .none
    · rw [behindScheme, same, List.nil_append]
  cases found : cut? ':' text with
  | none => exact unnamed (by rw [cutScheme, found])
  | some pair =>
    obtain ⟨before, behind⟩ := pair
    cases before with
    | nil => exact unnamed (by rw [cutScheme, found])
    | cons first more =>
      by_cases plain : (isLetter first && more.all isSchemeChar) = true
      · have cut : cutScheme text = ((first :: more).map Char.toLower, behind) := by
          rw [cutScheme, found]
          exact if_pos plain
        obtain ⟨letter, chars⟩ := Bool.and_eq_true_iff.mp plain
        refine ⟨first :: more ++ [':'], ?_, ?_⟩
        · rw [schemeOf, cut]
          exact .named letter chars
        · rw [behindScheme, cut, eq_of_cut? found]
          simp
      · refine unnamed ?_
        rw [cutScheme, found]
        exact if_neg plain

/-- In lower case, it is the scheme and a colon. -/
theorem map_toLower (start : Front front scheme) :
    front.map Char.toLower = if scheme.isEmpty then [] else scheme ++ [':'] := by
  cases start with
  | none => rfl
  | named letter chars => simp

/-- A text starts with its scheme as it is written just if that has no capitals. -/
theorem prefix_iff (start : Front front scheme) (behind : List Char) :
    scheme <+: front ++ behind ↔ (if scheme.isEmpty then [] else scheme ++ [':']) = front := by
  cases start with
  | none => simp
  | @named first more letter chars =>
    have size : ((first :: more).map Char.toLower).length = (first :: more).length :=
      List.length_map _
    rw [if_neg (by simp), List.append_assoc]
    refine ⟨fun starts => ?_, fun same => ?_⟩
    · have short := List.prefix_of_prefix_length_le starts (List.prefix_append _ _) size.le
      exact congrArg (· ++ [':']) (short.eq_of_length size)
    · rw [List.append_cancel_right same]
      exact List.prefix_append _ _

end Front

/-- The scheme is written in lower case. -/
theorem exists_front (text : List Char) :
    ∃ front, text = front ++ behindScheme text ∧ writtenScheme text = front.map Char.toLower ∧
      (schemeOf text <+: text ↔ writtenScheme text = front) := by
  obtain ⟨front, start, whole⟩ := Front.exists_front text
  have starts := start.prefix_iff (behindScheme text)
  rw [← whole] at starts
  exact ⟨front, whole, start.map_toLower.symm, starts⟩

/-- The host part is announced by two slashes, or there is none. -/
theorem announced_or_not (text : List Char) :
    (behindScheme text = ['/', '/'] ++ hostOf text ++ behindHost text ∧
      ∀ c ∈ (behindHost text).head?, c = '/' ∨ c = '?' ∨ c = '#') ∨
    (¬['/', '/'] <+: behindScheme text ∧ hostOf text = [] ∧
      behindHost text = behindScheme text) := by
  rw [hostOf, behindHost]
  generalize behindScheme text = rest
  unfold cutNetloc
  split
  · rename_i rest
    refine .inl ⟨?_, ?_⟩
    · simp
    · intro c first
      have outside := List.head?_dropWhile_not
        (fun c => decide (c ≠ '/') && decide (c ≠ '?') && decide (c ≠ '#')) rest
      rw [show List.head? _ = some c from first] at outside
      simpa [Decidable.or_iff_not_imp_left] using outside
  · rename_i other
    refine .inr ⟨?_, rfl, rfl⟩
    rintro ⟨rest, rfl⟩
    exact other rest rfl

/-- The path behind an announced host starts with a slash. -/
theorem slash_of_starts {text path : List Char}
    (first : ∀ c ∈ (behindHost text).head?, c = '/' ∨ c = '?' ∨ c = '#')
    (starts : path <+: beforeQuery text) : ∀ c ∈ path.head?, c = '/' := by
  intro c start
  obtain ⟨more, rfl⟩ : ∃ more, path = c :: more := List.head?_eq_some_iff.mp start
  have inFragment := starts.trans (cutAt_starts '?' _)
  have query : c ≠ '?' := fun same =>
    not_mem_cutAt '?' (beforeFragment text) (starts.subset (same ▸ List.mem_cons_self))
  have fragment : c ≠ '#' := fun same =>
    not_mem_cutAt '#' (behindHost text) (inFragment.subset (same ▸ List.mem_cons_self))
  obtain ⟨rest, whole⟩ := inFragment.trans (cutAt_starts '#' _)
  exact (first c (by rw [← whole]; rfl)).resolve_right (not_or.mpr ⟨query, fragment⟩)

/-- The path is written right behind the host, unless it is the path of a text without one. -/
theorem hostAndPath_of_announced {text : List Char}
    (first : ∀ c ∈ (behindHost text).head?, c = '/' ∨ c = '?' ∨ c = '#') :
    hostAndPath (schemeOf text) (hostOf text) (writtenPath text) =
      if showsHost (schemeOf text) (hostOf text) (writtenPath text) then
        ['/', '/'] ++ hostOf text ++ writtenPath text
      else writtenPath text := by
  have start : (!(writtenPath text).isEmpty && (writtenPath text).head? ≠ some '/') = false := by
    cases path : writtenPath text with
    | nil => rfl
    | cons c more =>
      have slash := slash_of_starts first (writtenPath_starts text) c (by rw [path]; rfl)
      simp [slash]
  rw [hostAndPath]
  simp only [start, Bool.false_eq_true, if_false]

/-- The path starts with two slashes if what stands behind the host part does. -/
theorem showsHost_writtenPath (text : List Char) :
    showsHost (schemeOf text) (hostOf text) (writtenPath text) =
      showsHost (schemeOf text) (hostOf text) (behindHost text) := by
  have behind : (behindHost text).take 2 = ['/', '/'] ↔
      (writtenPath text).take 2 = ['/', '/'] := by
    have start := eq_behindHost text
    simp only [List.append_assoc] at start
    generalize more : spare _ _ ++ _ = rest at start
    have other : rest.head? ≠ some '/' := by
      intro slash
      rw [← more] at slash
      simp only [List.head?_append, Option.or_eq_some_iff] at slash
      rcases slash with slash | ⟨-, slash | ⟨-, slash | ⟨-, slash | ⟨-, slash⟩⟩⟩⟩
      · exact absurd (head?_spare slash) (by decide)
      · exact absurd (head?_delimited slash) (by decide)
      · exact absurd (head?_spare slash) (by decide)
      · exact absurd (head?_delimited slash) (by decide)
      · exact absurd (head?_spare slash) (by decide)
    rw [start]
    cases writtenPath text with
    | nil =>
      cases rest with
      | nil => rfl
      | cons c rest =>
        have other : c ≠ '/' := fun same => other (congrArg some same)
        simp [other]
    | cons first path =>
      cases path with
      | nil =>
        cases rest with
        | nil => rfl
        | cons c rest =>
          have other : c ≠ '/' := fun same => other (congrArg some same)
          simp [other]
      | cons second path => rfl
  simp only [showsHost, behind]

/-- What stands behind the scheme is written as it is if the slashes are those that will be
written, and nothing dangles. -/
theorem written_eq_behindScheme (text : List Char) :
    hostAndPath (schemeOf text) (hostOf text) (writtenPath text) ++ writtenEnd text =
        behindScheme text ↔
      (['/', '/'] <+: behindScheme text ↔
        showsHost (schemeOf text) (hostOf text) (behindHost text) = true) ∧
      writtenPath text ++ writtenEnd text = behindHost text := by
  rw [← showsHost_writtenPath]
  rcases announced_or_not text with ⟨rest, first⟩ | ⟨absent, host, rest⟩
  · have size := congrArg List.length rest
    have less := (written_sublist text).length_le
    rw [hostAndPath_of_announced first, rest]
    simp only [List.append_assoc, List.prefix_append, true_iff]
    split
    · rename_i shown
      simp [shown]
    · rename_i hidden
      simp only [hidden, Bool.false_eq_true, false_and, iff_false]
      intro same
      have sizes := congrArg List.length same
      simp only [List.length_append, List.length_cons, List.length_nil] at sizes less
      omega
  · rw [rest]
    simp only [absent, false_iff]
    unfold hostAndPath
    split
    · rename_i shown
      simp only [shown, not_true, false_and, iff_false]
      intro same
      rw [List.append_assoc, List.append_assoc] at same
      exact absent ⟨_, same⟩
    · rename_i hidden
      simp [hidden]

/-- A text that reading ignores nothing of is written as it is if it is canonical. -/
theorem written_eq_iff (text : List Char) :
    written text = text ↔
      schemeOf text <+: text ∧
      (['/', '/'] <+: behindScheme text ↔
        showsHost (schemeOf text) (hostOf text) (behindHost text) = true) ∧
      Dangles '#' (behindHost text) = false ∧ Dangles '?' (beforeFragment text) = false ∧
        ParamsDangle (schemeOf text) (beforeQuery text) = false := by
  obtain ⟨front, whole, lower, starts⟩ := exists_front text
  have size : (writtenScheme text).length = front.length := by
    rw [lower, List.length_map]
  rw [starts, ← written_eq_behindHost, ← written_eq_behindScheme, written, List.append_assoc]
  constructor
  · intro same
    exact List.append_inj (same.trans whole) size
  · rintro ⟨scheme, rest⟩
    rw [scheme, rest]
    exact whole.symm

/-! ## What reading ignores -/

/-- Whether a character may be ignored: in front of a URL all of these are. -/
def isBlank (c : Char) : Bool := c ≤ ' '

/-- Text that starts with no blank and has no tab and no line end is read as it is. -/
theorem cleaned_eq_iff (text : List Char) :
    cleaned text = text ↔ (∀ c ∈ text, Kept c) ∧ ∀ c ∈ text.head?, ' ' < c := by
  constructor
  · intro same
    refine ⟨fun c inside => ?_, fun c first => ?_⟩
    · rw [← same, cleaned] at inside
      simpa [Kept, and_assoc] using (List.mem_filter.mp inside).2
    · have short : text.length ≤ (text.dropWhile (· ≤ ' ')).length := by
        conv_lhs => rw [← same]
        exact List.length_filter_le _ _
      have start := (List.dropWhile_sublist (· ≤ ' ')).eq_of_length_le short
      have outside := List.head?_dropWhile_not (· ≤ ' ') text
      rw [start, show text.head? = some c from first] at outside
      simpa using outside
  · rintro ⟨kept, start⟩
    have front : text.dropWhile (· ≤ ' ') = text := by
      cases text with
      | nil => rfl
      | cons c rest => simp [start c rfl]
    rw [cleaned, front, List.filter_eq_self]
    intro c inside
    obtain ⟨tab, feed, line⟩ := kept c inside
    simp [tab, feed, line]

/-- Only blanks are ignored. -/
theorem countP_cleaned (text : List Char) :
    (cleaned text).countP (fun c => ¬isBlank c) = text.countP fun c => ¬isBlank c := by
  have front : (text.takeWhile isBlank).countP (fun c => ¬isBlank c) = 0 := by
    refine List.countP_eq_zero.mpr fun c inside => ?_
    simp [List.all_eq_true.mp List.all_takeWhile c inside]
  have inner : (text.dropWhile isBlank).countP (fun c => ¬isBlank c) =
      text.countP fun c => ¬isBlank c := by
    conv_rhs => rw [← List.takeWhile_append_dropWhile (p := isBlank) (l := text)]
    rw [List.countP_append, front, Nat.zero_add]
  rw [← inner, cleaned, List.countP_filter]
  refine List.countP_congr fun c _ => ?_
  simp only [Bool.and_eq_true, decide_eq_true_eq, ne_eq, and_iff_left_iff_imp]
  intro visible
  refine ⟨⟨?_, ?_⟩, ?_⟩ <;> rintro rfl <;> exact visible rfl

theorem isBlank_toLower (c : Char) : isBlank c.toLower = isBlank c := by
  unfold isBlank Char.toLower
  split
  · rename_i capital
    have first : 65 ≤ c.val.toNat := UInt32.le_iff_toNat_le.mp capital.1
    have last : c.val.toNat ≤ 90 := UInt32.le_iff_toNat_le.mp capital.2
    have here : ¬c.val.toNat ≤ 32 := by omega
    have small : ¬(c.val + 32).toNat ≤ 32 := by
      have sum : (c.val + 32).toNat = (c.val.toNat + 32) % 2 ^ 32 := UInt32.toNat_add _ _
      omega
    exact (decide_eq_false small).trans (decide_eq_false here).symm
  · rfl

/-- Writing adds no blank. -/
theorem countP_written (text : List Char) :
    (written text).countP isBlank ≤ text.countP isBlank := by
  obtain ⟨front, whole, lower, -⟩ := exists_front text
  have scheme : (writtenScheme text).countP isBlank = front.countP isBlank := by
    rw [lower, List.countP_map]
    exact List.countP_congr fun c _ => by rw [Function.comp_apply, isBlank_toLower]
  have slashes (rest : List Char) : ('/' :: rest).countP isBlank = rest.countP isBlank :=
    List.countP_cons_of_neg (by decide)
  have path : (hostAndPath (schemeOf text) (hostOf text) (writtenPath text)).countP isBlank ≤
      (hostOf text).countP isBlank + (writtenPath text).countP isBlank := by
    unfold hostAndPath
    dsimp only
    split
    · split
      · rename_i rest
        simp only [List.cons_append, List.nil_append, slashes, List.countP_append, le_refl]
      · simp only [List.cons_append, List.nil_append, slashes, List.countP_append, le_refl]
    · omega
  have tail : (writtenPath text ++ writtenEnd text).countP isBlank ≤
      (behindHost text).countP isBlank := (written_sublist text).countP_le
  have host : (behindScheme text).countP isBlank =
      (hostOf text).countP isBlank + (behindHost text).countP isBlank := by
    rcases announced_or_not text with ⟨rest, -⟩ | ⟨-, host, rest⟩
    · rw [rest]
      simp only [List.cons_append, List.nil_append, slashes, List.countP_append]
    · rw [host, rest, List.countP_nil, Nat.zero_add]
  have total := congrArg (List.countP isBlank) whole
  rw [List.countP_append] at total tail
  rw [written, List.countP_append, List.countP_append]
  omega

/-- A URL is not written as its text if reading ignored something. -/
theorem cleaned_of_written {text : List Char} (same : written (cleaned text) = text) :
    cleaned text = text := by
  have part : (cleaned text).Sublist text :=
    List.filter_sublist.trans (List.dropWhile_sublist _)
  have blanks := countP_written (cleaned text)
  have others := countP_cleaned text
  rw [same] at blanks
  refine part.eq_of_length_le ?_
  calc text.length
    _ = text.countP isBlank + text.countP (fun c => ¬isBlank c) :=
        List.length_eq_countP_add_countP isBlank
    _ ≤ (cleaned text).countP isBlank + (cleaned text).countP (fun c => ¬isBlank c) := by omega
    _ = (cleaned text).length := (List.length_eq_countP_add_countP isBlank).symm

/-- **The texts that URLs give back** are the canonical ones. -/
theorem render_eq_iff {text : String} {url : Url} (read : parse text = .ok url) :
    url.render = text ↔ Canonical text.toList := by
  rw [← String.toList_inj, toList_render read]
  constructor
  · intro same
    have whole := cleaned_of_written same
    rw [whole] at same
    obtain ⟨kept, start⟩ := (cleaned_eq_iff _).mp whole
    obtain ⟨lower, slashes, fragment, query, params⟩ := (written_eq_iff _).mp same
    exact ⟨kept, start, lower, slashes, fragment, query, params⟩
  · intro canonical
    rw [(cleaned_eq_iff _).mpr ⟨canonical.kept, canonical.start⟩]
    exact (written_eq_iff _).mpr ⟨canonical.lower, canonical.slashes, canonical.fragment,
      canonical.query, canonical.params⟩

/-- Text without anything that delimits the parts of a URL is canonical. -/
theorem canonical_of_plain {text : List Char} (kept : ∀ c ∈ text, Kept c)
    (start : ∀ c ∈ text.head?, ' ' < c) (plain : ∀ c ∈ [':', '#', '?', ';'], c ∉ text)
    (apart : ¬['/', '/'] <+: text) : Canonical text := by
  have scheme : cutScheme text = ([], text) := by
    rw [cutScheme, cut?_of_not_mem (plain ':' (by simp))]
  have behind : behindScheme text = text := by rw [behindScheme, scheme]
  have dangles (separator : Char) {part : List Char}
      (delimits : separator ∈ [':', '#', '?', ';']) (inside : part ⊆ text) :
      Dangles separator part = false := by
    rw [Dangles, cut?_of_not_mem fun found => plain separator delimits (inside found)]
    rfl
  obtain ⟨host, rest⟩ : hostOf text = [] ∧ behindHost text = text := by
    rcases announced_or_not text with ⟨rest, -⟩ | ⟨-, host, rest⟩
    · refine absurd ⟨hostOf text ++ behindHost text, ?_⟩ apart
      rw [← List.append_assoc, ← rest, behind]
    · exact ⟨host, rest.trans behind⟩
  have inFragment : beforeFragment text ⊆ text := by
    intro c inside
    exact rest ▸ (cutAt_starts '#' (behindHost text)).subset inside
  have inQuery : beforeQuery text ⊆ text := by
    intro c inside
    exact inFragment ((cutAt_starts '?' (beforeFragment text)).subset inside)
  refine ⟨kept, start, ?_, ?_, ?_, ?_, ?_⟩
  · rw [schemeOf, scheme]
    exact List.nil_prefix
  · have shown : showsHost (schemeOf text) (hostOf text) (behindHost text) = true ↔
        text.take 2 = ['/', '/'] := by
      rw [host, rest, schemeOf, scheme]
      simp [showsHost]
    rw [behind, shown]
    refine ⟨fun starts => absurd starts apart, fun starts => ?_⟩
    rw [← starts]
    exact List.take_prefix 2 text
  · exact dangles '#' (by simp) (by rw [rest]; exact List.Subset.refl text)
  · exact dangles '?' (by simp) inFragment
  · have last := dangles ';' (by simp)
      (List.Subset.trans (lastSegment_suffix _).subset inQuery)
    rw [ParamsDangle, last, Bool.and_false]

end Url

/-! ## Where an image is after a transfer -/

namespace Session

/-- A URL was read from a path, and gives it back if the text of the path is canonical. -/
structure ReadFrom (url : Url) (path : Path) : Prop where
  read : Url.parse path.render = .ok url
  back : url.render = path.render ↔ Url.Canonical path.render.toList

/-- **After a transfer, the URL of the image names the file if its path is canonical.** The
URL is the path read as one, and it is not written as the path otherwise. -/
theorem transferred_url (session after : Session) :
    (∀ path, perform (.transferFile path) session = .ok (some ⟨.resize, none⟩) after →
      ReadFrom after.intake.url path) ∧
    ∀ scratch, perform (.transfer scratch) session = .ok (some ⟨.convert, none⟩) after →
      ReadFrom after.intake.url (stagingPath scratch) := by
  refine ⟨fun path done => ?_, fun scratch done => ?_⟩
  · obtain ⟨_, _, went⟩ := goesOn_of_done rfl done
    obtain ⟨place, target⟩ := went.target
    cases target
    exact ⟨went.url, Url.render_eq_iff went.url⟩
  · obtain ⟨_, _, went⟩ := goesOn_of_done rfl done
    obtain ⟨place, target⟩ := went.target
    cases target
    exact ⟨went.url, Url.render_eq_iff went.url⟩

/-- Transfers of three raw bytes into a file of the working directory. -/
theorem perform_lookedAt {name : String} {url : Url}
    (opened : (lookedAt [1, 2, 3] .raw).files.openFile ⟨.here, [name]⟩ =
      .ok ["tmp", "work", name])
    (read : Url.parse (Path.mk .here [name]).render = .ok url) :
    ∃ after, perform (.transferFile ⟨.here, [name]⟩) (lookedAt [1, 2, 3] .raw) =
      .ok (some ⟨.resize, none⟩) after := by
  have whole : (Content.pour ⟨.root { rest := [], position := 3 } { peeked := [1, 2, 3] }⟩
      (sizeAsked none)).fault = none := by decide +kernel
  exact ⟨_, perform_goesOn (lookedAt [1, 2, 3] .raw) (.file opened) rfl rfl rfl whole read⟩

/-- A plain name comes back. The URL of a file whose name ends in a delimiter names another
file. -/
theorem transferred_url_names :
    (∃ after, perform (.transferFile ⟨.here, ["disk"]⟩) (lookedAt [1, 2, 3] .raw) =
        .ok (some ⟨.resize, none⟩) after ∧ after.intake.url.render = "disk") ∧
      ∃ after, perform (.transferFile ⟨.here, ["a#"]⟩) (lookedAt [1, 2, 3] .raw) =
        .ok (some ⟨.resize, none⟩) after ∧ after.intake.url.render ≠ "a#" := by
  have disk : Url.parse (Path.mk .here ["disk"]).render = .ok ⟨"", "", "disk", "", "", ""⟩ := by
    decide +kernel
  have spare : Url.parse (Path.mk .here ["a#"]).render = .ok ⟨"", "", "a", "", "", ""⟩ := by
    decide +kernel
  refine ⟨?_, ?_⟩
  · obtain ⟨after, done⟩ := perform_lookedAt (by cbv) disk
    have text : (Path.mk .here ["disk"]).render.toList = ['d', 'i', 's', 'k'] := by decide
    refine ⟨after, done, ((transferred_url _ _).1 _ done).back.mpr ?_⟩
    rw [text]
    exact Url.canonical_of_plain (by simp [Url.Kept]) (by simp) (by simp) (by decide)
  · obtain ⟨after, done⟩ := perform_lookedAt (by cbv) spare
    refine ⟨after, done, fun same => ?_⟩
    have canonical := ((transferred_url _ _).1 _ done).back.mp same
    exact absurd canonical.fragment (by decide +kernel)

end Session

end DiskStaging
