import DiskStaging.Location
import DiskStaging.Proofs.PercentCoding
import DiskStaging.Proofs.UrlTexts

/-!
# Locating objects by encoded endpoints

An endpoint that is put together from a scheme, a host and a path is a URL of just these parts,
apart from what reading ignores and the parameters at the end (`Url.parse_addressed`), and
encoded text has neither. So the bucket and the key that were encoded into an endpoint are
those that locating it gives, whatever characters they have, both where the host part is the
bucket and where the path names it (`locate_encoded`).
-/

set_option autoImplicit false

namespace DiskStaging

open Text Percent

namespace Url

/-! ## URLs of encoded parts -/

/-- A character of an encoded endpoint. -/
def IsBasic (c : Char) : Prop := isUnreserved c = true ∨ c = '%' ∨ c = '/' ∨ c = ':'

theorem IsBasic.visible {c : Char} (basic : IsBasic c) : ' ' < c := by
  have least {first : Char} (after : first ≤ c) (visible : ' ' < first) : ' ' < c :=
    lt_of_lt_of_le visible after
  rcases basic with unreserved | rfl | rfl | rfl
  · simp only [isUnreserved, isLetter, Bool.or_eq_true, Bool.and_eq_true,
      decide_eq_true_eq] at unreserved
    rcases unreserved with (((((small | capital) | digit) | rfl) | rfl) | rfl) | rfl
    · exact least small.1 (by decide)
    · exact least capital.1 (by decide)
    · exact least digit.1 (by decide)
    all_goals decide
  all_goals decide

theorem IsBasic.ascii {c : Char} (basic : IsBasic c) : c.toNat < 128 := by
  rcases basic with unreserved | rfl | rfl | rfl
  · exact toNat_lt_of_isUnreserved unreserved
  all_goals decide

theorem IsBasic.kept {c : Char} (basic : IsBasic c) : Kept c := by
  have visible := basic.visible
  refine ⟨?_, ?_, ?_⟩ <;> rintro rfl <;> exact absurd visible (by decide)

/-- Basic characters delimit nothing behind the host part. -/
theorem IsBasic.apart {c : Char} (basic : IsBasic c) : c ∉ ['#', '?', ';', '[', ']'] := by
  intro listed
  simp only [List.mem_cons, List.not_mem_nil, or_false] at listed
  rcases listed with rfl | rfl | rfl | rfl | rfl
  all_goals
    rcases basic with unreserved | same | same | same
    · cases unreserved
    all_goals exact absurd same (by decide)

/-- A scheme: unreserved characters that may stand in one, in lower case. -/
def isPlainScheme (scheme : List Char) : Bool :=
  match scheme with
  | [] => false
  | first :: more => isLetter first && more.all isSchemeChar && (first :: more).all isUnreserved &&
    (first :: more).map Char.toLower = first :: more

theorem isUnreserved_of_plainScheme {scheme : List Char} (plain : isPlainScheme scheme = true)
    {c : Char} (inside : c ∈ scheme) : isUnreserved c = true := by
  cases scheme with
  | nil => cases inside
  | cons first more =>
    simp only [isPlainScheme, Bool.and_eq_true] at plain
    exact List.all_eq_true.mp plain.1.2 c inside

theorem cutScheme_hosted {scheme : List Char} (plain : isPlainScheme scheme = true)
    (behind : List Char) : cutScheme (scheme ++ ':' :: behind) = (scheme, behind) := by
  cases scheme with
  | nil => cases plain
  | cons first more =>
    have colon : ':' ∉ first :: more := by
      intro inside
      cases isUnreserved_of_plainScheme plain inside
    simp only [isPlainScheme, Bool.and_eq_true, decide_eq_true_eq] at plain
    obtain ⟨⟨⟨letter, chars⟩, -⟩, lower⟩ := plain
    rw [cutScheme, cut?_append colon]
    simp only [letter, chars, lower, Bool.and_self, if_true]

theorem cutNetloc_hosted {host : List Char} (plain : ∀ c ∈ host, c ∉ ['/', '?', '#'])
    (path : List Char) :
    cutNetloc ('/' :: '/' :: (host ++ '/' :: path)) = (host, '/' :: path) := by
  have inside (c : Char) (listed : c ∈ host) : (c ≠ '/' && c ≠ '?' && c ≠ '#') = true := by
    simpa [and_assoc] using plain c listed
  simp only [cutNetloc]
  rw [List.takeWhile_append_of_pos inside, List.dropWhile_append_of_pos inside]
  simp

theorem cutAt_of_not_mem {separator : Char} {text : List Char} (absent : separator ∉ text) :
    cutAt separator text = (text, []) := by
  rw [cutAt, cut?_of_not_mem absent]
  rfl

theorem cutParams_of_not_mem (scheme : List Char) {path : List Char}
    (absent : ';' ∉ lastSegment path) : cutParams scheme path = (path, []) := by
  by_cases params : schemesWithParams.contains (String.ofList scheme) = true
  · obtain ⟨before, whole⟩ := lastSegment_suffix path
    rw [cutParams_eq params whole, cutAt_of_not_mem absent, whole]
  · exact if_neg params

theorem checkBrackets_of_not_mem {netloc : List Char} (opening : '[' ∉ netloc)
    (closing : ']' ∉ netloc) : checkBrackets netloc = .ok () := by
  rw [checkBrackets]
  simp [opening, closing]

theorem checkLookalikes_of_ascii {netloc : List Char} (ascii : ∀ c ∈ netloc, c.toNat < 128) :
    checkLookalikes netloc = .ok () := by
  have outside : ∀ value ∈ lookalikes, 128 ≤ value := by decide
  refine if_neg ?_
  intro found
  obtain ⟨c, inside, listed⟩ := List.any_eq_true.mp found
  exact absurd (outside _ (List.contains_iff_mem.mp listed)) (Nat.not_le.mpr (ascii c inside))

theorem isBasic_of_isEncoded {c : Char} (encoded : c = '/' ∨ IsEncoded c) : IsBasic c := by
  rcases encoded with rfl | unreserved | rfl
  · exact .inr (.inr (.inl rfl))
  · exact .inl unreserved
  · exact .inr (.inl rfl)

/-- Text without the tabs and line ends that reading ignores. -/
def unbroken (text : List Char) : List Char := text.filter (Kept ·)

theorem unbroken_of_kept {text : List Char} (kept : ∀ c ∈ text, Kept c) : unbroken text = text :=
  List.filter_eq_self.mpr fun c inside => decide_eq_true (kept c inside)

theorem unbroken_append {front : List Char} (kept : ∀ c ∈ front, Kept c) (text : List Char) :
    unbroken (front ++ text) = front ++ unbroken text := by
  rw [unbroken, List.filter_append]
  exact congrArg (· ++ unbroken text) (unbroken_of_kept kept)

theorem cleaned_eq (text : List Char) : cleaned text = unbroken (text.dropWhile (· ≤ ' ')) := by
  have same : (fun c => c ≠ '\t' && c ≠ '\r' && c ≠ '\n' : Char → Bool) = (Kept ·) := by
    funext c
    rw [Bool.eq_iff_iff, decide_eq_true_iff]
    simp [Kept, and_assoc]
  rw [cleaned, same, unbroken]

/-- Behind characters that reading keeps, it ignores only tabs and line ends. -/
theorem cleaned_append {front : List Char} (some : front ≠ []) (basic : ∀ c ∈ front, IsBasic c)
    (text : List Char) : cleaned (front ++ text) = front ++ unbroken text := by
  obtain ⟨first, more, rfl⟩ := List.exists_cons_of_ne_nil some
  have visible : ¬first ≤ ' ' := not_le.mpr (basic first List.mem_cons_self).visible
  rw [cleaned_eq, List.cons_append, List.dropWhile_cons_of_neg (by simpa using visible),
    ← List.cons_append, unbroken_append fun c inside => (basic c inside).kept]

/-- What stands in front of the path, behind it a slash. -/
theorem isBasic_front {scheme host : List Char} (plain : isPlainScheme scheme = true)
    (hosted : ∀ c ∈ host, isUnreserved c = true ∨ c = ':') :
    ∀ c ∈ scheme ++ ':' :: '/' :: '/' :: (host ++ ['/']), IsBasic c := by
  intro c inside
  rcases List.mem_append.mp inside with inside | inside
  · exact .inl (isUnreserved_of_plainScheme plain inside)
  · simp only [List.mem_cons, List.mem_append, List.not_mem_nil, or_false] at inside
    rcases inside with rfl | rfl | rfl | inside | rfl
    · exact .inr (.inr (.inr rfl))
    · exact .inr (.inr (.inl rfl))
    · exact .inr (.inr (.inl rfl))
    · exact (hosted c inside).imp_right fun colon => .inr (.inr colon)
    · exact .inr (.inr (.inl rfl))

/-- **A scheme, a host and a path make a URL of these parts.** Only tabs and line ends are gone
from the path, and the parameters of its last segment stand apart. -/
theorem parse_addressed {scheme host path : String} (plain : isPlainScheme scheme.toList = true)
    (hosted : ∀ c ∈ host.toList, isUnreserved c = true ∨ c = ':')
    (query : '?' ∉ path.toList) (fragment : '#' ∉ path.toList) :
    parse (scheme ++ "://" ++ host ++ "/" ++ path) =
      .ok ⟨scheme, host,
        String.ofList (cutParams scheme.toList ('/' :: unbroken path.toList)).1,
        String.ofList (cutParams scheme.toList ('/' :: unbroken path.toList)).2, "", ""⟩ := by
  have text : (scheme ++ "://" ++ host ++ "/" ++ path).toList =
      (scheme.toList ++ ':' :: '/' :: '/' :: (host.toList ++ ['/'])) ++ path.toList := by
    simp [String.toList_append]
  have basic := isBasic_front plain hosted
  have netloc (c : Char) (inside : c ∈ host.toList) : IsBasic c := basic c (by simp [inside])
  have clean : cleaned (scheme ++ "://" ++ host ++ "/" ++ path).toList =
      scheme.toList ++ ':' :: '/' :: '/' :: (host.toList ++ '/' :: unbroken path.toList) := by
    rw [text, cleaned_append (by simp) basic]
    simp
  have inHost (c : Char) (inside : c ∈ host.toList) : c ∉ ['/', '?', '#'] := by
    intro listed
    simp only [List.mem_cons, List.not_mem_nil, or_false] at listed
    rcases listed with rfl | rfl | rfl
    all_goals
      rcases hosted _ inside with unreserved | colon
      · cases unreserved
      · exact absurd colon (by decide)
  have notThere {separator : Char} (slash : separator ≠ '/') (absent : separator ∉ path.toList) :
      separator ∉ '/' :: unbroken path.toList :=
    List.not_mem_cons_of_ne_of_not_mem slash (mt List.mem_of_mem_filter absent)
  have brackets : checkBrackets host.toList = .ok () :=
    checkBrackets_of_not_mem (fun inside => (netloc _ inside).apart (by simp))
      fun inside => (netloc _ inside).apart (by simp)
  have lookalikes := checkLookalikes_of_ascii fun c inside => (netloc c inside).ascii
  unfold parse
  simp only [clean, cutScheme_hosted plain, cutNetloc_hosted inHost, brackets,
    cutAt_of_not_mem (notThere (by decide) fragment),
    cutAt_of_not_mem (notThere (by decide) query), lookalikes]
  simp only [Bind.bind, Except.bind, pure, Except.pure, String.ofList_toList]

/-- An encoded path is read as it is, and has no parameters. -/
theorem cutParams_encodePath (scheme text : List Char) :
    cutParams scheme ('/' :: unbroken (encodePath text)) = ('/' :: encodePath text, []) := by
  have basic (c : Char) (inside : c ∈ encodePath text) : IsBasic c :=
    isBasic_of_isEncoded (isEncoded_encodePath inside)
  have params : ';' ∉ '/' :: encodePath text :=
    List.not_mem_cons_of_ne_of_not_mem (by decide) fun inside => (basic _ inside).apart (by simp)
  have last : ';' ∉ lastSegment ('/' :: encodePath text) := fun inside =>
    params ((lastSegment_suffix _).subset inside)
  rw [unbroken_of_kept fun c inside => (basic c inside).kept, cutParams_of_not_mem scheme last]

end Url

/-! ## Endpoints -/

/-- Text with escapes for all bytes but those of unreserved characters. -/
def encoded (text : String) : String := String.ofList (encode text.toList)

/-- A path whose segments are encoded. -/
def encodedPath (text : String) : String := String.ofList (encodePath text.toList)

/-- A character of a host name. -/
def isHostChar (c : Char) : Bool :=
  ('a' ≤ c && c ≤ 'z') || ('0' ≤ c && c ≤ '9') || c = '.' || c = '-'

/-- A character of the name of a bucket that is a host. -/
def isBucketChar (c : Char) : Bool := isHostChar c || c = '_'

/-- A port behind a host, or nothing. -/
def IsPort (port : String) : Prop :=
  port = "" ∨ ∃ digits, port = ":" ++ digits ∧ ∀ c ∈ digits.toList, '0' ≤ c ∧ c ≤ '9'

/-- The ways in which an endpoint of a scheme names a bucket and a key. -/
inductive Names (bucket key : String) : String → String → Prop
  /-- The host part is the bucket. -/
  | storage {scheme : String} (known : scheme ∈ ["gs", "s3"])
    (plain : ∀ c ∈ bucket.toList, isBucketChar c = true) :
    Names bucket key scheme (scheme ++ "://" ++ bucket ++ "/" ++ encodedPath key)
  /-- The first segment of the path is the bucket. -/
  | web {scheme host port : String} (known : scheme ∈ ["http", "https"]) (some : host ≠ "")
    (plain : ∀ c ∈ host.toList, isHostChar c = true) (ported : IsPort port)
    (single : '/' ∉ bucket.toList) :
    Names bucket key scheme
      (scheme ++ "://" ++ (host ++ port) ++ "/" ++ (encoded bucket ++ "/" ++ encodedPath key))

/-- The characters of a port. -/
theorem IsPort.chars {port : String} (ported : IsPort port) {c : Char} (inside : c ∈ port.toList) :
    isUnreserved c = true ∨ c = ':' := by
  rcases ported with rfl | ⟨digits, rfl, decimal⟩
  · cases inside
  · rw [String.toList_append] at inside
    rcases List.mem_append.mp inside with colon | inside
    · exact .inr (List.mem_singleton.mp colon)
    · obtain ⟨least, most⟩ := decimal c inside
      simp [isUnreserved, least, most]

theorem splitObject_append {bucket : String} (single : '/' ∉ bucket.toList) (key : String) :
    splitObject (bucket ++ "/" ++ key) = (bucket, key) := by
  have text : (bucket ++ "/" ++ key).toList = bucket.toList ++ '/' :: key.toList := by
    simp [String.toList_append]
  simp only [splitObject, text, cut?_append single, String.ofList_toList]

theorem isUnreserved_of_isHostChar {c : Char} (plain : isHostChar c = true) :
    isUnreserved c = true := by
  simp only [isHostChar, Bool.or_eq_true, Bool.and_eq_true, decide_eq_true_eq] at plain
  simp only [isUnreserved, Url.isLetter, Bool.or_eq_true, Bool.and_eq_true, decide_eq_true_eq]
  tauto

theorem isUnreserved_of_isBucketChar {c : Char} (plain : isBucketChar c = true) :
    isUnreserved c = true := by
  rcases Bool.or_eq_true_iff.mp plain with plain | line
  · exact isUnreserved_of_isHostChar plain
  · rw [of_decide_eq_true line]
    decide

/-- An endpoint is well-formed if its path is. -/
theorem wellFormed_addressed {scheme host : String} (plain : '%' ∉ scheme.toList ++ host.toList)
    (path : String) :
    wellFormed (scheme ++ "://" ++ host ++ "/" ++ path).toList = wellFormed path.toList := by
  have front : '%' ∉ scheme.toList ++ ([':', '/', '/'] ++ (host.toList ++ ['/'])) := by
    simp only [List.mem_append, not_or] at plain ⊢
    exact ⟨plain.1, by decide, plain.2, by decide⟩
  have whole : (scheme ++ "://" ++ host ++ "/" ++ path).toList =
      scheme.toList ++ ([':', '/', '/'] ++ (host.toList ++ ['/'])) ++ path.toList := by
    simp [String.toList_append]
  rw [whole, wellFormed_append front]

/-- An endpoint of a scheme, a host and a path is read if the escapes of the path are. -/
theorem parseEndpoint_addressed {scheme host path : String} {schemes : List String}
    (plain : Url.isPlainScheme scheme.toList = true) (some : host ≠ "")
    (hosted : ∀ c ∈ host.toList, isUnreserved c = true ∨ c = ':') (listed : scheme ∈ schemes)
    (query : '?' ∉ path.toList) (fragment : '#' ∉ path.toList) :
    parseEndpoint (scheme ++ "://" ++ host ++ "/" ++ path) schemes =
      if wellFormed path.toList then
        .ok ⟨scheme, host,
          String.ofList (Url.cutParams scheme.toList ('/' :: Url.unbroken path.toList)).1,
          String.ofList (Url.cutParams scheme.toList ('/' :: Url.unbroken path.toList)).2, "", ""⟩
      else .error .badEscape := by
  have percent : '%' ∉ scheme.toList ++ host.toList := by
    intro inside
    rcases List.mem_append.mp inside with inside | inside
    · cases Url.isUnreserved_of_plainScheme plain inside
    · rcases hosted _ inside with unreserved | colon
      · cases unreserved
      · exact absurd colon (by decide)
  have long : (scheme ++ "://" ++ host ++ "/" ++ path).isEmpty = false := by
    rw [String.isEmpty_eq_false_iff]
    intro none
    have none := congrArg String.toList none
    simp [String.toList_append] at none
  have read := Url.parse_addressed plain hosted query fragment
  rw [parseEndpoint, long, wellFormed_addressed percent, read]
  cases wellFormed path.toList with
  | false => rfl
  | true => simp [listed, some]

/-- Locating what a path names, once the path was decoded. -/
theorem locate_hosted {scheme host bucket key : String} {schemes : List String} {text : List Char}
    (plain : Url.isPlainScheme scheme.toList = true) (some : host ≠ "")
    (hosted : ∀ c ∈ host.toList, isUnreserved c = true ∨ c = ':') (listed : scheme ∈ schemes)
    (object : objectPath ⟨scheme, host, "/" ++ String.ofList (encodePath text), "", "", ""⟩ =
      bucket ++ "/" ++ key)
    (single : '/' ∉ bucket.toList) (named : bucket ≠ "") (keyed : key ≠ "") :
    locate (scheme ++ "://" ++ host ++ "/" ++ String.ofList (encodePath text)) schemes =
      .ok ⟨⟨scheme, host, "/" ++ String.ofList (encodePath text), "", "", ""⟩, bucket, key⟩ := by
  have notThere {separator : Char} (apart : separator ∈ ['#', '?', ';', '[', ']']) :
      separator ∉ (String.ofList (encodePath text)).toList := by
    rw [String.toList_ofList]
    exact fun inside => (Url.isBasic_of_isEncoded (isEncoded_encodePath inside)).apart apart
  have good : wellFormed (encodePath text) = true := by
    have read := wellFormed_encodePath text []
    rwa [List.append_nil] at read
  have whole : String.ofList ('/' :: encodePath text) = "/" ++ String.ofList (encodePath text) := by
    rw [← String.toList_inj]
    simp
  have parsed := parseEndpoint_addressed plain some hosted listed (notThere (by simp))
    (notThere (by simp))
  rw [String.toList_ofList, good, if_pos rfl, Url.cutParams_encodePath, whole] at parsed
  simp only [locate, parsed, Bind.bind, Except.bind, object, splitObject_append single]
  simp [named, keyed]
  rfl

theorem objectPath_of_storage {url : Url} (known : url.scheme ∈ ["gs", "s3"]) :
    objectPath url = url.netloc ++ String.ofList (decode url.path.toList) := by
  have storage : ∀ scheme ∈ ["gs", "s3"], ¬(scheme = "http" || scheme = "https") = true := by
    decide
  rw [objectPath, if_neg (storage _ known)]

theorem objectPath_of_web {url : Url} (known : url.scheme ∈ ["http", "https"]) :
    objectPath url = String.ofList (decode (url.path.toList.dropWhile (· = '/'))) := by
  have web : ∀ scheme ∈ ["http", "https"], (scheme = "http" || scheme = "https") = true := by
    decide
  rw [objectPath, if_pos (web _ known)]

/-- In URLs of storage schemes, the host part is the bucket and the path is the key. -/
theorem objectPath_storage {scheme : String} (known : scheme ∈ ["gs", "s3"])
    (bucket key : String) :
    objectPath ⟨scheme, bucket, "/" ++ encodedPath key, "", "", ""⟩ = bucket ++ "/" ++ key := by
  have path : ("/" ++ encodedPath key).toList = encodePath ('/' :: key.toList) := by
    have segments : encodePath ('/' :: key.toList) = '/' :: encodePath key.toList :=
      encodePath_append List.not_mem_nil key.toList
    rw [segments]
    simp [String.toList_append, encodedPath]
  have slash : String.ofList ('/' :: key.toList) = "/" ++ key := by
    rw [← String.toList_inj]
    simp
  rw [objectPath_of_storage known, path, decode_encodePath, slash, String.append_assoc]

/-- In web URLs, the first segment of the path is the bucket. -/
theorem objectPath_web {scheme bucket : String} (known : scheme ∈ ["http", "https"])
    (netloc : String) (named : bucket ≠ "") (single : '/' ∉ bucket.toList) (key : String) :
    objectPath ⟨scheme, netloc, "/" ++ (encoded bucket ++ "/" ++ encodedPath key), "", "", ""⟩ =
      bucket ++ "/" ++ key := by
  have path : ("/" ++ (encoded bucket ++ "/" ++ encodedPath key)).toList =
      '/' :: encodePath (bucket.toList ++ '/' :: key.toList) := by
    rw [encodePath_append single]
    simp [String.toList_append, encoded, encodedPath]
  have start : (encodePath (bucket.toList ++ '/' :: key.toList)).dropWhile (· = '/') =
      encodePath (bucket.toList ++ '/' :: key.toList) := by
    have some : bucket.toList ≠ [] := mt String.toList_eq_nil_iff.mp named
    obtain ⟨first, more, shape⟩ := List.exists_cons_of_ne_nil (encode_ne_nil some)
    have inside : first ∈ encode bucket.toList := by simp [shape]
    have other : first ≠ '/' := by
      rintro rfl
      rcases isEncoded_encode inside with unreserved | percent
      · cases unreserved
      · exact absurd percent (by decide)
    rw [encodePath_append single, shape, List.cons_append, List.dropWhile_cons_of_neg (by simpa)]
  have whole : String.ofList (bucket.toList ++ '/' :: key.toList) = bucket ++ "/" ++ key := by
    rw [← String.toList_inj]
    simp
  rw [objectPath_of_web known, path, List.dropWhile_cons_of_pos (by decide), start,
    decode_encodePath, whole]

/-- **Locating an endpoint undoes encoding it.** Whatever a bucket and a key are called, they are
what an endpoint that names them in escapes locates. -/
theorem locate_encoded {bucket key scheme endpoint : String} {schemes : List String}
    (named : bucket ≠ "") (keyed : key ≠ "") (names : Names bucket key scheme endpoint)
    (listed : scheme ∈ schemes) :
    ∃ url, locate endpoint schemes = .ok ⟨url, bucket, key⟩ := by
  cases names with
  | storage known plain =>
    have unreserved (c : Char) (inside : c ∈ bucket.toList) : isUnreserved c = true :=
      isUnreserved_of_isBucketChar (plain c inside)
    have single : '/' ∉ bucket.toList := by
      intro inside
      cases unreserved _ inside
    have schemes : ∀ scheme ∈ ["gs", "s3"], Url.isPlainScheme scheme.toList = true := by decide
    exact ⟨_, locate_hosted (schemes _ known) named
      (fun c inside => .inl (unreserved c inside)) listed
      (objectPath_storage known bucket key) single named keyed⟩
  | @web host port known some plain ported single =>
    have schemes : ∀ scheme ∈ ["http", "https"], Url.isPlainScheme scheme.toList = true := by
      decide
    have path : encoded bucket ++ "/" ++ encodedPath key =
        String.ofList (encodePath (bucket.toList ++ '/' :: key.toList)) := by
      rw [← String.toList_inj, encodePath_append single]
      simp [String.toList_append, encoded, encodedPath]
    have object := objectPath_web known (host ++ port) named single key
    have full : host ++ port ≠ "" := by
      intro none
      exact some (String.append_eq_empty_iff.mp none).1
    have hosted (c : Char) (inside : c ∈ (host ++ port).toList) :
        isUnreserved c = true ∨ c = ':' := by
      rw [String.toList_append] at inside
      rcases List.mem_append.mp inside with inside | inside
      · exact .inl (isUnreserved_of_isHostChar (plain c inside))
      · exact ported.chars inside
    rw [path] at object ⊢
    exact ⟨_, locate_hosted (schemes _ known) full hosted listed object single named keyed⟩

-- Escapes are those of the bytes in UTF-8.
example : encodedPath "a/é%#" = "a/%C3%A9%25%23" := by decide +kernel

/-- A key with slashes at both ends and escapes of its own, and a bucket with a blank. -/
theorem locate_encoded_marks :
    (∃ url, locate ("s3" ++ "://" ++ "b_1" ++ "/" ++ encodedPath "/a;%41é#//") ["http", "s3"] =
        .ok ⟨url, "b_1", "/a;%41é#//"⟩) ∧
      ∃ url, locate ("http" ++ "://" ++ ("h.x" ++ ":80") ++ "/" ++
          (encoded "b é?" ++ "/" ++ encodedPath "/a;%41é#//")) ["http", "s3"] =
        .ok ⟨url, "b é?", "/a;%41é#//"⟩ := by
  have port : IsPort ":80" := .inr ⟨"80", rfl, by simp⟩
  have bucketed : ∀ c ∈ "b_1".toList, isBucketChar c = true := by simp [isBucketChar, isHostChar]
  have hosted : ∀ c ∈ "h.x".toList, isHostChar c = true := by simp [isHostChar]
  exact ⟨locate_encoded (by decide) (by decide) (.storage (by decide) bucketed) (by decide),
    locate_encoded (by decide) (by decide) (.web (by decide) (by decide) hosted port (by decide))
      (by decide)⟩

end DiskStaging
