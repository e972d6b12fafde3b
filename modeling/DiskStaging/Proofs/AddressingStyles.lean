import DiskStaging.Proofs.EncodedLocation

/-!
# The two ways to address an object

A storage URL names a bucket by its host part, a web URL by the first segment of its path, and
the rest of the path is the key. Both read a path in the same way, whatever it holds, but for
one thing: the last segment of a path may have parameters in a web URL, and has none in a
storage URL. Parameters are no part of the path then, so a semicolon in the last segment ends
the key of a web URL and is in the key of a storage URL. The two agree on the other paths, and
only on them (`same_object_iff`).
-/

set_option autoImplicit false

namespace DiskStaging

open Text Percent

namespace Url

/-! ## The last segment -/

theorem lastSegment_slash (front path : List Char) :
    lastSegment (front ++ '/' :: path) = lastSegment path := by
  have whole : (front ++ '/' :: path).reverse = path.reverse ++ '/' :: front.reverse := by simp
  rw [lastSegment, whole, List.takeWhile_append]
  split
  · rename_i all
    have same := (List.takeWhile_prefix (· ≠ '/')).eq_of_length all
    rw [List.takeWhile_cons_of_neg (by simp), List.append_nil, lastSegment, same]
  · rfl

theorem lastSegment_append (front : List Char) {behind : List Char} (inside : '/' ∉ behind) :
    lastSegment (front ++ behind) = lastSegment front ++ behind := by
  have kept : ∀ c ∈ behind.reverse, decide (c ≠ '/') = true := by
    intro c listed
    refine decide_eq_true ?_
    rintro rfl
    exact inside (List.mem_reverse.mp listed)
  rw [lastSegment, List.reverse_append, List.takeWhile_append_of_pos kept, List.reverse_append,
    List.reverse_reverse, lastSegment]

/-- The parameters of a path are those of any end of it that starts a segment. -/
theorem cutParams_behind (scheme front path : List Char) :
    cutParams scheme (front ++ '/' :: path) =
      (front ++ '/' :: (cutParams scheme path).1, (cutParams scheme path).2) := by
  by_cases params : schemesWithParams.contains (String.ofList scheme) = true
  · obtain ⟨before, whole⟩ := lastSegment_suffix path
    have longer : front ++ '/' :: before ++ lastSegment (front ++ '/' :: path) =
        front ++ '/' :: path := by
      rw [lastSegment_slash, List.append_assoc, List.cons_append, whole]
    rw [cutParams_eq params longer, cutParams_eq params whole, lastSegment_slash]
    simp only [List.append_assoc, List.cons_append]
  · have other (path : List Char) : cutParams scheme path = (path, []) := if_neg params
    rw [other, other]

/-- The parameters start behind the first semicolon of the last segment. -/
theorem cutParams_append {scheme front params : List Char}
    (known : schemesWithParams.contains (String.ofList scheme) = true)
    (first : ';' ∉ lastSegment front) (last : '/' ∉ params) :
    cutParams scheme (front ++ ';' :: params) = (front, params) := by
  obtain ⟨before, whole⟩ := lastSegment_suffix front
  have segment : lastSegment (front ++ ';' :: params) = lastSegment front ++ ';' :: params :=
    lastSegment_append front (List.not_mem_cons_of_ne_of_not_mem (by decide) last)
  have longer : before ++ lastSegment (front ++ ';' :: params) = front ++ ';' :: params := by
    rw [segment, ← List.append_assoc, whole]
  rw [cutParams_eq known longer, segment, cutAt, cut?_append first]
  exact congrArg (·, params) whole

/-- A semicolon in the last segment announces parameters. -/
theorem exists_params {path : List Char} (found : ';' ∈ lastSegment path) :
    ∃ front params, path = front ++ ';' :: params ∧ ';' ∉ lastSegment front ∧ '/' ∉ params := by
  obtain ⟨name, params, shape, first⟩ := List.eq_append_cons_of_mem found
  obtain ⟨before, whole⟩ := lastSegment_suffix path
  have single : '/' ∉ lastSegment path := by
    intro slash
    have kept := List.mem_takeWhile_imp (List.mem_reverse.mp slash)
    exact of_decide_eq_true kept rfl
  rw [shape] at whole single
  have last : '/' ∉ ';' :: params := fun slash => single (List.mem_append_right _ slash)
  have split : path = before ++ name ++ ';' :: params := by rw [← whole, List.append_assoc]
  refine ⟨before ++ name, params, split, ?_, mt (List.mem_cons_of_mem _) last⟩
  have same : lastSegment (before ++ name) ++ ';' :: params = name ++ ';' :: params := by
    rw [← lastSegment_append _ last, ← split, shape]
  rw [List.append_cancel_right same]
  exact first

end Url

/-! ## What the path names -/

/-- The bucket and the key that an endpoint names, if it names an object. -/
def objectOf (endpoint : String) (schemes : List String) : Option (String × String) :=
  (locate endpoint schemes).toOption.map fun place => (place.bucket, place.key)

/-- The object of a bucket whose key is written as the rest of a path. -/
def objectBehind (bucket : String) (path : List Char) : Option (String × String) :=
  if path = [] then none else some (bucket, String.ofList (decode path))

/-- The storage URL of a bucket and a path. -/
def storageUrl (bucket path : String) : String := "gs://" ++ bucket ++ "/" ++ path

/-- The web URL of a bucket that a host serves, and a path. -/
def webUrl (host bucket path : String) : String :=
  "https://" ++ host ++ "/" ++ bucket ++ "/" ++ path

/-- Without a semicolon and what stands behind it, a key is another one. -/
theorem objectBehind_ne (bucket : String) (front params : List Char) :
    objectBehind bucket (front ++ ';' :: params) ≠ objectBehind bucket front := by
  intro same
  rw [objectBehind, if_neg (by simp), decode_cut rfl (by decide) rfl, objectBehind] at same
  split_ifs at same
  have keys := String.ofList_injective (Prod.mk.inj (Option.some_inj.mp same)).2
  have sizes := congrArg List.length keys
  simp at sizes

theorem objectOf_of_badEscape {endpoint : String} {schemes : List String}
    (refused : parseEndpoint endpoint schemes = .error .badEscape) :
    objectOf endpoint schemes = none := by
  rw [objectOf, locate, refused]
  rfl

/-- An endpoint names what stands behind the first slash of its path, if something does. -/
theorem objectOf_of_objectPath {endpoint bucket : String} {schemes : List String} {url : Url}
    {rest : List Char} (read : parseEndpoint endpoint schemes = .ok url) (named : bucket ≠ "")
    (single : '/' ∉ bucket.toList)
    (path : objectPath url = bucket ++ "/" ++ String.ofList (decode rest)) :
    objectOf endpoint schemes = objectBehind bucket rest := by
  have keyless : (String.ofList (decode rest)).isEmpty = true ↔ rest = [] := by
    rw [String.isEmpty_iff, ← String.toList_inj, String.toList_ofList]
    exact decode_eq_nil_iff
  have bucketed : bucket.isEmpty = false := String.isEmpty_eq_false_iff.mpr named
  simp only [objectOf, locate, read, Bind.bind, Except.bind, path, splitObject_append single,
    objectBehind, bucketed, Bool.false_or, keyless]
  split <;> rfl

/-- A slash ends what stands in front of it. -/
theorem decode_slash (front rest : List Char) :
    decode (front ++ '/' :: rest) = decode front ++ '/' :: decode rest :=
  decode_cut rfl (by decide) rfl front rest

section Styles

variable {bucket host path : String}

theorem no_slash (hosted : ∀ c ∈ bucket.toList, isHostChar c = true) : '/' ∉ bucket.toList :=
  fun inside => absurd (hosted _ inside) (by decide)

theorem no_percent (hosted : ∀ c ∈ bucket.toList, isHostChar c = true) : '%' ∉ bucket.toList :=
  fun inside => absurd (hosted _ inside) (by decide)

theorem unbroken_behind (bucketed : ∀ c ∈ bucket.toList, isHostChar c = true) :
    Url.unbroken (bucket ++ "/" ++ path).toList =
      bucket.toList ++ '/' :: Url.unbroken path.toList := by
  have kept (c : Char) (inside : c ∈ bucket.toList ++ ['/']) : Url.Kept c := by
    rcases List.mem_append.mp inside with inside | slash
    · exact Url.IsBasic.kept (.inl (isUnreserved_of_isHostChar (bucketed c inside)))
    · exact Url.IsBasic.kept (.inr (.inr (.inl (List.mem_singleton.mp slash))))
  have split : (bucket ++ "/" ++ path).toList = bucket.toList ++ ['/'] ++ path.toList := by
    simp [String.toList_append]
  rw [split, Url.unbroken_append kept, List.append_assoc, List.singleton_append]

theorem dropWhile_slash (named : bucket ≠ "") (single : '/' ∉ bucket.toList) (rest : List Char) :
    (bucket.toList ++ '/' :: rest).dropWhile (· = '/') = bucket.toList ++ '/' :: rest := by
  obtain ⟨first, more, shape⟩ := List.exists_cons_of_ne_nil (mt String.toList_eq_nil_iff.mp named)
  have other : first ≠ '/' := by
    rintro rfl
    exact single (by simp [shape])
  rw [shape, List.cons_append, List.dropWhile_cons_of_neg (by simpa using other)]

/-- In a storage URL, the whole path is the key. -/
theorem objectOf_storage (named : bucket ≠ "") (bucketed : ∀ c ∈ bucket.toList, isHostChar c = true)
    (query : '?' ∉ path.toList) (fragment : '#' ∉ path.toList) :
    objectOf (storageUrl bucket path) ["gs"] =
      if wellFormed path.toList then objectBehind bucket (Url.unbroken path.toList) else none := by
  have read := parseEndpoint_addressed (show Url.isPlainScheme "gs".toList = true by decide) named
    (fun c inside => .inl (isUnreserved_of_isHostChar (bucketed c inside)))
    (show "gs" ∈ ["gs"] by decide) query fragment
  change parseEndpoint (storageUrl bucket path) ["gs"] = _ at read
  cases good : wellFormed path.toList with
  | false => exact objectOf_of_badEscape (by rw [read, good]; rfl)
  | true =>
    rw [good, if_pos rfl] at read
    refine objectOf_of_objectPath read named (no_slash bucketed) ?_
    have params : Url.cutParams "gs".toList ('/' :: Url.unbroken path.toList) =
        ('/' :: Url.unbroken path.toList, []) := if_neg (by decide)
    have slash := decode_slash [] (Url.unbroken path.toList)
    rw [List.nil_append, decode.eq_1, List.nil_append] at slash
    rw [params, ← String.toList_inj]
    simp [objectPath, String.toList_append, slash]

/-- In a web URL, the path up to the parameters is the key. -/
theorem objectOf_web (named : bucket ≠ "") (bucketed : ∀ c ∈ bucket.toList, isHostChar c = true)
    (served : host ≠ "") (hosted : ∀ c ∈ host.toList, isHostChar c = true)
    (query : '?' ∉ path.toList) (fragment : '#' ∉ path.toList) :
    objectOf (webUrl host bucket path) ["https"] =
      if wellFormed path.toList then
        objectBehind bucket (Url.cutParams "https".toList (Url.unbroken path.toList)).1
      else none := by
  have inside {separator : Char} (other : separator ≠ '/') (apart : isHostChar separator = false)
      (absent : separator ∉ path.toList) : separator ∉ (bucket ++ "/" ++ path).toList := by
    simp only [String.toList_append, List.mem_append, not_or]
    refine ⟨⟨fun found => ?_, by simpa using other⟩, absent⟩
    exact absurd (bucketed _ found) (by simp [apart])
  have read := parseEndpoint_addressed (show Url.isPlainScheme "https".toList = true by decide)
    served (fun c inside => .inl (isUnreserved_of_isHostChar (hosted c inside)))
    (show "https" ∈ ["https"] by decide) (inside (by decide) (by decide) query)
    (inside (by decide) (by decide) fragment)
  have text : "https" ++ "://" ++ host ++ "/" ++ (bucket ++ "/" ++ path) =
      webUrl host bucket path := by
    simp only [webUrl, ← String.toList_inj, String.toList_append, List.append_assoc]
    rfl
  rw [text] at read
  have same : wellFormed (bucket ++ "/" ++ path).toList = wellFormed path.toList := by
    have front : '%' ∉ bucket.toList ++ ['/'] := by simp [no_percent bucketed]
    simp only [String.toList_append]
    exact wellFormed_append front path.toList
  cases good : wellFormed path.toList with
  | false => exact objectOf_of_badEscape (by rw [read, same, good]; rfl)
  | true =>
    rw [same, good, if_pos rfl] at read
    refine objectOf_of_objectPath read named (no_slash bucketed) ?_
    rw [← String.toList_inj, unbroken_behind bucketed, ← List.cons_append, Url.cutParams_behind]
    simp [objectPath, String.toList_append, dropWhile_slash named (no_slash bucketed),
      decode_slash, decode_plain (no_percent bucketed)]

/-- **The two ways to address an object agree but for parameters.** With parameters, the key of
the storage URL has them behind a semicolon, and the web URL has the rest of the key. -/
theorem same_object_iff (named : bucket ≠ "") (bucketed : ∀ c ∈ bucket.toList, isHostChar c = true)
    (served : host ≠ "") (hosted : ∀ c ∈ host.toList, isHostChar c = true)
    (query : '?' ∉ path.toList) (fragment : '#' ∉ path.toList) :
    (objectOf (storageUrl bucket path) ["gs"] = objectOf (webUrl host bucket path) ["https"] ↔
      ¬(wellFormed path.toList = true ∧ ';' ∈ Url.lastSegment (Url.unbroken path.toList))) ∧
    ∀ front params, wellFormed path.toList = true →
      Url.unbroken path.toList = front ++ ';' :: params → ';' ∉ Url.lastSegment front →
      '/' ∉ params →
      objectOf (storageUrl bucket path) ["gs"] =
          some (bucket, String.ofList (decode front ++ ';' :: decode params)) ∧
        objectOf (webUrl host bucket path) ["https"] = objectBehind bucket front := by
  have storage := objectOf_storage named bucketed query fragment
  have web := objectOf_web named bucketed served hosted query fragment
  refine ⟨⟨?_, ?_⟩, ?_⟩
  · rintro same ⟨good, found⟩
    obtain ⟨front, params, split, first, last⟩ := Url.exists_params found
    rw [storage, web, good, if_pos rfl, if_pos rfl, split,
      Url.cutParams_append (by decide) first last] at same
    exact objectBehind_ne bucket front params same
  · intro plain
    rw [storage, web]
    cases good : wellFormed path.toList with
    | false => rfl
    | true => rw [Url.cutParams_of_not_mem _ fun found => plain ⟨good, found⟩]
  · intro front params good split first last
    rw [good, if_pos rfl, split] at storage web
    rw [Url.cutParams_append (by decide) first last] at web
    refine ⟨storage.trans ?_, web⟩
    rw [objectBehind, if_neg (by simp), decode_cut rfl (by decide) rfl]

/-- A web URL loses the end of a name with a semicolon. In a segment before the last one, it is
kept, and so are blanks and what an escape stands for. -/
theorem same_object_iff_names :
    objectOf (storageUrl "b-1" "k%3b;v\t") ["gs"] = some ("b-1", "k;;v") ∧
      objectOf (webUrl "h.x" "b-1" "k%3b;v\t") ["https"] = some ("b-1", "k;") ∧
      objectOf (storageUrl "b-1" "k;v/ \t%3b") ["gs"] =
        objectOf (webUrl "h.x" "b-1" "k;v/ \t%3b") ["https"] := by
  have bucketed : ∀ c ∈ "b-1".toList, isHostChar c = true := by simp [isHostChar]
  have hosted : ∀ c ∈ "h.x".toList, isHostChar c = true := by simp [isHostChar]
  have params := (@same_object_iff "b-1" "h.x" "k%3b;v\t" (by decide) bucketed (by decide) hosted
    (by decide) (by decide)).2 ['k', '%', '3', 'b'] ['v'] (by decide) (by decide) (by decide)
    (by decide)
  have plain := (@same_object_iff "b-1" "h.x" "k;v/ \t%3b" (by decide) bucketed (by decide) hosted
    (by decide) (by decide)).1.mpr (by decide)
  refine ⟨params.1.trans ?_, params.2.trans ?_, plain⟩
  · decide +kernel
  · decide +kernel

end Styles

end DiskStaging
