import DiskStaging.Proofs.AddressingStyles
import DiskStaging.Proofs.BackendChoice

/-!
# The bytes that a URL asks for

The escapes of a URL stand for bytes, and so a URL asks for an object by the bytes of its bucket
and its key (`AsksFor`). What is located has names that are text. The two are the same just where
the bytes are text in UTF-8 and no escaped slash is in the bucket (`Clear`), and URLs that ask for
different objects of that kind locate different objects. Other bytes are lost without an error:
those that are no text are read as replacement characters, and a bucket with an escaped slash
ends in front of it, since the path is decoded before it is cut (`located_bytes`).
-/

set_option autoImplicit false

namespace DiskStaging

open Text Percent

/-! ## What is asked for -/

/-- The bytes of the bucket and the key that a URL asks for. -/
inductive AsksFor (url : Url) : Bytes → Bytes → Prop
  /-- The host part is the bucket, and the path behind its first slash is the key. -/
  | storage {rest : List Char} (known : url.scheme ∈ ["gs", "s3"])
    (path : url.path.toList = '/' :: rest) :
    AsksFor url (utf8 url.netloc.toList) (decodeBytes rest)
  /-- The first segment of the path is the bucket, and the rest of the path is the key. -/
  | web {slashes first rest : List Char} (known : url.scheme ∈ ["http", "https"])
    (path : url.path.toList = slashes ++ (first ++ '/' :: rest)) (front : ∀ c ∈ slashes, c = '/')
    (named : first ≠ []) (single : '/' ∉ first) :
    AsksFor url (decodeBytes first) (decodeBytes rest)

/-- Bytes that text can name: they are text, and no slash is in the bucket. -/
structure Clear (bucket key : Bytes) : Prop where
  apart : 0x2F ∉ bucket
  named : IsUtf8 bucket
  keyed : IsUtf8 key

/-- What becomes of the bytes of a bucket and a key. -/
structure Decoded (bucket key : Bytes) (location : Location) : Prop where
  /-- They are kept just where text can name them. -/
  kept : utf8 location.bucket.toList = bucket ∧ utf8 location.key.toList = key ↔ Clear bucket key
  /-- Those that are no text are replaced. -/
  replaced : 0x2F ∉ bucket →
    location.bucket.toList = ofUtf8 bucket ∧ location.key.toList = ofUtf8 key
  /-- A bucket with a slash ends in front of it, and the key starts behind it. -/
  moved : ∀ inner outer, bucket = inner ++ 0x2F :: outer → 0x2F ∉ inner →
    location.bucket.toList = ofUtf8 inner ∧ location.key.toList = ofUtf8 (outer ++ 0x2F :: key)

/-- The path of an object is read from its bytes. -/
theorem objectPath_asked {url : Url} {bucket key : Bytes} (asked : AsksFor url bucket key) :
    objectPath url = String.ofList (ofUtf8 (bucket ++ 0x2F :: key)) := by
  have slash (front rest : List Char) : decodeBytes (front ++ '/' :: rest) =
      decodeBytes front ++ 0x2F :: decodeBytes rest := decodeBytes_cut (by decide) rfl front rest
  cases asked with
  | @storage rest known path =>
    have behind : decodeBytes ('/' :: rest) = 0x2F :: decodeBytes rest := slash [] rest
    rw [objectPath_of_storage known, path, decode_eq_ofUtf8, ofUtf8_append, behind,
      String.ofList_append, String.ofList_toList]
  | @web slashes first rest known path front named single =>
    obtain ⟨c, more, rfl⟩ := List.exists_cons_of_ne_nil named
    have other : c ≠ '/' := by
      rintro rfl
      exact single List.mem_cons_self
    have start : url.path.toList.dropWhile (· = '/') = c :: more ++ '/' :: rest := by
      rw [path, List.dropWhile_append_of_pos (by simpa using front), List.cons_append,
        List.dropWhile_cons_of_neg (by simpa using other)]
    rw [objectPath_of_web known, start, decode_eq_ofUtf8, slash]

/-- What stands in front of the first slash and behind it is read apart. -/
theorem splitObject_ofUtf8 {inner : Bytes} (single : 0x2F ∉ inner) (outer : Bytes) :
    splitObject (String.ofList (ofUtf8 (inner ++ 0x2F :: outer))) =
      (String.ofList (ofUtf8 inner), String.ofList (ofUtf8 outer)) := by
  have apart : '/' ∉ ofUtf8 inner := mt (mem_ofUtf8_iff (by decide) inner).mp single
  have slash : ofUtf8 (inner ++ 0x2F :: outer) = ofUtf8 inner ++ '/' :: ofUtf8 outer :=
    ofUtf8_cut inner (by decide) outer
  simp only [splitObject, String.toList_ofList, slash, cut?_append apart]

section Locating

variable {endpoint : String} {schemes : List String} {location : Location} {bucket key : Bytes}

theorem decoded_of_asked (located : locate endpoint schemes = .ok location)
    (asked : AsksFor location.url bucket key) : Decoded bucket key location := by
  obtain ⟨-, object, -⟩ := locate_eq_ok located
  rw [objectPath_asked asked] at object
  -- The path is cut at the first slash of all its bytes, also where an escape stood for that.
  have cut {inner outer : Bytes} (single : 0x2F ∉ inner)
      (same : bucket ++ 0x2F :: key = inner ++ 0x2F :: outer) :
      location.bucket.toList = ofUtf8 inner ∧ location.key.toList = ofUtf8 outer := by
    rw [same, splitObject_ofUtf8 single] at object
    obtain ⟨named, keyed⟩ := Prod.mk.inj object
    rw [← named, ← keyed, String.toList_ofList, String.toList_ofList]
    exact ⟨rfl, rfl⟩
  refine ⟨⟨?_, ?_⟩, fun single => cut single rfl, ?_⟩
  · rintro ⟨named, keyed⟩
    refine ⟨fun inside => ?_, ⟨_, named.symm⟩, ⟨_, keyed.symm⟩⟩
    obtain ⟨inner, outer, whole, single⟩ := List.eq_append_cons_of_mem inside
    obtain ⟨short, -⟩ := cut single (by rw [whole, List.append_assoc, List.cons_append])
    have slash : '/' ∈ location.bucket.toList := by
      rw [← ofUtf8_utf8 location.bucket.toList, named]
      exact (mem_ofUtf8_iff (by decide) bucket).mpr inside
    rw [short] at slash
    exact single ((mem_ofUtf8_iff (by decide) inner).mp slash)
  · rintro ⟨apart, named, keyed⟩
    obtain ⟨first, second⟩ := cut apart rfl
    rw [first, second]
    exact ⟨utf8_ofUtf8_iff.mpr named, utf8_ofUtf8_iff.mpr keyed⟩
  · intro inner outer whole single
    exact cut single (by rw [whole, List.append_assoc, List.cons_append])

/-- The host part has no slash, and the path behind it starts with one. -/
theorem Url.slash_of_parse {text : String} {url : Url} (read : Url.parse text = .ok url)
    (hosted : url.netloc ≠ "") :
    '/' ∉ url.netloc.toList ∧ ∀ c ∈ url.path.toList.head?, c = '/' := by
  obtain ⟨-, netloc, starts⟩ := Url.parts_of_parse read
  have apart : '/' ∉ Url.hostOf (Url.cleaned text.toList) := by
    unfold Url.hostOf Url.cutNetloc
    split
    · intro inside
      have kept := List.mem_takeWhile_imp inside
      simp at kept
    · exact List.not_mem_nil
  rcases Url.announced_or_not (Url.cleaned text.toList) with ⟨-, first⟩ | ⟨-, none, -⟩
  · exact ⟨netloc ▸ apart, Url.slash_of_starts first starts⟩
  · exact absurd (String.toList_eq_nil_iff.mp (netloc.trans none)) hosted

/-- A storage URL that locates an object has a path behind its bucket. -/
theorem exists_asked (located : locate endpoint schemes = .ok location)
    (known : location.url.scheme ∈ ["gs", "s3"]) :
    ∃ rest, location.url.path.toList = '/' :: rest ∧
      AsksFor location.url (utf8 location.url.netloc.toList) (decodeBytes rest) := by
  obtain ⟨read, object, -, keyed⟩ := locate_eq_ok located
  obtain ⟨-, -, parsed, -, hosted⟩ := parseEndpoint_eq_ok read
  obtain ⟨apart, slash⟩ := Url.slash_of_parse parsed hosted
  cases path : location.url.path.toList with
  | nil =>
    -- The host part alone is a bucket without a key.
    rw [objectPath_of_storage known, path, decode, String.ofList_nil, String.append_empty,
      splitObject, cut?_of_not_mem apart] at object
    exact absurd (Prod.mk.inj object).2.symm keyed
  | cons c rest =>
    obtain rfl : c = '/' := slash c (by rw [path]; rfl)
    exact ⟨rest, rfl, .storage known path⟩

/-- **Bytes are located as they are asked for just where text can name them.** -/
theorem located_bytes (located : locate endpoint schemes = .ok location) :
    (∀ bucket key, AsksFor location.url bucket key → Decoded bucket key location) ∧
    (location.url.scheme ∈ ["gs", "s3"] →
      location.bucket = location.url.netloc ∧
        ∃ rest, location.url.path.toList = '/' :: rest ∧
          location.key.toList = ofUtf8 (decodeBytes rest) ∧
          (utf8 location.key.toList = decodeBytes rest ↔ IsUtf8 (decodeBytes rest))) ∧
    ∀ others elsewhere (place : Location), locate elsewhere others = .ok place →
      ∀ bucket key otherBucket otherKey,
        AsksFor location.url bucket key → AsksFor place.url otherBucket otherKey →
        Clear bucket key → Clear otherBucket otherKey →
        (location.bucket = place.bucket ↔ bucket = otherBucket) ∧
          (location.key = place.key ↔ key = otherKey) := by
  refine ⟨fun bucket key asked => decoded_of_asked located asked, fun known => ?_, ?_⟩
  · obtain ⟨rest, path, asked⟩ := exists_asked located known
    obtain ⟨read, -⟩ := locate_eq_ok located
    obtain ⟨-, -, parsed, -, hosted⟩ := parseEndpoint_eq_ok read
    have apart : 0x2F ∉ utf8 location.url.netloc.toList := by
      refine mt (mem_ofUtf8_iff (c := '/') (by decide) _).mpr ?_
      rw [ofUtf8_utf8]
      exact (Url.slash_of_parse parsed hosted).1
    obtain ⟨named, keyed⟩ := (decoded_of_asked located asked).replaced apart
    rw [ofUtf8_utf8] at named
    refine ⟨String.toList_inj.mp named, rest, path, keyed, ?_⟩
    rw [keyed]
    exact utf8_ofUtf8_iff
  · intro others elsewhere place found bucket key otherBucket otherKey asked otherAsked clear
      otherClear
    obtain ⟨named, keyed⟩ := (decoded_of_asked located asked).kept.mpr clear
    obtain ⟨otherNamed, otherKeyed⟩ := (decoded_of_asked found otherAsked).kept.mpr otherClear
    rw [← named, ← keyed, ← otherNamed, ← otherKeyed]
    exact ⟨utf8_inj.symm, utf8_inj.symm⟩

end Locating

/-- An escaped letter with an accent is kept. An escaped slash in the bucket moves to the key, and
two bytes that are no text are one and the same key. -/
theorem located_bytes_lost :
    (∃ place, locate "https://h/b/%C3%A9" ["https"] = .ok place ∧
      utf8 place.bucket.toList = [0x62] ∧ utf8 place.key.toList = [0xC3, 0xA9]) ∧
    (∃ place, locate "http://h/b%2Fc/k" ["http"] = .ok place ∧
      AsksFor place.url [0x62, 0x2F, 0x63] [0x6B] ∧
      place.bucket.toList = ['b'] ∧ place.key.toList = ['c', '/', 'k']) ∧
    ∃ first second, locate "gs://b/%FF" ["gs"] = .ok first ∧
      locate "gs://b/%FE" ["gs"] = .ok second ∧
      AsksFor first.url [0x62] [0xFF] ∧ AsksFor second.url [0x62] [0xFE] ∧
      first.key = second.key := by
  have letter : locate "https://h/b/%C3%A9" ["https"] =
      .ok ⟨⟨"https", "h", "/b/%C3%A9", "", "", ""⟩, "b", "é"⟩ := by decide +kernel
  have slash : locate "http://h/b%2Fc/k" ["http"] =
      .ok ⟨⟨"http", "h", "/b%2Fc/k", "", "", ""⟩, "b", "c/k"⟩ := by decide +kernel
  have last : locate "gs://b/%FF" ["gs"] =
      .ok ⟨⟨"gs", "b", "/%FF", "", "", ""⟩, "b", "\uFFFD"⟩ := by decide +kernel
  have other : locate "gs://b/%FE" ["gs"] =
      .ok ⟨⟨"gs", "b", "/%FE", "", "", ""⟩, "b", "\uFFFD"⟩ := by decide +kernel
  have letterAsked : AsksFor ⟨"https", "h", "/b/%C3%A9", "", "", ""⟩ [0x62] [0xC3, 0xA9] :=
    @AsksFor.web _ ['/'] ['b'] ['%', 'C', '3', '%', 'A', '9'] (by decide) (by decide) (by simp)
      (by decide) (by decide)
  have slashAsked : AsksFor ⟨"http", "h", "/b%2Fc/k", "", "", ""⟩ [0x62, 0x2F, 0x63] [0x6B] :=
    @AsksFor.web _ ['/'] ['b', '%', '2', 'F', 'c'] ['k'] (by decide) (by decide) (by simp)
      (by decide) (by decide)
  have lastAsked : AsksFor ⟨"gs", "b", "/%FF", "", "", ""⟩ [0x62] [0xFF] :=
    @AsksFor.storage _ ['%', 'F', 'F'] (by decide) (by decide)
  have otherAsked : AsksFor ⟨"gs", "b", "/%FE", "", "", ""⟩ [0x62] [0xFE] :=
    @AsksFor.storage _ ['%', 'F', 'E'] (by decide) (by decide)
  have clear : Clear [0x62] [0xC3, 0xA9] := ⟨by decide, ⟨['b'], by decide⟩, ⟨['é'], by decide⟩⟩
  have kept := ((located_bytes letter).1 _ _ letterAsked).kept.mpr clear
  have moved := ((located_bytes slash).1 _ _ slashAsked).moved [0x62] [0x63] rfl (by decide)
  have first := ((located_bytes last).1 _ _ lastAsked).replaced (by decide)
  have second := ((located_bytes other).1 _ _ otherAsked).replaced (by decide)
  have same : ofUtf8 [0xFF] = ofUtf8 [0xFE] := by decide +kernel
  refine ⟨⟨_, letter, kept⟩, ⟨_, slash, slashAsked, ?_, ?_⟩, _, _, last, other, lastAsked,
    otherAsked, String.toList_inj.mp ?_⟩
  · exact moved.1.trans (by decide +kernel)
  · exact moved.2.trans (by decide +kernel)
  · exact first.2.trans (same.trans second.2.symm)

end DiskStaging
