import DiskStaging.Proofs.Utf8Texts
import DiskStaging.Text.Percent
import DiskStaging.Text.Split
import DiskStaging.Url.Basic

/-!
# Encoding text in percent escapes

Decoding undoes encoding: text whose bytes are written as percent escapes, all but those of
letters, digits and a few marks, is decoded to itself (`Percent.decode_encodePath`). Decoding
goes run by run, but reads the same text as all the bytes at once (`Percent.decode_eq_ofUtf8`).
-/

set_option autoImplicit false

namespace DiskStaging.Text

/-! ## Bytes as escapes -/

namespace Percent

/-- A hexadecimal digit. -/
def hexDigit (value : Nat) : Char := Char.ofNat (if value < 10 then 48 + value else 55 + value)

/-- Whether a character stands for itself everywhere in a URL. -/
def isUnreserved (c : Char) : Bool :=
  Url.isLetter c || ('0' ≤ c && c ≤ '9') || c = '-' || c = '.' || c = '_' || c = '~'

/-- How a byte is written. -/
def escape (byte : UInt8) : List Char :=
  if isUnreserved (Char.ofNat byte.toNat) then [Char.ofNat byte.toNat]
  else ['%', hexDigit (byte.toNat / 16), hexDigit (byte.toNat % 16)]

/-- Text with escapes for all bytes but those of unreserved characters. -/
def encode (text : List Char) : List Char := (utf8 text).flatMap escape

/-- Text whose slashes are kept and whose pieces between them are encoded. -/
def encodePath (text : List Char) : List Char := join '/' ((pieces '/' text).map encode)

theorem hexValue?_hexDigit {value : Nat} (small : value < 16) :
    hexValue? (hexDigit value) = some value := by
  revert value
  decide

theorem isUnreserved_hexDigit {value : Nat} (small : value < 16) :
    isUnreserved (hexDigit value) = true := by
  revert value
  decide

/-- Unreserved characters are in the ASCII range. -/
theorem toNat_lt_of_isUnreserved {c : Char} (unreserved : isUnreserved c = true) :
    c.toNat < 128 := by
  have most {last : Char} (before : c ≤ last) (ascii : last.toNat < 128) : c.toNat < 128 :=
    Nat.lt_of_le_of_lt (UInt32.le_iff_toNat_le.mp before) ascii
  simp only [isUnreserved, Url.isLetter, Bool.or_eq_true, Bool.and_eq_true,
    decide_eq_true_eq] at unreserved
  rcases unreserved with (((((small | capital) | digit) | rfl) | rfl) | rfl) | rfl
  · exact most small.2 (by decide)
  · exact most capital.2 (by decide)
  · exact most digit.2 (by decide)
  all_goals decide

theorem ne_percent {c : Char} (unreserved : isUnreserved c = true) : c ≠ '%' := by
  rintro rfl
  cases unreserved

theorem utf8_ascii {c : Char} (ascii : c.toNat < 128) : utf8 [c] = [UInt8.ofNat c.toNat] := by
  have small : c.val.toNat ≤ 127 := Nat.le_of_lt_succ ascii
  rw [utf8, List.flatMap_singleton, String.utf8EncodeChar]
  exact if_pos small

theorem decodeBytes_cons {c : Char} (other : c ≠ '%') (rest : List Char) :
    decodeBytes (c :: rest) = utf8 [c] ++ decodeBytes rest := by
  conv_lhs => unfold decodeBytes
  split
  · rename_i same
    exact absurd (List.cons.inj same).1 other
  · rename_i same
    cases same
    rfl
  · rename_i same
    cases same

theorem decodeBytes_escape (byte : UInt8) (rest : List Char) :
    decodeBytes (escape byte ++ rest) = byte :: decodeBytes rest := by
  have small : byte.toNat < 256 := UInt8.toNat_lt_size byte
  unfold escape
  split
  · rename_i unreserved
    have value : (Char.ofNat byte.toNat).toNat = byte.toNat := by
      rw [Char.toNat_ofNat, if_pos (.inl (by omega))]
    have ascii := toNat_lt_of_isUnreserved unreserved
    rw [List.cons_append, List.nil_append, decodeBytes_cons (ne_percent unreserved),
      utf8_ascii ascii, value, UInt8.ofNat_toNat, List.cons_append, List.nil_append]
  · have high : byte.toNat / 16 < 16 := by omega
    have low : byte.toNat % 16 < 16 := Nat.mod_lt _ (by decide)
    have whole : 16 * (byte.toNat / 16) + byte.toNat % 16 = byte.toNat := Nat.div_add_mod _ _
    simp only [List.cons_append, List.nil_append, decodeBytes, hexValue?_hexDigit high,
      hexValue?_hexDigit low, whole, UInt8.ofNat_toNat]

theorem encode_ne_nil {text : List Char} (some : text ≠ []) : encode text ≠ [] := by
  obtain ⟨c, rest, rfl⟩ := List.exists_cons_of_ne_nil some
  obtain ⟨first, more, encoded, -⟩ := firstChar_encode c []
  rw [encode, utf8, List.flatMap_cons, encoded, List.cons_append, List.flatMap_cons, escape]
  split <;> exact List.cons_ne_nil _ _

theorem decodeBytes_encode (text rest : List Char) :
    decodeBytes (encode text ++ rest) = utf8 text ++ decodeBytes rest := by
  rw [encode]
  induction utf8 text with
  | nil => rfl
  | cons byte bytes ih =>
    rw [List.flatMap_cons, List.append_assoc, decodeBytes_escape, ih, List.cons_append]

/-- A slash stands for itself. -/
theorem decodeBytes_slash (rest : List Char) :
    decodeBytes ('/' :: rest) = utf8 ['/'] ++ decodeBytes rest :=
  decodeBytes_cons (by decide) rest

theorem join_encode (part next : List Char) (more : List (List Char)) (rest : List Char) :
    join '/' ((part :: next :: more).map encode) ++ rest =
      encode part ++ '/' :: (join '/' ((next :: more).map encode) ++ rest) := by
  simp [join]

theorem decodeBytes_join (parts : List (List Char)) (rest : List Char) :
    decodeBytes (join '/' (parts.map encode) ++ rest) =
      utf8 (join '/' parts) ++ decodeBytes rest := by
  induction parts with
  | nil => rfl
  | cons part more ih =>
    cases more with
    | nil => exact decodeBytes_encode part rest
    | cons next more =>
      rw [join_encode, decodeBytes_encode, decodeBytes_slash, ih]
      simp [join, utf8]

theorem decodeBytes_encodePath (text rest : List Char) :
    decodeBytes (encodePath text ++ rest) = utf8 text ++ decodeBytes rest := by
  rw [encodePath, decodeBytes_join, join_pieces]

/-! ## Escapes in text -/

/-- A character that encoded text is made of. -/
def IsEncoded (c : Char) : Prop := isUnreserved c = true ∨ c = '%'

theorem isEncoded_encode {text : List Char} {c : Char} (inside : c ∈ encode text) :
    IsEncoded c := by
  obtain ⟨byte, -, written⟩ := List.mem_flatMap.mp inside
  have small : byte.toNat < 256 := UInt8.toNat_lt_size byte
  unfold escape at written
  split at written
  · rename_i unreserved
    rw [List.mem_singleton.mp written]
    exact .inl unreserved
  · simp only [List.mem_cons, List.not_mem_nil, or_false] at written
    rcases written with rfl | rfl | rfl
    · exact .inr rfl
    · exact .inl (isUnreserved_hexDigit (by omega))
    · exact .inl (isUnreserved_hexDigit (Nat.mod_lt _ (by decide)))

theorem mem_join {parts : List (List Char)} {c : Char} (inside : c ∈ join '/' parts) :
    c = '/' ∨ ∃ part ∈ parts, c ∈ part := by
  induction parts with
  | nil => cases inside
  | cons part more ih =>
    cases more with
    | nil => exact .inr ⟨part, List.mem_cons_self, inside⟩
    | cons next more =>
      rcases List.mem_append.mp inside with first | later
      · exact .inr ⟨part, List.mem_cons_self, first⟩
      · rcases List.mem_cons.mp later with rfl | later
        · exact .inl rfl
        · exact (ih later).imp_right fun ⟨part, listed, found⟩ =>
            ⟨part, List.mem_cons_of_mem _ listed, found⟩

theorem isEncoded_encodePath {text : List Char} {c : Char} (inside : c ∈ encodePath text) :
    c = '/' ∨ IsEncoded c := by
  refine (mem_join inside).imp_right ?_
  rintro ⟨part, listed, found⟩
  obtain ⟨piece, -, rfl⟩ := List.mem_map.mp listed
  exact isEncoded_encode found

theorem wellFormed_cons {c : Char} (other : c ≠ '%') (rest : List Char) :
    wellFormed (c :: rest) = wellFormed rest := by
  conv_lhs => unfold wellFormed
  split
  · rename_i same
    exact absurd (List.cons.inj same).1 other
  · rename_i same
    exact absurd (List.cons.inj same).1 other
  · rename_i same
    cases same
    rfl
  · rename_i same
    cases same

/-- Text without escapes may stand in front of others. -/
theorem wellFormed_append {text : List Char} (plain : '%' ∉ text) (rest : List Char) :
    wellFormed (text ++ rest) = wellFormed rest := by
  induction text with
  | nil => rfl
  | cons c text ih =>
    obtain ⟨other, plain⟩ := not_or.mp (mt List.mem_cons.mpr plain)
    rw [List.cons_append, wellFormed_cons (Ne.symm other), ih plain]

theorem wellFormed_escape (byte : UInt8) (rest : List Char) :
    wellFormed (escape byte ++ rest) = wellFormed rest := by
  have small : byte.toNat < 256 := UInt8.toNat_lt_size byte
  unfold escape
  split
  · rename_i unreserved
    exact wellFormed_cons (ne_percent unreserved) rest
  · have high : byte.toNat / 16 < 16 := by omega
    have low : byte.toNat % 16 < 16 := Nat.mod_lt _ (by decide)
    simp only [List.cons_append, List.nil_append]
    rw [wellFormed, hexValue?_hexDigit high, hexValue?_hexDigit low,
      wellFormed_cons (ne_percent (isUnreserved_hexDigit high)),
      wellFormed_cons (ne_percent (isUnreserved_hexDigit low))]
    rfl

theorem wellFormed_encode (text rest : List Char) :
    wellFormed (encode text ++ rest) = wellFormed rest := by
  rw [encode]
  induction utf8 text with
  | nil => rfl
  | cons byte bytes ih => rw [List.flatMap_cons, List.append_assoc, wellFormed_escape, ih]

theorem wellFormed_join (parts : List (List Char)) (rest : List Char) :
    wellFormed (join '/' (parts.map encode) ++ rest) = wellFormed rest := by
  induction parts with
  | nil => rfl
  | cons part more ih =>
    cases more with
    | nil => exact wellFormed_encode part rest
    | cons next more =>
      rw [join_encode, wellFormed_encode, wellFormed_cons (by decide), ih]

theorem wellFormed_encodePath (text rest : List Char) :
    wellFormed (encodePath text ++ rest) = wellFormed rest :=
  wellFormed_join (pieces '/' text) rest

/-- A percent sign without two digits behind it stands for itself. -/
theorem decodeBytes_lone {text : List Char}
    (lone : ∀ high low rest, text = high :: low :: rest →
      hexValue? high = none ∨ hexValue? low = none) :
    decodeBytes ('%' :: text) = utf8 ['%'] ++ decodeBytes text := by
  match text with
  | [] | [_] => rfl
  | high :: low :: rest =>
    conv_lhs => unfold decodeBytes
    rcases lone high low rest rfl with none | none
    · simp only [none]
    · cases highDigit : hexValue? high <;> simp only [highDigit, none]

/-- No escape goes beyond a character that is neither a digit nor a percent sign. -/
theorem decodeBytes_cut {c : Char} (other : c ≠ '%') (digit : hexValue? c = none)
    (front rest : List Char) :
    decodeBytes (front ++ c :: rest) = decodeBytes front ++ (utf8 [c] ++ decodeBytes rest) := by
  have stands {front : List Char}
      (ih : decodeBytes (front ++ c :: rest) = decodeBytes front ++ (utf8 [c] ++ decodeBytes rest))
      (lone : ∀ high low more, front = high :: low :: more →
        hexValue? high = none ∨ hexValue? low = none) :
      decodeBytes ('%' :: front ++ c :: rest) =
        decodeBytes ('%' :: front) ++ (utf8 [c] ++ decodeBytes rest) := by
    have longer : ∀ high low more, front ++ c :: rest = high :: low :: more →
        hexValue? high = none ∨ hexValue? low = none := by
      intro high low more same
      match front with
      | [] => exact .inl ((List.cons.inj same).1 ▸ digit)
      | [_] => exact .inr ((List.cons.inj (List.cons.inj same).2).1 ▸ digit)
      | first :: second :: front =>
        cases same
        exact lone _ _ _ rfl
    rw [List.cons_append, decodeBytes_lone longer, ih, decodeBytes_lone lone, List.append_assoc]
  induction front using decodeBytes.induct with
  | case1 high low front _ _ highDigit lowDigit ih =>
    simp only [List.cons_append, decodeBytes, highDigit, lowDigit, ih]
  | case2 high low front noDigits ih =>
    refine stands ih ?_
    rintro _ _ _ ⟨⟩
    by_contra both
    obtain ⟨highDigit, lowDigit⟩ := not_or.mp both
    obtain ⟨_, highDigit⟩ := Option.ne_none_iff_exists'.mp highDigit
    obtain ⟨_, lowDigit⟩ := Option.ne_none_iff_exists'.mp lowDigit
    exact noDigits _ _ highDigit lowDigit
  | case3 first front short ih =>
    by_cases percent : first = '%'
    · subst percent
      exact stands ih fun high low more same => (short high low more rfl same).elim
    · rw [List.cons_append, decodeBytes_cons percent, ih, decodeBytes_cons percent,
        List.append_assoc]
  | case4 =>
    rw [List.nil_append, decodeBytes_cons other, decodeBytes, List.nil_append]

/-! ## Decoding -/

theorem ne_percent_of_wide {c : Char} (wide : isAscii c = false) : c ≠ '%' := by
  rintro rfl
  cases wide

/-- A character outside the ASCII range is no digit. -/
theorem hexValue?_wide {c : Char} (wide : isAscii c = false) : hexValue? c = none := by
  have beyond {last : Char} (ascii : last.toNat < 128) : ¬c ≤ last := by
    intro before
    have small : c.toNat < 128 := Nat.lt_of_le_of_lt (UInt32.le_iff_toNat_le.mp before) ascii
    rw [isAscii, decide_eq_true small] at wide
    cases wide
  have outside {first last : Char} (ascii : last.toNat < 128) : ¬(first ≤ c ∧ c ≤ last) :=
    fun within => beyond ascii within.2
  rw [hexValue?, if_neg (outside (by decide)), if_neg (outside (by decide)),
    if_neg (outside (by decide))]

/-- **Decoding run by run is reading all the bytes at once.** A run ends in front of a character
outside the ASCII range, whose first byte continues nothing. -/
theorem decode_eq_ofUtf8 (text : List Char) : decode text = ofUtf8 (decodeBytes text) := by
  induction text using decode.induct with
  | case1 => rw [decode, decodeBytes, ofUtf8]
  | case2 c rest ascii ih =>
    have parts := List.takeWhile_append_dropWhile (p := isAscii) (l := rest)
    rw [decode, if_pos ascii, ih]
    cases shape : rest.dropWhile isAscii with
    | nil =>
      rw [shape, List.append_nil] at parts
      rw [parts, decodeBytes.eq_3, ofUtf8.eq_1, List.append_nil]
    | cons last left =>
      have outside := List.head?_dropWhile_not isAscii rest
      rw [shape] at outside
      -- No escape goes beyond the end of the run, and the first byte behind it continues nothing.
      have wide : isAscii last = false := by simpa using outside
      have other := ne_percent_of_wide wide
      obtain ⟨first, more, encoded, apart⟩ := exists_utf8_cons last
      have whole : c :: rest = (c :: rest.takeWhile isAscii) ++ last :: left := by
        rw [List.cons_append, ← shape, parts]
      rw [whole, decodeBytes_cut other (hexValue?_wide wide), decodeBytes_cons other, encoded,
        List.cons_append, ofUtf8_apart _ apart]
  | case3 c rest wide ih =>
    have other := ne_percent_of_wide (Bool.eq_false_iff.mpr wide)
    rw [decode, if_neg wide, decodeBytes_cons other, ofUtf8_append, ih, List.singleton_append]

/-- **Decoding undoes encoding.** -/
theorem decode_encodePath (text : List Char) : decode (encodePath text) = text := by
  have bytes := decodeBytes_encodePath text []
  rw [List.append_nil, decodeBytes, List.append_nil] at bytes
  rw [decode_eq_ofUtf8, bytes, ofUtf8_utf8]

theorem pieces_append {separator : Char} {first : List Char} (single : separator ∉ first)
    (rest : List Char) :
    pieces separator (first ++ separator :: rest) = first :: pieces separator rest := by
  induction first with
  | nil => exact if_pos rfl
  | cons c first ih =>
    obtain ⟨other, single⟩ := not_or.mp (mt List.mem_cons.mpr single)
    rw [List.cons_append, pieces, if_neg (Ne.symm other), ih single]

/-- A path is encoded segment by segment. -/
theorem encodePath_append {first : List Char} (single : '/' ∉ first) (rest : List Char) :
    encodePath (first ++ '/' :: rest) = encode first ++ '/' :: encodePath rest := by
  obtain ⟨next, more, shape⟩ := List.exists_cons_of_ne_nil (pieces_ne_nil '/' rest)
  rw [encodePath, encodePath, pieces_append single, shape]
  rfl

/-! ## Characters that stand for themselves -/

/-- **Decoding goes on behind a character that escapes do not use** as if nothing stood in front
of it. -/
theorem decode_cut {c : Char} (ascii : isAscii c = true) (other : c ≠ '%')
    (digit : hexValue? c = none) (front rest : List Char) :
    decode (front ++ c :: rest) = decode front ++ c :: decode rest := by
  have small : c.toNat < 128 := of_decide_eq_true ascii
  have byte : (UInt8.ofNat c.toNat).toNat = c.toNat := toNat_byte (by omega)
  rw [decode_eq_ofUtf8, decodeBytes_cut other digit, utf8_ascii small, List.singleton_append,
    ofUtf8_cut _ (by omega), byte, Char.ofNat_toNat, ← decode_eq_ofUtf8, ← decode_eq_ofUtf8]

/-- Text without percent signs stands for itself. -/
theorem decodeBytes_plain {text : List Char} (plain : '%' ∉ text) :
    decodeBytes text = utf8 text := by
  induction text with
  | nil => rfl
  | cons c text ih =>
    obtain ⟨other, plain⟩ := not_or.mp (mt List.mem_cons.mpr plain)
    rw [decodeBytes_cons (Ne.symm other), ih plain]
    simp [utf8]

theorem decode_plain {text : List Char} (plain : '%' ∉ text) : decode text = text := by
  rw [decode_eq_ofUtf8, decodeBytes_plain plain, ofUtf8_utf8]

theorem decodeBytes_cons_ne_nil (c : Char) (rest : List Char) : decodeBytes (c :: rest) ≠ [] := by
  have written (c : Char) (bytes : Bytes) : utf8 [c] ++ bytes ≠ [] := by
    obtain ⟨first, more, encoded, -⟩ := firstChar_encode c []
    rw [utf8, List.flatMap_singleton, encoded]
    exact List.cons_ne_nil _ _
  unfold decodeBytes
  split
  · split
    · exact List.cons_ne_nil _ _
    · exact written _ _
  · exact written _ _
  · rename_i none
    cases none

/-- Only the empty text stands for the empty text. -/
theorem decode_eq_nil_iff {text : List Char} : decode text = [] ↔ text = [] := by
  refine ⟨fun none => ?_, fun none => by rw [none, decode]⟩
  cases text with
  | nil => rfl
  | cons c rest =>
    obtain ⟨first, more, shape⟩ := List.exists_cons_of_ne_nil (decodeBytes_cons_ne_nil c rest)
    rw [decode_eq_ofUtf8, shape, ofUtf8] at none
    cases none

end Percent

end DiskStaging.Text
