import DiskStaging.Text.Utf8
import Mathlib

/-!
# Reading text in UTF-8

Text that is written in UTF-8 is read back (`ofUtf8_utf8`). Reading takes any bytes, and starts
anew at each one that cannot continue a character (`ofUtf8_apart`): what stands in front of an
ASCII character and behind it is read apart, and the character is read just where its byte stands
(`mem_ofUtf8_iff`). Bytes that are no text are not written so again (`utf8_ofUtf8_iff`).
-/

set_option autoImplicit false

namespace DiskStaging.Text

/-! ## Text as bytes -/

theorem toNat_byte {value : Nat} (small : value < 256) : (UInt8.ofNat value).toNat = value :=
  UInt8.toNat_ofNat_of_lt' small

/-- A byte lies between two others. -/
theorem between_iff {byte least most : UInt8} :
    (least ≤ byte && byte ≤ most) = true ↔
      least.toNat ≤ byte.toNat ∧ byte.toNat ≤ most.toNat := by
  simp only [UInt8.le_iff_toNat_le, Bool.and_eq_true, decide_eq_true_eq]

/-- A byte that continues a character, with six bits of it. -/
theorem continues_byte {value : Nat} (small : value < 64) :
    continues (UInt8.ofNat (value + 128)) = true ∧ payload (UInt8.ofNat (value + 128)) = value := by
  have byte : (UInt8.ofNat (value + 128)).toNat = value + 128 := toNat_byte (by omega)
  constructor
  · apply between_iff.mpr
    rw [byte]
    exact ⟨Nat.le_add_left 128 value, by change value + 128 ≤ 191; omega⟩
  · rw [payload, byte]
    omega

section FirstChar

variable {first second third fourth : UInt8} {rest : Bytes}

theorem firstChar_one (small : first.toNat < 0x80) :
    firstChar first rest = (Char.ofNat first.toNat, 0) := by
  have small : first < 0x80 := UInt8.lt_iff_toNat_lt.mpr small
  unfold firstChar
  exact if_pos small

/-- A byte that starts a longer character is no character by itself. -/
theorem not_single (least : 0x80 ≤ first.toNat) : ¬first < 0x80 := by
  intro small
  exact absurd (UInt8.lt_iff_toNat_lt.mp small) (Nat.not_lt.mpr least)

/-- A byte does not lie between two others if it is larger than both. -/
theorem not_between {least most : UInt8} (larger : most.toNat < first.toNat) :
    ¬(least ≤ first && first ≤ most) = true := by
  intro both
  exact absurd (between_iff.mp both).2 (Nat.not_le.mpr larger)

theorem firstChar_two (least : 0xC2 ≤ first.toNat) (most : first.toNat ≤ 0xDF)
    (next : continues second = true) :
    firstChar first (second :: rest) =
      (Char.ofNat (first.toNat % 32 * 64 + payload second), 1) := by
  have large : ¬first < 0x80 := not_single (by omega)
  have two : (0xC2 ≤ first && first ≤ 0xDF) = true := between_iff.mpr ⟨least, most⟩
  unfold firstChar
  simp only [if_neg large, if_pos two, if_pos next]

theorem firstChar_three (least : 0xE0 ≤ first.toNat) (most : first.toNat ≤ 0xEF)
    (fits : secondFits first second = true) (next : continues third = true) :
    firstChar first (second :: third :: rest) =
      (Char.ofNat (first.toNat % 16 * 4096 + payload second * 64 + payload third), 2) := by
  have large : ¬first < 0x80 := not_single (by omega)
  have two : ¬(0xC2 ≤ first && first ≤ 0xDF) = true := not_between least
  have three : (0xE0 ≤ first && first ≤ 0xEF) = true := between_iff.mpr ⟨least, most⟩
  unfold firstChar
  simp only [if_neg large, if_neg two, if_pos three, if_pos fits, if_pos next]

theorem firstChar_four (least : 0xF0 ≤ first.toNat) (most : first.toNat ≤ 0xF4)
    (fits : secondFits first second = true) (next : continues third = true)
    (last : continues fourth = true) :
    firstChar first (second :: third :: fourth :: rest) =
      (Char.ofNat (first.toNat % 8 * 262144 + payload second * 4096 + payload third * 64 +
        payload fourth), 3) := by
  have large : ¬first < 0x80 := not_single (by omega)
  have two : ¬(0xC2 ≤ first && first ≤ 0xDF) = true :=
    not_between (Nat.lt_of_lt_of_le (by decide : 0xDF < 0xF0) least)
  have three : ¬(0xE0 ≤ first && first ≤ 0xEF) = true := not_between least
  have four : (0xF0 ≤ first && first ≤ 0xF4) = true := between_iff.mpr ⟨least, most⟩
  unfold firstChar
  simp only [if_neg large, if_neg two, if_neg three, if_pos four, if_pos fits, if_pos next,
    if_pos last]

/-- The second byte of a character is one that fits to the first, unless the character had a
shorter form, is a surrogate or lies beyond the last one. -/
theorem secondFits_byte {lead value : Nat} (byte : lead < 256) (small : value < 64)
    (shorter : lead = 0xE0 → 32 ≤ value) (surrogate : lead = 0xED → value < 32)
    (shortest : lead = 0xF0 → 16 ≤ value) (beyond : lead = 0xF4 → value < 16) :
    secondFits (UInt8.ofNat lead) (UInt8.ofNat (value + 128)) = true := by
  have first : (UInt8.ofNat lead).toNat = lead := toNat_byte byte
  have second : (UInt8.ofNat (value + 128)).toNat = value + 128 := toNat_byte (by omega)
  have leads {known : UInt8} (same : UInt8.ofNat lead = known) : lead = known.toNat := by
    rw [← same, first]
  have within {least most : UInt8}
      (bounds : least.toNat ≤ value + 128 ∧ value + 128 ≤ most.toNat) :
      (least ≤ UInt8.ofNat (value + 128) && UInt8.ofNat (value + 128) ≤ most) = true := by
    apply between_iff.mpr
    rwa [second]
  unfold secondFits
  split
  · rename_i same
    have wide := shorter (leads same)
    exact within ⟨by change 160 ≤ _; omega, by change _ ≤ 191; omega⟩
  · split
    · rename_i same
      have wide := surrogate (leads same)
      exact within ⟨by change 128 ≤ _; omega, by change _ ≤ 159; omega⟩
    · split
      · rename_i same
        have wide := shortest (leads same)
        exact within ⟨by change 144 ≤ _; omega, by change _ ≤ 191; omega⟩
      · split
        · rename_i same
          have wide := beyond (leads same)
          exact within ⟨by change 128 ≤ _; omega, by change _ ≤ 143; omega⟩
        · exact (continues_byte small).1

/-- The bounds of a second byte that fits to the first. -/
theorem bounds_of_secondFits (fits : secondFits first second = true) :
    128 ≤ second.toNat ∧ second.toNat ≤ 191 ∧ (first.toNat = 0xE0 → 160 ≤ second.toNat) ∧
      (first.toNat = 0xED → second.toNat ≤ 159) ∧ (first.toNat = 0xF0 → 144 ≤ second.toNat) ∧
      (first.toNat = 0xF4 → second.toNat ≤ 143) := by
  simp only [secondFits, continues, ← UInt8.toNat_inj] at fits
  split_ifs at fits <;>
  · obtain ⟨least, most⟩ := between_iff.mp fits
    simp only [UInt8.reduceToNat] at *
    omega

end FirstChar

/-- **The first character of encoded text is read back.** -/
theorem firstChar_encode (c : Char) (rest : Bytes) :
    ∃ first more, String.utf8EncodeChar c = first :: more ∧
      firstChar first (more ++ rest) = (c, more.length) := by
  have read : Char.ofNat c.val.toNat = c := Char.ofNat_toNat c
  have valid : c.val.toNat < 0xD800 ∨ 0xDFFF < c.val.toNat ∧ c.val.toNat < 0x110000 := c.valid
  unfold String.utf8EncodeChar
  generalize c.val.toNat = value at read valid
  dsimp only
  split
  · have lead : (UInt8.ofNat value).toNat = value := toNat_byte (by omega)
    refine ⟨_, [], rfl, ?_⟩
    rw [firstChar_one (by omega), lead, read]
    rfl
  · split
    · have lead : (UInt8.ofNat (value / 64 % 32 + 192)).toNat = value / 64 % 32 + 192 :=
        toNat_byte (by omega)
      obtain ⟨next, low⟩ := continues_byte (show value % 64 < 64 by omega)
      refine ⟨_, [_], rfl, ?_⟩
      rw [List.cons_append, firstChar_two (by omega) (by omega) next, lead, low]
      have whole : (value / 64 % 32 + 192) % 32 * 64 + value % 64 = value := by omega
      rw [whole, read]
      rfl
    · split
      · have lead : (UInt8.ofNat (value / 4096 % 16 + 224)).toNat = value / 4096 % 16 + 224 :=
          toNat_byte (by omega)
        obtain ⟨-, high⟩ := continues_byte (show value / 64 % 64 < 64 by omega)
        obtain ⟨next, low⟩ := continues_byte (show value % 64 < 64 by omega)
        have fits : secondFits (UInt8.ofNat (value / 4096 % 16 + 224))
            (UInt8.ofNat (value / 64 % 64 + 128)) = true := by
          apply secondFits_byte <;> omega
        refine ⟨_, [_, _], rfl, ?_⟩
        rw [List.cons_append, List.cons_append,
          firstChar_three (by omega) (by omega) fits next, lead, high, low]
        have whole : (value / 4096 % 16 + 224) % 16 * 4096 + value / 64 % 64 * 64 +
            value % 64 = value := by omega
        rw [whole, read]
        rfl
      · have lead : (UInt8.ofNat (value / 262144 % 8 + 240)).toNat = value / 262144 % 8 + 240 :=
          toNat_byte (by omega)
        obtain ⟨-, top⟩ := continues_byte (show value / 4096 % 64 < 64 by omega)
        obtain ⟨next, high⟩ := continues_byte (show value / 64 % 64 < 64 by omega)
        obtain ⟨last, low⟩ := continues_byte (show value % 64 < 64 by omega)
        have fits : secondFits (UInt8.ofNat (value / 262144 % 8 + 240))
            (UInt8.ofNat (value / 4096 % 64 + 128)) = true := by
          apply secondFits_byte <;> omega
        refine ⟨_, [_, _, _], rfl, ?_⟩
        rw [List.cons_append, List.cons_append, List.cons_append,
          firstChar_four (by omega) (by omega) fits next last, lead, top, high, low]
        have whole : (value / 262144 % 8 + 240) % 8 * 262144 + value / 4096 % 64 * 4096 +
            value / 64 % 64 * 64 + value % 64 = value := by omega
        rw [whole, read]
        rfl

/-- Text that is encoded is read back. -/
theorem ofUtf8_append (text : List Char) (bytes : Bytes) :
    ofUtf8 (utf8 text ++ bytes) = text ++ ofUtf8 bytes := by
  induction text with
  | nil => rfl
  | cons c text ih =>
    obtain ⟨first, more, encoded, read⟩ := firstChar_encode c (utf8 text ++ bytes)
    have whole : utf8 (c :: text) ++ bytes = first :: (more ++ (utf8 text ++ bytes)) := by
      rw [utf8, List.flatMap_cons, encoded]
      simp [utf8]
    rw [whole, ofUtf8, read]
    simp only [List.drop_left, ih, List.cons_append]

/-- **Reading text in UTF-8 undoes writing it so.** -/
theorem ofUtf8_utf8 (text : List Char) : ofUtf8 (utf8 text) = text := by
  have read := ofUtf8_append text []
  rwa [List.append_nil, ofUtf8, List.append_nil] at read

/-! ## Bytes that continue nothing -/

section Apart

variable {byte : UInt8}

/-- A byte of the ASCII range continues no character. -/
theorem continues_ascii (ascii : byte.toNat < 128) : continues byte = false := by
  refine Bool.eq_false_iff.mpr fun both => ?_
  have least : 128 ≤ byte.toNat := (between_iff.mp both).1
  omega

/-- A byte that fits to a first one continues a character. -/
theorem secondFits_apart (first : UInt8) (apart : continues byte = false) :
    secondFits first byte = false := by
  refine Bool.eq_false_iff.mpr fun fits => ?_
  obtain ⟨least, most, -⟩ := bounds_of_secondFits fits
  have continued : continues byte = true := between_iff.mpr ⟨least, most⟩
  rw [apart] at continued
  cases continued

/-- A character ends in front of a byte that continues none, complete or not. -/
theorem firstChar_append (first : UInt8) (more : Bytes) (apart : continues byte = false)
    (rest : Bytes) : firstChar first (more ++ byte :: rest) = firstChar first more := by
  have second (first : UInt8) := secondFits_apart first apart
  unfold firstChar
  dsimp only
  match more with
  | [] => cases rest with
    | nil => simp [apart, second]
    | cons third rest => cases rest <;> simp [apart, second]
  | [second] => cases rest <;> simp [apart, apply_ite (Prod.mk replacement)]
  | [second, third] => simp [apart, apply_ite (Prod.mk replacement)]
  | second :: third :: fourth :: more => rfl

theorem firstChar_le (first : UInt8) (more : Bytes) : (firstChar first more).2 ≤ more.length := by
  unfold firstChar
  match more with
  | [] | [second] | [second, third] | second :: third :: fourth :: more =>
    dsimp only
    split_ifs <;> simp

/-- **Reading starts anew at a byte that continues nothing**, whatever stands in front of it. -/
theorem ofUtf8_apart (bytes : Bytes) (apart : continues byte = false) (rest : Bytes) :
    ofUtf8 (bytes ++ byte :: rest) = ofUtf8 bytes ++ ofUtf8 (byte :: rest) := by
  induction bytes using ofUtf8.induct with
  | case1 =>
    rw [List.nil_append]
    conv_rhs => rw [ofUtf8.eq_1, List.nil_append]
  | case2 first more c used read ih =>
    have short : used ≤ more.length := by
      have := firstChar_le first more
      rw [read] at this
      exact this
    rw [List.cons_append, ofUtf8.eq_2, firstChar_append first more apart, read, ofUtf8.eq_2 first,
      read]
    dsimp only
    rw [List.drop_append_of_le_length short, ih, List.cons_append]

/-- Bytes of the ASCII range stand for themselves. -/
theorem ofUtf8_cut (bytes : Bytes) (ascii : byte.toNat < 128) (rest : Bytes) :
    ofUtf8 (bytes ++ byte :: rest) = ofUtf8 bytes ++ Char.ofNat byte.toNat :: ofUtf8 rest := by
  rw [ofUtf8_apart bytes (continues_ascii ascii), ofUtf8.eq_2, firstChar_one ascii]
  rfl

/-- A byte that continues a character is none by itself. -/
theorem firstChar_continues (continued : continues byte = true) (rest : Bytes) :
    firstChar byte rest = (replacement, 0) := by
  obtain ⟨least, most⟩ := between_iff.mp continued
  have large : ¬byte < 0x80 := not_single least
  have below {first last : UInt8} (larger : 0xBF < first.toNat) :
      ¬(first ≤ byte && byte ≤ last) = true := by
    intro both
    exact absurd (between_iff.mp both).1 (Nat.not_le.mpr (Nat.lt_of_le_of_lt most larger))
  unfold firstChar
  simp only [if_neg large, if_neg (below (by decide : 0xBF < (0xC2 : UInt8).toNat)),
    if_neg (below (by decide : 0xBF < (0xE0 : UInt8).toNat)),
    if_neg (below (by decide : 0xBF < (0xF0 : UInt8).toNat))]

end Apart

/-- The first byte of a character continues none. -/
theorem exists_utf8_cons (c : Char) :
    ∃ first more, utf8 [c] = first :: more ∧ continues first = false := by
  obtain ⟨first, more, encoded, read⟩ := firstChar_encode c []
  refine ⟨first, more, by rw [utf8, List.flatMap_singleton, encoded], ?_⟩
  refine Bool.eq_false_iff.mpr fun continued => ?_
  rw [firstChar_continues continued] at read
  obtain ⟨rfl, none⟩ := Prod.mk.inj read
  rw [List.eq_nil_of_length_eq_zero none.symm] at encoded
  have single : (String.utf8EncodeChar replacement).length = 1 := by rw [encoded]; rfl
  exact absurd single (by decide)

/-! ## Characters of one byte -/

section Single

variable {first : UInt8}

/-- A character of several bytes is outside the ASCII range. -/
theorem firstChar_wide (large : 128 ≤ first.toNat) (rest : Bytes) :
    ¬(firstChar first rest).1.toNat < 128 := by
  have replaced : ¬replacement.toNat < 128 := by decide
  have wide {value : Nat} (valid : value.isValidChar) (least : 128 ≤ value) :
      ¬(Char.ofNat value).toNat < 128 := by
    rw [Char.toNat_ofNat, if_pos valid]
    omega
  unfold firstChar
  dsimp only
  rw [if_neg (not_single large)]
  -- No character is written in more bytes than it needs: with two bytes this is a matter of the
  -- first one, and with three or four of the bounds of the second.
  split
  · rename_i two
    obtain ⟨least, most⟩ := between_iff.mp two
    simp only [UInt8.reduceToNat] at least most
    split
    · split
      · exact wide (.inl (by rw [payload]; omega)) (by rw [payload]; omega)
      · exact replaced
    · exact replaced
  split
  · rename_i three
    obtain ⟨least, most⟩ := between_iff.mp three
    simp only [UInt8.reduceToNat] at least most
    split
    · split
      · rename_i fits
        obtain ⟨low, high, shorter, surrogate, -⟩ := bounds_of_secondFits fits
        split
        · refine wide ?_ (by simp only [payload]; omega)
          rw [Nat.isValidChar]
          simp only [payload]
          omega
        · exact replaced
      · exact replaced
    · exact replaced
    · exact replaced
  split
  · rename_i four
    obtain ⟨least, most⟩ := between_iff.mp four
    simp only [UInt8.reduceToNat] at least most
    split
    · split
      · rename_i fits
        obtain ⟨low, high, -, -, shortest, beyond⟩ := bounds_of_secondFits fits
        split
        · split
          · refine wide (.inr ?_) (by simp only [payload]; omega)
            simp only [payload]
            omega
          · exact replaced
        · exact replaced
      · exact replaced
    · exact replaced
    · exact replaced
    · exact replaced
  · exact replaced

end Single

/-- **A character of the ASCII range is read just where its byte stands.** -/
theorem mem_ofUtf8_iff {c : Char} (ascii : c.toNat < 128) (bytes : Bytes) :
    c ∈ ofUtf8 bytes ↔ UInt8.ofNat c.toNat ∈ bytes := by
  have byte : (UInt8.ofNat c.toNat).toNat = c.toNat := toNat_byte (by omega)
  constructor
  · intro inside
    induction bytes using ofUtf8.induct with
    | case1 =>
      rw [ofUtf8] at inside
      cases inside
    | case2 first rest last used read ih =>
      rw [ofUtf8, read] at inside
      rcases List.mem_cons.mp inside with rfl | later
      · have single : first.toNat < 128 := by
          by_contra large
          have wide := firstChar_wide (Nat.le_of_not_lt large) rest
          rw [read] at wide
          exact wide ascii
        rw [firstChar_one single] at read
        obtain ⟨rfl, -⟩ := Prod.mk.inj read
        rw [Char.toNat_ofNat, if_pos (.inl (by omega)), UInt8.ofNat_toNat]
        exact List.mem_cons_self
      · exact List.mem_cons_of_mem _ (List.mem_of_mem_drop (ih later))
  · intro inside
    obtain ⟨front, rest, rfl⟩ := List.append_of_mem inside
    rw [ofUtf8_cut front (by omega), byte, Char.ofNat_toNat]
    simp

/-! ## Bytes that are text -/

/-- Bytes that are some text in UTF-8. -/
def IsUtf8 (bytes : Bytes) : Prop := ∃ text, bytes = utf8 text

/-- Reading bytes as text loses nothing just where they are text in UTF-8. -/
theorem utf8_ofUtf8_iff {bytes : Bytes} : utf8 (ofUtf8 bytes) = bytes ↔ IsUtf8 bytes := by
  constructor
  · intro same
    exact ⟨ofUtf8 bytes, same.symm⟩
  · rintro ⟨text, rfl⟩
    rw [ofUtf8_utf8]

/-- Texts with the same bytes are the same. -/
theorem utf8_inj {first second : String} :
    utf8 first.toList = utf8 second.toList ↔ first = second := by
  refine ⟨fun same => ?_, fun same => by rw [same]⟩
  rw [← String.toList_inj, ← ofUtf8_utf8 first.toList, same, ofUtf8_utf8]

end DiskStaging.Text
