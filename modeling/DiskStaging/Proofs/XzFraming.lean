import DiskStaging.Lzma.Index

/-!
# The framing of xz streams

What frames the data of an xz stream is read back as it was written: numbers of variable
length (`Varint.reads_encode`), the header of the stream (`readStreamHeader_encode`), the
header of a block (`BlockParts.read_encode`), and the footer (`readStreamFooter_encode`). The
header of a block may state the sizes of the data before and after decoding, and zero bytes
may make it longer than it has to be.
-/

set_option autoImplicit false

namespace DiskStaging.Lzma

/-! ## Numbers of variable length -/

namespace Varint

/-- The bytes of a number: seven bits each, the lowest ones first, with a mark on all but the
last one. -/
def encode (value : Nat) : Bytes :=
  if value < 128 then [UInt8.ofNat value]
  else UInt8.ofNat (128 + value % 128) :: encode (value / 128)

/-- Some bytes complete a number. -/
inductive Reads : Varint → Bytes → Nat → Prop
  | last {number : Varint} {byte : UInt8} {value : Nat}
    (step : number.step byte = .complete value) :
    Reads number [byte] value
  | more {number next : Varint} {byte : UInt8} {bytes : Bytes} {value : Nat}
    (step : number.step byte = .more next) (rest : Reads next bytes value) :
    Reads number (byte :: bytes) value

theorem length_encode (value : Nat) : (encode value).length = width value := by
  fun_induction encode value with
  | case1 value small => rw [width, if_pos small, List.length_singleton]
  | case2 value large ih => rw [width, if_neg large, List.length_cons, ih]

theorem width_pos (value : Nat) : 0 < width value := by
  unfold width
  split <;> omega

/-- A number of so many groups of seven bits needs no more bytes than that. -/
theorem width_le {groups : Nat} (some : groups ≠ 0) {value : Nat}
    (less : value < 1 <<< (7 * groups)) : width value ≤ groups := by
  induction groups generalizing value with
  | zero => exact absurd rfl some
  | succ groups ih =>
    rw [width]
    split
    · omega
    · rename_i large
      have others : groups ≠ 0 := by
        rintro rfl
        exact large less
      have wider : 1 <<< (7 * (groups + 1)) = 128 * 1 <<< (7 * groups) := by
        rw [Nat.mul_succ, Nat.shiftLeft_add, Nat.shiftLeft_eq _ 7, Nat.mul_comm]
      rw [wider] at less
      have shorter := ih others (Nat.div_lt_of_lt_mul less)
      omega

/-- No size of a part of a stream needs more than nine bytes. -/
theorem width_le_nine {value : Nat} (fits : value ≤ greatestSize) : width value ≤ 9 := by
  refine width_le (by decide) ?_
  exact Nat.lt_of_le_of_lt fits (by decide)

/-- A group of seven bits that others follow. -/
theorem step_marked {number : Varint} {group : Nat} (less : group < 128)
    (fits : number.size + 1 < 9) :
    number.step (UInt8.ofNat (128 + group)) =
      .more ⟨number.value + group <<< (7 * number.size), number.size + 1⟩ := by
  have byte : (UInt8.ofNat (128 + group)).toNat = 128 + group :=
    UInt8.toNat_ofNat_of_lt' (by change _ < 256; omega)
  have marked : ¬UInt8.ofNat (128 + group) < 128 := by
    rw [UInt8.lt_iff_toNat_lt, byte]
    exact Nat.not_lt.mpr (Nat.le_add_right 128 group)
  have low : (128 + group) % 128 = group := by omega
  simp only [step, marked, if_false, byte, low, Nat.ne_of_lt fits]

/-- The last group of seven bits. -/
theorem step_last {number : Varint} {group : Nat} (less : group < 128)
    (shortest : 0 < group ∨ number.size = 0) :
    number.step (UInt8.ofNat group) =
      .complete (number.value + group <<< (7 * number.size)) := by
  have byte : (UInt8.ofNat group).toNat = group :=
    UInt8.toNat_ofNat_of_lt' (by change _ < 256; omega)
  have last : UInt8.ofNat group < 128 := by
    rw [UInt8.lt_iff_toNat_lt, byte]
    exact less
  have needed : (decide (UInt8.ofNat group = 0) && decide (number.size > 0)) = false := by
    rw [Bool.and_eq_false_iff, decide_eq_false_iff_not, decide_eq_false_iff_not]
    rcases shortest with some | first
    · refine .inl ?_
      intro zero
      rw [← UInt8.toNat_inj, byte] at zero
      exact Nat.ne_of_gt some zero
    · exact .inr (by omega)
  simp only [step, last, if_true, needed, byte, Nat.mod_eq_of_lt less, Bool.false_eq_true, if_false]

theorem shift_groups (value place : Nat) :
    (value % 128) <<< place + (value / 128) <<< (place + 7) = value <<< place := by
  have whole := Nat.mod_add_div value 128
  rw [Nat.shiftLeft_eq, Nat.shiftLeft_eq, Nat.shiftLeft_eq, Nat.pow_add, ← Nat.mul_assoc,
    Nat.mul_right_comm, ← Nat.add_mul, Nat.mul_comm (value / 128), whole]

/-- **A number is read back as it was written**, if it has no more bytes than a number may. -/
theorem reads_encode {number : Varint} {value : Nat} (fits : number.size + width value ≤ 9)
    (shortest : 0 < value ∨ number.size = 0) :
    Reads number (encode value) (number.value + value <<< (7 * number.size)) := by
  -- The number that is being read grows as the rest of the value shrinks: their sum stays.
  induction value using encode.induct generalizing number with
  | case1 value small =>
    rw [encode, if_pos small]
    exact .last (step_last small shortest)
  | case2 value large ih =>
    rw [width, if_neg large] at fits
    have group := Nat.mod_lt value (by decide : 128 > 0)
    have others := width_pos (value / 128)
    let next : Varint :=
      ⟨number.value + (value % 128) <<< (7 * number.size), number.size + 1⟩
    have later : Reads next (encode (value / 128)) _ :=
      ih (by change number.size + 1 + _ ≤ 9; omega) (.inl (by omega))
    have whole : next.value + (value / 128) <<< (7 * next.size) =
        number.value + value <<< (7 * number.size) := by
      change number.value + _ + _ <<< (7 * number.size + 7) = _
      rw [Nat.add_assoc, shift_groups]
    rw [whole] at later
    rw [encode, if_neg large]
    exact .more (step_marked group (by omega)) later

/-- A number is read off the front of what is behind it. -/
theorem Reads.read? {number : Varint} {bytes : Bytes} {value : Nat}
    (reads : Reads number bytes value) (rest : Bytes) :
    number.read? (bytes ++ rest) = some (value, rest) := by
  induction reads with
  | last step => rw [List.singleton_append, Varint.read?, step]
  | more step _ ih => rw [List.cons_append, Varint.read?, step]; exact ih

theorem reads_start {value : Nat} (fits : value ≤ greatestSize) :
    Reads start (encode value) value := by
  have short : start.size + width value ≤ 9 := by
    rw [start, Nat.zero_add]
    exact width_le_nine fits
  have reads := reads_encode short (.inr rfl)
  rwa [start, Nat.zero_add, Nat.mul_zero, Nat.shiftLeft_zero] at reads

end Varint

/-! ## Stream header and footer -/

/-- The check of some bytes of a header. -/
def checkOf (content : Bytes) : Bytes := Bytes.ofLittle 4 (Checksum.crc32 0 content).toNat

theorem checked_checkOf (content : Bytes) : checked content (checkOf content) = true := by
  refine decide_eq_true ?_
  rw [checkOf, Bytes.little_ofLittle]
  exact (Nat.mod_eq_of_lt (UInt32.toNat_lt _)).symm

@[simp] theorem length_checkOf (content : Bytes) : (checkOf content).length = 4 :=
  Bytes.length_ofLittle ..

/-- The two bytes that name a kind of check. -/
def streamFlags (kind : Nat) : Bytes := [0, UInt8.ofNat kind]

/-- The header of a stream. -/
def streamHeader (kind : Nat) : Bytes :=
  streamMagic ++ (streamFlags kind ++ checkOf (streamFlags kind))

/-- What the footer of a stream states. -/
def footerContent (kind indexSize : Nat) : Bytes :=
  Bytes.ofLittle 4 (indexSize / 4 - 1) ++ streamFlags kind

/-- The footer of a stream. -/
def streamFooter (kind indexSize : Nat) : Bytes :=
  checkOf (footerContent kind indexSize) ++ (footerContent kind indexSize ++ footerMagic)

section Framing

variable {kind : Nat} (known : kind < 16)

include known

theorem checkKind_streamFlags : checkKind (streamFlags kind) = .ok kind := by
  have byte : (UInt8.ofNat kind).toNat = kind :=
    UInt8.toNat_ofNat_of_lt' (by change _ < 256; omega)
  have low : ¬16 ≤ UInt8.ofNat kind := by
    rw [UInt8.le_iff_toNat_le, byte]
    exact Nat.not_le.mpr known
  simp [checkKind, streamFlags, low, byte]

/-- **The header of a stream is read back.** -/
theorem readStreamHeader_streamHeader : readStreamHeader (streamHeader kind) = .ok kind := by
  have checked := checked_checkOf (streamFlags kind)
  have magic : (streamHeader kind).take 6 = streamMagic := rfl
  have flags : ((streamHeader kind).drop 6).take 2 = streamFlags kind := rfl
  have check : (streamHeader kind).drop 8 = checkOf (streamFlags kind) := rfl
  simp only [readStreamHeader, magic, flags, check, checked, checkKind_streamFlags known, ne_eq,
    not_true, if_false, Bool.not_true, Bool.false_eq_true]

/-- **The footer of a stream is read back**, if the size of the index can be stated. -/
theorem readStreamFooter_streamFooter {indexSize : Nat} (whole : 4 ∣ indexSize)
    (some : 0 < indexSize) (fits : indexSize ≤ 4 * 1 <<< 32) :
    readStreamFooter (streamFooter kind indexSize) indexSize kind = .ok () := by
  have checked := checked_checkOf (footerContent kind indexSize)
  have magic : (streamFooter kind indexSize).drop 10 = footerMagic := rfl
  have content : ((streamFooter kind indexSize).drop 4).take 6 = footerContent kind indexSize := rfl
  have check : (streamFooter kind indexSize).take 4 = checkOf (footerContent kind indexSize) := rfl
  have flags : (footerContent kind indexSize).drop 4 = streamFlags kind := rfl
  have size : (Bytes.little ((footerContent kind indexSize).take 4) + 1) * 4 = indexSize := by
    change (Bytes.little (Bytes.ofLittle 4 (indexSize / 4 - 1)) + 1) * 4 = indexSize
    rw [Bytes.little_ofLittle, Nat.mod_eq_of_lt (by omega)]
    omega
  simp only [readStreamFooter, magic, content, check, checked, flags, size,
    checkKind_streamFlags known, ne_eq, not_true, if_false, Bool.not_true, Bool.false_eq_true,
    bind, Except.bind, decide_false, Bool.or_self]
  rfl

end Framing

/-! ## Block headers -/

/-- What the header of a block states whose data are chunks and went through no filter. -/
structure BlockParts where
  packed : Option Nat
  unpacked : Option Nat
  dictionary : Fin 41
  /-- Every one of them makes the header longer by four bytes. -/
  spare : Nat

namespace BlockParts

variable (parts : BlockParts)

/-- The bytes of a size that may not be stated. -/
def sizeField (size : Option Nat) : Bytes := (size.map Varint.encode).getD []

/-- The flags that say which sizes are stated. -/
def flagsOf (packed unpacked : Bool) : Nat := 64 * packed.toNat + 128 * unpacked.toNat

/-- The flags of the header. -/
def flags : Nat := flagsOf parts.packed.isSome parts.unpacked.isSome

/-- What is stated: the flags, the sizes, and the number and the properties of the chunks. -/
def stated : Bytes :=
  UInt8.ofNat parts.flags :: (sizeField parts.packed ++ (sizeField parts.unpacked ++
    [0x21, 1, UInt8.ofNat parts.dictionary]))

/-- The number of zero bytes that fill the header up to a multiple of four. -/
def padding : Nat := (4 - (parts.stated.length + 1) % 4) % 4 + 4 * parts.spare

/-- The size of the header. -/
def size : Nat := parts.stated.length + 1 + parts.padding + 4

/-- The header without its check. -/
def content : Bytes :=
  UInt8.ofNat (parts.size / 4 - 1) :: (parts.stated ++ List.replicate parts.padding 0)

/-- The header of a block. -/
def encode : Bytes := parts.content ++ checkOf parts.content

theorem length_content : parts.content.length = parts.size - 4 := by
  simp only [content, size, List.length_cons, List.length_append, List.length_replicate]
  omega

theorem length_encode : parts.encode.length = parts.size := by
  rw [encode, List.length_append, length_content, length_checkOf, Nat.sub_add_cancel]
  exact Nat.le_add_left ..

theorem four_dvd_size : 4 ∣ parts.size := by
  unfold size padding
  omega

/-- A header has at least twelve bytes. -/
theorem twelve_le_size : 12 ≤ parts.size := by
  have stated : 4 ≤ parts.stated.length := by
    simp only [BlockParts.stated, List.length_cons, List.length_append]
    omega
  have whole := parts.four_dvd_size
  unfold size at *
  omega

variable {parts}

/-- What flags are read for. -/
theorem flagsOf_spec (packed unpacked : Bool) :
    flagsOf packed unpacked < 256 ∧ flagsOf packed unpacked / 4 % 16 = 0 ∧
      flagsOf packed unpacked % 4 = 0 ∧ decide (flagsOf packed unpacked / 64 % 2 = 1) = packed ∧
        decide (flagsOf packed unpacked / 128 = 1) = unpacked := by
  cases packed <;> cases unpacked <;> decide

theorem readSize_sizeField {size : Option Nat} (fits : ∀ value ∈ size, value ≤ greatestSize)
    (rest : Bytes) : readSize size.isSome (sizeField size ++ rest) = .ok (size, rest) := by
  cases size with
  | none => rfl
  | some value =>
    have reads := (Varint.reads_start (fits value rfl)).read? rest
    simp only [readSize, sizeField, Option.isSome, Option.map, Option.getD, reads, if_true]

theorem readSteps_chunks (dictionary : Fin 41) (padding : Bytes) :
    readSteps 1 ([0x21, 1, UInt8.ofNat dictionary] ++ padding) =
      .ok ([.chunks (dictionarySize dictionary)], padding) := by
  have byte : (UInt8.ofNat dictionary).toNat = dictionary :=
    UInt8.toNat_ofNat_of_lt' (by have := dictionary.isLt; change _ < 256; omega)
  have low : ¬UInt8.ofNat dictionary > 40 := by
    have less := dictionary.isLt
    rw [gt_iff_lt, UInt8.lt_iff_toNat_lt, byte]
    change ¬40 < _
    omega
  have number (rest : Bytes) : Varint.start.read? (0x21 :: rest) = some (0x21, rest) := rfl
  have size (rest : Bytes) : Varint.start.read? (1 :: rest) = some (1, rest) := rfl
  simp [readSteps, number, size, PackingStep.ofProperties, low, byte, bind, Except.bind]

/-- **The header of a block is read back.** -/
theorem read_encode {checkSize : Nat}
    (packed : ∀ size ∈ parts.packed,
      0 < size ∧ parts.size + size + checkSize ≤ greatestSize)
    (unpacked : ∀ size ∈ parts.unpacked, size ≤ greatestSize) :
    readBlockHeader parts.encode checkSize =
      .ok ⟨parts.size, parts.packed, parts.unpacked, [], dictionarySize parts.dictionary⟩ := by
  obtain ⟨small, plain, single, statesPacked, statesUnpacked⟩ :=
    flagsOf_spec parts.packed.isSome parts.unpacked.isSome
  have flags : (parts.encode.getD 1 0).toNat = flagsOf parts.packed.isSome parts.unpacked.isSome :=
    UInt8.toNat_ofNat_of_lt' small
  have checked := checked_checkOf parts.content
  have content : parts.encode.take (parts.size - 4) = parts.content := by
    rw [← length_content]
    exact List.take_left
  have check : parts.encode.drop (parts.size - 4) = checkOf parts.content := by
    rw [← length_content]
    exact List.drop_left
  have fields : parts.content.drop 2 = sizeField parts.packed ++ (sizeField parts.unpacked ++
      ([0x21, 1, UInt8.ofNat parts.dictionary] ++ List.replicate parts.padding 0)) := by
    simp only [BlockParts.content, stated, List.cons_append, List.drop_succ_cons, List.drop_zero,
      List.append_assoc]
  have fits : (parts.packed.any fun packed =>
      decide (packed = 0) || decide (parts.size + packed + checkSize > greatestSize)) = false := by
    rw [Option.any_eq_false]
    intro size stated
    obtain ⟨some, less⟩ := packed size stated
    rw [decide_eq_false (Nat.ne_of_gt some), decide_eq_false (Nat.not_lt.mpr less)]
    decide
  have sizes : ∀ size ∈ parts.packed, size ≤ greatestSize := by
    intro size stated
    have less := (packed size stated).2
    omega
  have zeros : ((List.replicate parts.padding (0 : UInt8)).any fun byte => decide ¬byte = 0) =
      false := by
    simp
  simp only [readBlockHeader, length_encode, content, check, checked, flags, plain, single,
    statesPacked, statesUnpacked, fields, readSize_sizeField sizes, readSize_sizeField unpacked,
    readSteps_chunks, bind, Except.bind, Bool.not_true, Bool.false_eq_true, if_false, fits, zeros,
    ne_eq, not_true, Nat.zero_add, Packing.ofSteps]

end BlockParts

end DiskStaging.Lzma
