import DiskStaging.Proofs.GzipContents
import DiskStaging.Proofs.StoredDeflate

/-!
# Gzip data that store their content

A member of gzip data has a header with some optional fields, deflate data, and a trailer
with the check value and the size of its content. If its deflate data are stored blocks,
it decodes to what these hold, whatever fields its header has and however many zero bytes
pad the space behind it (`Gzip.contents_member`). So a row of such members decodes to
their contents, one after the other (`Gzip.contents_stored`).
-/

set_option autoImplicit false

namespace DiskStaging.Gzip

open Coding Deflate

/-! ## Writing members -/

/-- The optional fields of a header. -/
structure HeaderFields where
  extra : Option Bytes
  name : Option Bytes
  comment : Option Bytes
  check : Option Bytes

/-- Fields that can be told from what is behind them: an extra field states its size in two
bytes, a text ends with a zero byte, and a check value has two bytes. -/
structure HeaderFields.Fit (fields : HeaderFields) : Prop where
  extra : ∀ field ∈ fields.extra, field.length < 65536
  name : ∀ field ∈ fields.name, 0 ∉ field
  comment : ∀ field ∈ fields.comment, 0 ∉ field
  check : ∀ field ∈ fields.check, field.length = 2

namespace HeaderFields

/-- The flags that announce the fields, and one that marks the content as text. -/
def flags (fields : HeaderFields) (text : Bool) : UInt8 :=
  UInt8.ofNat (text.toNat + 2 * fields.check.isSome.toNat + 4 * fields.extra.isSome.toNat +
    8 * fields.name.isSome.toNat + 16 * fields.comment.isSome.toNat)

/-- The bytes of a field that may be missing. -/
def encodeField (encode : Bytes → Bytes) (field : Option Bytes) : Bytes :=
  (field.map encode).getD []

/-- The bytes of the fields. -/
def encode (fields : HeaderFields) : Bytes :=
  encodeField (fun field => Bytes.ofLittle 2 field.length ++ field) fields.extra ++
    (encodeField (· ++ [0]) fields.name ++
      (encodeField (· ++ [0]) fields.comment ++ encodeField id fields.check))

end HeaderFields

/-- A member of gzip data that stores its content in blocks. -/
structure StoredMember where
  text : Bool
  /-- The time of the file and what else the fixed part of the header states. -/
  stamp : Bytes
  fields : HeaderFields
  blocks : List StoredBlock
  last : StoredBlock
  /-- The number of zero bytes behind the member. -/
  padding : Nat
  stamped : stamp.length = 6
  fit : fields.Fit

namespace StoredMember

/-- What a member holds. -/
def content (member : StoredMember) : Bytes := StoredBlock.contentOf member.blocks member.last

/-- The bytes of the header. -/
def header (member : StoredMember) : Bytes :=
  [0x1F, 0x8B] ++ ([deflateMethod, member.fields.flags member.text] ++ member.stamp ++
    member.fields.encode)

/-- The check value and the size of the content. -/
def trailer (member : StoredMember) : Bytes :=
  Bytes.ofLittle 4 (Checksum.crc32 0 member.content).toNat ++
    Bytes.ofLittle 4 member.content.length

/-- The bytes of a member. -/
def encode (member : StoredMember) : Bytes :=
  member.header ++ (StoredBlock.encodeAll member.blocks member.last ++
    (member.trailer ++ List.replicate member.padding 0))

end StoredMember

/-! ## Reading their headers -/

section Fields

variable {fields : HeaderFields}

theorem skipIf_encodeField {encode : Bytes → Bytes} {skip : Act Bytes Unit} {field : Option Bytes}
    (skips : ∀ content ∈ field, ∀ rest, skip (encode content ++ rest) = .ok () rest)
    (rest : Bytes) :
    skipIf field.isSome skip (HeaderFields.encodeField encode field ++ rest) = .ok () rest := by
  cases field with
  | none => rfl
  | some content => exact skips content rfl rest

theorem skipSized_plain {bytes : Bytes} {size : Nat} (length : bytes.length = size) (rest : Bytes) :
    skipSized Reader.plain size (bytes ++ rest) = .ok () rest := by
  simp only [skipSized, Bind.bind, EStateM.bind, Reader.plain_exactly length]
  rfl

theorem skipExtra_plain {field : Bytes} (fits : field.length < 65536) (rest : Bytes) :
    skipExtra Reader.plain (Bytes.ofLittle 2 field.length ++ field ++ rest) = .ok () rest := by
  have size : Bytes.little (Bytes.ofLittle 2 field.length) % 1 <<< 16 = field.length := by
    rw [Bytes.little_ofLittle]
    exact (Nat.mod_mod ..).trans (Nat.mod_eq_of_lt fits)
  rw [List.append_assoc]
  simp only [skipExtra, Bind.bind, EStateM.bind, Reader.plain_exactly (Bytes.length_ofLittle ..)]
  exact skipSized_plain size.symm rest

theorem skipText_plain {field : Bytes} (text : 0 ∉ field) (rest : Bytes) :
    skipText Reader.plain (field ++ [0] ++ rest) = .ok () rest := by
  have others : ∀ byte ∈ field, decide (byte = 0) = false := by
    intro byte there
    exact decide_eq_false fun zero => text (zero ▸ there)
  rw [List.append_assoc]
  simp only [skipText, Bind.bind, EStateM.bind, List.singleton_append,
    Reader.plain_skipTo, Reader.skipped_found others (decide_eq_true rfl)]
  rfl

theorem flags_announce (fields : HeaderFields) (text : Bool) :
    hasExtra (fields.flags text) = fields.extra.isSome ∧
      hasName (fields.flags text) = fields.name.isSome ∧
      hasComment (fields.flags text) = fields.comment.isSome ∧
        hasHeaderCheck (fields.flags text) = fields.check.isSome := by
  unfold HeaderFields.flags
  generalize fields.extra.isSome = extra
  generalize fields.name.isSome = name
  generalize fields.comment.isSome = comment
  generalize fields.check.isSome = check
  revert text extra name comment check
  decide

/-- The fields that the flags announce are skipped. -/
theorem skipFields_plain (fit : fields.Fit) (text : Bool) (rest : Bytes) :
    skipFields Reader.plain (fields.flags text) (fields.encode ++ rest) = .ok () rest := by
  obtain ⟨extra, name, comment, check⟩ := flags_announce fields text
  unfold skipFields HeaderFields.encode
  rw [extra, name, comment, check]
  simp only [Bind.bind, EStateM.bind, List.append_assoc]
  rw [skipIf_encodeField fun field there => skipExtra_plain (fit.extra field there)]
  dsimp only
  rw [skipIf_encodeField fun field there => skipText_plain (fit.name field there)]
  dsimp only
  rw [skipIf_encodeField fun field there => skipText_plain (fit.comment field there)]
  dsimp only
  exact skipIf_encodeField (fun field there => skipSized_plain (fit.check field there)) rest

end Fields

/-- The header of a member is read up to its deflate data. -/
theorem readHeader_header (member : StoredMember) (rest : Bytes) :
    readHeader Reader.plain (member.header ++ rest) = .ok true rest := by
  have length : ([deflateMethod, member.fields.flags member.text] ++ member.stamp).length = 8 := by
    simp [member.stamped]
  have behind : readFixed Reader.plain
      ([deflateMethod, member.fields.flags member.text] ++ member.stamp ++
        (member.fields.encode ++ rest)) = .ok true rest := by
    have method : ¬ ([deflateMethod, member.fields.flags member.text] ++ member.stamp).head? ≠
        some deflateMethod := not_not_intro rfl
    have skips := skipFields_plain member.fit member.text rest
    simp only [readFixed, Bind.bind, EStateM.bind, Reader.plain_exactly length, if_neg method]
    change EStateM.bind (skipFields Reader.plain (member.fields.flags member.text)) _ _ = _
    rw [EStateM.bind, skips]
    rfl
  rw [readHeader, StoredMember.header, List.append_assoc, List.append_assoc]
  simp only [Bind.bind, EStateM.bind, Reader.plain_read]
  exact behind

/-! ## Reading members -/

/-- Behind the content there is the trailer that belongs to it, and then the padding. -/
theorem behind?_trailer (member : StoredMember) {rest : Bytes} (next : rest.head? ≠ some 0) :
    behind? (Checksum.crc32 0 member.content) member.content.length
      (member.trailer ++ (List.replicate member.padding 0 ++ rest)) = some rest := by
  have length : member.trailer.length = 8 := by simp [StoredMember.trailer]
  have check : Bytes.little (member.trailer.take 4) =
      (Checksum.crc32 0 member.content).toNat := by
    rw [StoredMember.trailer, List.take_left' (Bytes.length_ofLittle ..), Bytes.little_ofLittle]
    exact Nat.mod_eq_of_lt (UInt32.toNat_lt _)
  have size : Bytes.little (member.trailer.drop 4) = member.content.length % 1 <<< 32 := by
    rw [StoredMember.trailer, List.drop_left' (Bytes.length_ofLittle ..), Bytes.little_ofLittle]
  have padded : (List.replicate member.padding (0 : UInt8) ++ rest).dropWhile (· = 0) = rest := by
    rw [List.dropWhile_append_of_pos (by simp [List.mem_replicate])]
    cases rest with
    | nil => rfl
    | cons byte more =>
      refine List.dropWhile_cons_of_neg ?_
      intro zero
      exact next (congrArg some (of_decide_eq_true zero))
  simp only [behind?, readTrailer, Bind.bind, EStateM.bind, Reader.plain_exactly length, check,
    size, ne_eq, not_true, if_false]
  exact congrArg some padded

/-- **A member that stores its content decodes to it.** -/
theorem contents_member (member : StoredMember) {rest : Bytes} (next : rest.head? ≠ some 0) :
    contents (member.encode ++ rest) = (contents rest).behind member.content := by
  obtain ⟨machine, stopped, decoded⟩ := finish_stored Inflate.ready_start member.blocks
    member.last (member.trailer ++ (List.replicate member.padding 0 ++ rest))
  have whole : Gzip.member fresh 0 0 (StoredBlock.encodeAll member.blocks member.last ++
      (member.trailer ++ (List.replicate member.padding 0 ++ rest))) =
        ⟨member.content, some rest⟩ := by
    rw [← behind?_trailer member next]
    simp only [Gzip.member, fresh, decoded, stopped, if_true, Nat.zero_add]
    rfl
  rw [contents_eq, StoredMember.encode]
  simp only [List.append_assoc, readHeader_header]
  rw [whole]
  rfl

/-- The bytes of some members, one after the other. -/
def encodeMembers (members : List StoredMember) : Bytes := members.flatMap StoredMember.encode

/-- **Members that store their contents decode to these**, one after the other. -/
theorem contents_stored (members : List StoredMember) :
    contents (encodeMembers members) = ⟨members.flatMap StoredMember.content, true⟩ := by
  induction members with
  | nil => exact contents_nil
  | cons member more ih =>
    have next : (encodeMembers more).head? ≠ some 0 := by
      cases more with
      | nil =>
        intro none
        cases none
      | cons other more =>
        have magic : (encodeMembers (other :: more)).head? = some 0x1F := rfl
        rw [magic]
        decide
    rw [encodeMembers, List.flatMap_cons]
    exact (contents_member member next).trans (by rw [ih]; rfl)

end DiskStaging.Gzip
