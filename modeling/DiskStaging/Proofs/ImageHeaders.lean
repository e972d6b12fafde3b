import DiskStaging.Proofs.Sniffing

/-!
# The grammar of image headers

Magic bytes at a fixed place tell the format of an image, and where two formats put theirs in
front, the header has to be sound as well (`Image.SoundQcow2`, `Image.SoundVmdk`). Nothing else
counts (`Image.Told`). An image that passes has a whole header (`Image.headerSize_le`), and all
that is looked at lies in there. So the bytes behind the header neither make an image of a
container format nor unmake it (`Image.format_grammar`).
-/

set_option autoImplicit false

namespace DiskStaging

/-- How many leading bytes an image of a format has at least. -/
def ImageFormat.headerSize : ImageFormat → Nat
  | .raw => 1
  | .qcow2 => qcow2HeaderSize
  | .vmdk => 8
  | .vdi => 68
  | .vhd => 8
  | .vhdx => 8

theorem ImageFormat.headerSize_pos (format : ImageFormat) : 0 < format.headerSize := by
  cases format <;> decide

namespace Image

/-! ## Whole headers -/

/-- A field that is as long as its magic lies inside the header. -/
theorem length_of_field {header magic : Bytes} {offset : Nat} (some : magic ≠ [])
    (found : field header offset magic.length = magic) :
    offset + magic.length ≤ header.length := by
  have size := congrArg List.length found
  rw [field, List.length_take, List.length_drop] at size
  have positive := List.length_pos_iff.mpr some
  omega

theorem length_of_checkQcow2 {header : Bytes} (passed : checkQcow2 header = .ok ()) :
    qcow2HeaderSize ≤ header.length := by
  unfold checkQcow2 at passed
  dsimp only at passed
  split at passed
  · cases passed
  · rename_i long
    exact Nat.le_of_not_lt long

theorem length_of_checkVmdk {header : Bytes} (passed : checkVmdk header = .ok ()) :
    8 ≤ header.length := by
  unfold checkVmdk at passed
  dsimp only at passed
  split at passed
  · cases passed
  · rename_i long
    exact Nat.le_of_not_lt long

/-- A check that was passed gives the format. -/
theorem check_of_map {header : Bytes} {known found : ImageFormat}
    (passed : (check header known).map (fun () => known) = .ok found) :
    check header known = .ok () ∧ known = found := by
  cases checked : check header known with
  | error why =>
    rw [checked] at passed
    cases passed
  | ok value =>
    rw [checked] at passed
    cases passed
    exact ⟨rfl, rfl⟩

/-- **An image that passes has a whole header.** -/
theorem headerSize_le {leading : Bytes} {found : ImageFormat}
    (passed : format leading = .ok found) : found.headerSize ≤ leading.length := by
  unfold format at passed
  split at passed
  · cases passed
  · rename_i some
    split at passed
    · cases passed
      exact List.length_pos_iff.mpr (mt List.isEmpty_iff.mpr some)
    · rename_i known offset magic listed
      have here : field leading offset magic.length = magic := by
        simpa using List.find?_some listed
      obtain ⟨checked, rfl⟩ := check_of_map passed
      have among := List.mem_of_find?_eq_some listed
      simp only [magics, List.mem_cons, Prod.mk.injEq, List.not_mem_nil, or_false] at among
      rcases among with ⟨rfl, -, -⟩ | ⟨rfl, -, -⟩ | ⟨rfl, rfl, rfl⟩ | ⟨rfl, rfl, rfl⟩ |
        ⟨rfl, rfl, rfl⟩
      · exact length_of_checkQcow2 checked
      · exact length_of_checkVmdk checked
      · exact length_of_field (by decide) here
      · exact length_of_field (by decide) here
      · exact length_of_field (by decide) here

/-! ## Sound headers -/

/-- A qcow2 header of a known version, with clusters of a size that there is. -/
structure SoundQcow2 (image : Bytes) : Prop where
  long : 72 ≤ image.length
  version : (field image 4 4).big = 2 ∨ (field image 4 4).big = 3
  clusterBits : 9 ≤ (field image 20 4).big ∧ (field image 20 4).big ≤ 21

/-- A vmdk header of a known version. -/
structure SoundVmdk (image : Bytes) : Prop where
  long : 8 ≤ image.length
  version : (field image 4 4).little = 1 ∨ (field image 4 4).little = 2 ∨
    (field image 4 4).little = 3

theorem checkQcow2_eq_ok_iff {image : Bytes} : checkQcow2 image = .ok () ↔ SoundQcow2 image := by
  constructor
  · intro passed
    refine ⟨length_of_checkQcow2 passed, ?_, ?_⟩ <;>
      simp only [checkQcow2] at passed <;> split_ifs at passed <;> omega
  · rintro ⟨long, version, clusterBits⟩
    have whole : ¬image.length < qcow2HeaderSize := Nat.not_lt.mpr long
    simp only [checkQcow2, if_neg whole]
    rw [if_neg (by omega), if_neg (by omega)]

theorem checkVmdk_eq_ok_iff {image : Bytes} : checkVmdk image = .ok () ↔ SoundVmdk image := by
  constructor
  · intro passed
    refine ⟨length_of_checkVmdk passed, ?_⟩
    simp only [checkVmdk] at passed
    split_ifs at passed
    omega
  · rintro ⟨long, version⟩
    simp only [checkVmdk, if_neg (Nat.not_lt.mpr long)]
    rw [if_neg (by omega)]

/-! ## What magic bytes tell -/

/-- The bytes in front of qcow2 images. -/
def qcow2Magic : Bytes := [0x51, 0x46, 0x49, 0xFB]

/-- The bytes in front of vmdk images. -/
def vmdkMagic : Bytes := [0x4B, 0x44, 0x4D, 0x56]

/-- The bytes in front of vhdx images. -/
def vhdxMagic : Bytes := [0x76, 0x68, 0x64, 0x78, 0x66, 0x69, 0x6C, 0x65]

/-- The bytes in front of vhd images. -/
def vhdMagic : Bytes := [0x63, 0x6F, 0x6E, 0x65, 0x63, 0x74, 0x69, 0x78]

/-- The bytes behind the first 64 ones of vdi images. -/
def vdiMagic : Bytes := [0x7F, 0x10, 0xDA, 0xBE]

/-- The format of an image whose header is not checked any further. -/
def unchecked (image : Bytes) : ImageFormat :=
  if vhdxMagic <+: image then .vhdx
  else if vhdMagic <+: image then .vhd
  else if field image 64 4 = vdiMagic then .vdi
  else .raw

theorem field_front (image magic : Bytes) :
    field image 0 magic.length = magic ↔ magic <+: image := by
  rw [field, List.drop_zero, List.prefix_iff_eq_take, eq_comm]

/-- The formats by their magic bytes, one after the other. -/
theorem format_eq {image : Bytes} (some : image ≠ []) :
    format image =
      if qcow2Magic <+: image then (checkQcow2 image).map fun () => .qcow2
      else if vmdkMagic <+: image then (checkVmdk image).map fun () => .vmdk
      else .ok (unchecked image) := by
  have none : ¬image.isEmpty = true := mt List.isEmpty_iff.mp some
  have table : magics = [(.qcow2, 0, qcow2Magic), (.vmdk, 0, vmdkMagic), (.vhdx, 0, vhdxMagic),
      (.vhd, 0, vhdMagic), (.vdi, 64, vdiMagic)] := rfl
  have last : vdiMagic.length = 4 := rfl
  simp only [format, if_neg none, table, List.find?_cons, List.find?_nil, field_front, last,
    unchecked]
  by_cases qcow2 : qcow2Magic <+: image
  · simp [qcow2, check]
  · by_cases vmdk : vmdkMagic <+: image
    · simp [qcow2, vmdk, check]
    · by_cases vhdx : vhdxMagic <+: image
      · simp [qcow2, vmdk, vhdx, check, Except.map]
      · by_cases vhd : vhdMagic <+: image
        · simp [qcow2, vmdk, vhdx, vhd, check, Except.map]
        · by_cases vdi : field image 64 4 = vdiMagic
          · simp [qcow2, vmdk, vhdx, vhd, vdi, check, Except.map]
          · simp [qcow2, vmdk, vhdx, vhd, vdi]

/-- No image has the magic bytes of both formats that are checked. -/
theorem not_vmdk_of_qcow2 {image : Bytes} (front : qcow2Magic <+: image) :
    ¬vmdkMagic <+: image := by
  intro other
  have same : qcow2Magic <+: vmdkMagic := List.prefix_of_prefix_length_le front other (by decide)
  exact absurd same (by decide)

/-- What an image is found to be, in terms of its bytes. -/
structure Told (image : Bytes) (verdict : Except HeaderFault ImageFormat) : Prop where
  qcow2 : verdict = .ok .qcow2 ↔ qcow2Magic <+: image ∧ SoundQcow2 image
  vmdk : verdict = .ok .vmdk ↔ vmdkMagic <+: image ∧ SoundVmdk image
  broken : (∃ why, verdict = .error why) ↔
    qcow2Magic <+: image ∧ ¬SoundQcow2 image ∨ vmdkMagic <+: image ∧ ¬SoundVmdk image
  other : ¬qcow2Magic <+: image → ¬vmdkMagic <+: image → verdict = .ok (unchecked image)

/-- An image that is not checked is neither of the two that are. -/
theorem unchecked_ne (image : Bytes) : unchecked image ≠ .qcow2 ∧ unchecked image ≠ .vmdk := by
  unfold unchecked
  split_ifs <;> decide

theorem told_format {image : Bytes} (some : image ≠ []) : Told image (format image) := by
  rw [format_eq some]
  by_cases qcow2 : qcow2Magic <+: image
  · have vmdk := not_vmdk_of_qcow2 qcow2
    rw [if_pos qcow2]
    cases checked : checkQcow2 image with
    | ok _ =>
      have sound := checkQcow2_eq_ok_iff.mp checked
      exact ⟨by simp [Except.map, qcow2, sound], by simp [Except.map, vmdk],
        by simp [Except.map, sound, vmdk], fun other => absurd qcow2 other⟩
    | error why =>
      have unsound : ¬SoundQcow2 image := by
        rw [← checkQcow2_eq_ok_iff, checked]
        intro passed
        cases passed
      exact ⟨by simp [Except.map, unsound], by simp [Except.map, vmdk],
        by simp [Except.map, qcow2, unsound], fun other => absurd qcow2 other⟩
  · rw [if_neg qcow2]
    by_cases vmdk : vmdkMagic <+: image
    · rw [if_pos vmdk]
      cases checked : checkVmdk image with
      | ok _ =>
        have sound := checkVmdk_eq_ok_iff.mp checked
        exact ⟨by simp [Except.map, qcow2], by simp [Except.map, vmdk, sound],
          by simp [Except.map, sound, qcow2], fun _ other => absurd vmdk other⟩
      | error why =>
        have unsound : ¬SoundVmdk image := by
          rw [← checkVmdk_eq_ok_iff, checked]
          intro passed
          cases passed
        exact ⟨by simp [Except.map, qcow2], by simp [Except.map, unsound],
          by simp [Except.map, vmdk, unsound], fun _ other => absurd vmdk other⟩
    · rw [if_neg vmdk]
      obtain ⟨notQcow2, notVmdk⟩ := unchecked_ne image
      exact ⟨by simp [notQcow2, qcow2], by simp [notVmdk, vmdk], by simp [qcow2, vmdk],
        fun _ _ => rfl⟩

/-- An image of any other format does not begin like one of the two that are checked. -/
theorem Told.front {image : Bytes} {found : ImageFormat} (told : Told image (.ok found))
    (qcow2 : found ≠ .qcow2) (vmdk : found ≠ .vmdk) :
    ¬qcow2Magic <+: image ∧ ¬vmdkMagic <+: image := by
  have sane : ¬∃ why : HeaderFault, Except.ok found = .error why := by
    rintro ⟨why, same⟩
    cases same
  rw [told.broken] at sane
  refine ⟨fun front => ?_, fun front => ?_⟩
  · by_cases sound : SoundQcow2 image
    · exact qcow2 (Except.ok.inj (told.qcow2.mpr ⟨front, sound⟩))
    · exact sane (.inl ⟨front, sound⟩)
  · by_cases sound : SoundVmdk image
    · exact vmdk (Except.ok.inj (told.vmdk.mpr ⟨front, sound⟩))
    · exact sane (.inr ⟨front, sound⟩)

/-! ## What comes behind the header -/

theorem field_append {image : Bytes} {offset size : Nat} (inside : offset + size ≤ image.length)
    (more : Bytes) : field (image ++ more) offset size = field image offset size := by
  rw [← field_take inside (image ++ more), List.take_left]

theorem prefix_append_iff {magic image : Bytes} (inside : magic.length ≤ image.length)
    (more : Bytes) : magic <+: image ++ more ↔ magic <+: image := by
  rw [← prefix_take_iff inside, List.take_left]

theorem SoundQcow2.append {image : Bytes} (sound : SoundQcow2 image) (more : Bytes) :
    SoundQcow2 (image ++ more) := by
  obtain ⟨long, version, clusterBits⟩ := sound
  refine ⟨?_, ?_, ?_⟩
  · rw [List.length_append]
    omega
  · rwa [field_append (by omega)]
  · rwa [field_append (by omega)]

theorem SoundVmdk.append {image : Bytes} (sound : SoundVmdk image) (more : Bytes) :
    SoundVmdk (image ++ more) := by
  obtain ⟨long, version⟩ := sound
  refine ⟨?_, ?_⟩
  · rw [List.length_append]
    omega
  · rwa [field_append (by omega)]

/-- The magic bytes of the formats that are not checked stay where they are. -/
theorem unchecked_append {image : Bytes} (long : 8 ≤ image.length)
    (container : unchecked image ≠ .raw) (more : Bytes) :
    unchecked (image ++ more) = unchecked image := by
  have vhdx := @prefix_append_iff vhdxMagic image long more
  have vhd := @prefix_append_iff vhdMagic image long more
  unfold unchecked at container ⊢
  simp only [vhdx, vhd]
  split_ifs at container ⊢ with front conectix moved vdi vdi
  · rfl
  · rfl
  · rfl
  · exact absurd rfl container
  · have inside : 64 + 4 ≤ image.length := length_of_field (by decide : vdiMagic ≠ []) vdi
    rw [field_append inside] at moved
    exact absurd vdi moved
  · rfl

/-- **An image of a container format is one whatever is appended to it.** -/
theorem format_append {image : Bytes} {found : ImageFormat} (told : format image = .ok found)
    (container : found ≠ .raw) (more : Bytes) : format (image ++ more) = .ok found := by
  have long := headerSize_le told
  have some : image ≠ [] := List.ne_nil_of_length_pos (found.headerSize_pos.trans_le long)
  have eight : 8 ≤ image.length := by
    refine Nat.le_trans ?_ long
    cases found with
    | raw => exact absurd rfl container
    | _ => decide
  have before := told_format some
  have after := told_format (List.append_ne_nil_of_left_ne_nil some more)
  rw [told] at before
  -- The checked formats keep their sound headers. The others keep theirs, and do not begin to
  -- look like one of the checked formats, since their first bytes are the same.
  by_cases qcow2 : found = .qcow2
  · obtain ⟨front, sound⟩ := before.qcow2.mp (by rw [qcow2])
    rw [qcow2]
    exact after.qcow2.mpr ⟨front.trans (List.prefix_append image more), sound.append more⟩
  · by_cases vmdk : found = .vmdk
    · obtain ⟨front, sound⟩ := before.vmdk.mp (by rw [vmdk])
      rw [vmdk]
      exact after.vmdk.mpr ⟨front.trans (List.prefix_append image more), sound.append more⟩
    · obtain ⟨notQcow2, notVmdk⟩ := before.front qcow2 vmdk
      obtain rfl := Except.ok.inj (before.other notQcow2 notVmdk)
      have four : 4 ≤ image.length := by omega
      have other := after.other (mt (prefix_append_iff (by exact four) more).mp notQcow2)
        (mt (prefix_append_iff (by exact four) more).mp notVmdk)
      rw [other, unchecked_append eight container]

/-- **The format of an image is told by its header alone**, and only by its magic bytes and, in
two formats, by a header that has to be sound. The first 72 bytes tell it, and an image of a
container format remains one whatever comes behind it. -/
theorem format_grammar (image : Bytes) :
    (image ≠ [] → Told image (format image)) ∧
      (∀ bound, 72 ≤ bound → format (image.take bound) = format image) ∧
      ∀ found, format image = .ok found → found ≠ .raw →
        ∀ more, format (image ++ more) = .ok found :=
  ⟨told_format, fun _ enough => format_take enough image, fun _ => format_append⟩

/-- A qcow2 header of version 3 with clusters of 64 KiB. Where vdi images have their magic bytes,
it has the same ones. -/
def qcow2Header : Bytes :=
  qcow2Magic ++ [0, 0, 0, 3] ++ List.replicate 12 0 ++ [0, 0, 0, 16] ++ List.replicate 40 0 ++
    vdiMagic ++ List.replicate 4 0

/-- One byte less than the header is a fault, and neither the magic bytes of another format nor
what comes behind makes a difference. -/
theorem format_grammar_qcow2 :
    (∃ why, format (qcow2Header.take 71) = .error why) ∧
      format ((qcow2Header ++ List.replicate 100 7).take 72) =
        format (qcow2Header ++ List.replicate 100 7) ∧
      ∀ more, format (qcow2Header ++ more) = .ok .qcow2 := by
  obtain ⟨told, -, -⟩ := format_grammar (qcow2Header.take 71)
  obtain ⟨-, first, -⟩ := format_grammar (qcow2Header ++ List.replicate 100 7)
  obtain ⟨-, -, stays⟩ := format_grammar qcow2Header
  refine ⟨?_, first 72 (Nat.le_refl 72), stays .qcow2 (by decide +kernel) (by decide)⟩
  refine (told (by decide)).broken.mpr (.inl ⟨by decide, ?_⟩)
  rintro ⟨long, -, -⟩
  exact absurd long (by decide)

end Image

end DiskStaging
