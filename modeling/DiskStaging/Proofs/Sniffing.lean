import DiskStaging.Proofs.ContentServing
import DiskStaging.Sniff
import Mathlib.Data.List.Find

/-!
# What classifying content finds

The leading bytes that are looked at decide everything that the whole data do: the
format and the compression of an image are those of its first bytes
(`Image.format_take`, `Image.compression?_take`). So classifying content that is not
compressed finds the format of all of it, and leaves all of it to be read
(`sniff_plain`); classifying compressed data leaves what they decode to (`sniff_packed`,
and from it `sniff_gzip` and `sniff_xz`), unless more of it is looked at than fits
(`sniff_excessive`). What xz data decode to may hang on what comes behind
the last stream. Then there still is what they promise, should reading not break off
(`promises_of_sniff_xz`).
-/

set_option autoImplicit false

namespace DiskStaging

namespace Image

/-! ## Leading bytes -/

theorem field_take {offset size bound : Nat} (inside : offset + size ≤ bound) (image : Bytes) :
    field (image.take bound) offset size = field image offset size := by
  rw [field, field, List.drop_take, List.take_take, Nat.min_eq_left (Nat.le_sub_of_add_le' inside)]

theorem length_take_lt {bound limit : Nat} (within : limit ≤ bound) (image : Bytes) :
    (image.take bound).length < limit ↔ image.length < limit := by
  rw [List.length_take]
  omega

theorem checkQcow2_take {bound : Nat} (enough : qcow2HeaderSize ≤ bound) (image : Bytes) :
    checkQcow2 (image.take bound) = checkQcow2 image := by
  have wide : 72 ≤ bound := enough
  by_cases short : image.length < qcow2HeaderSize
  · rw [List.take_of_length_le (Nat.le_of_lt (Nat.lt_of_lt_of_le short enough))]
  · have long := mt (length_take_lt enough image).mp short
    simp only [checkQcow2, if_neg short, if_neg long]
    rw [field_take (by omega), field_take (by omega)]

theorem checkVmdk_take {bound : Nat} (enough : 8 ≤ bound) (image : Bytes) :
    checkVmdk (image.take bound) = checkVmdk image := by
  simp only [checkVmdk, length_take_lt enough]
  rw [field_take enough]

/-- The magics stand in the leading bytes of an image. -/
theorem find?_magics_take {bound : Nat} (enough : qcow2HeaderSize ≤ bound) (image : Bytes) :
    (magics.find? fun (_, offset, magic) =>
        field (image.take bound) offset magic.length = magic) =
      magics.find? fun (_, offset, magic) => field image offset magic.length = magic := by
  have wide : 72 ≤ bound := enough
  refine List.find?_congr ?_
  rintro ⟨known, offset, magic⟩ listed
  have inside : offset + magic.length ≤ bound := by
    simp only [magics, List.mem_cons, Prod.mk.injEq, List.not_mem_nil, or_false] at listed
    rcases listed with ⟨-, rfl, rfl⟩ | ⟨-, rfl, rfl⟩ | ⟨-, rfl, rfl⟩ | ⟨-, rfl, rfl⟩ |
      ⟨-, rfl, rfl⟩ <;>
      simp only [List.length_cons, List.length_nil] <;> omega
  dsimp only
  rw [field_take inside]

/-- **The format of an image is that of its leading bytes.** -/
theorem format_take {bound : Nat} (enough : qcow2HeaderSize ≤ bound) (image : Bytes) :
    format (image.take bound) = format image := by
  have wide : 72 ≤ bound := enough
  have empty : (image.take bound).isEmpty = image.isEmpty := by
    cases image with
    | nil => rw [List.take_nil]
    | cons byte rest =>
      obtain ⟨less, rfl⟩ := Nat.exists_eq_succ_of_ne_zero (Nat.ne_of_gt (by omega : 0 < bound))
      rfl
  have checked (known : ImageFormat) : check (image.take bound) known = check image known := by
    cases known with
    | qcow2 => exact checkQcow2_take enough image
    | vmdk => exact checkVmdk_take (by omega) image
    | _ => rfl
  simp only [format, empty, find?_magics_take enough image, checked]

theorem prefix_take_iff {first image : Bytes} {bound : Nat} (short : first.length ≤ bound) :
    first <+: image.take bound ↔ first <+: image := by
  constructor
  · intro leading
    exact leading.trans (List.take_prefix bound image)
  · intro leading
    exact List.prefix_take_iff.mpr ⟨leading, short⟩

/-- The compression of data is that of their leading bytes. -/
theorem compression?_take {bound : Nat} (enough : 6 ≤ bound) (image : Bytes) :
    compression? (image.take bound) = compression? image := by
  refine List.find?_congr ?_
  intro compression _
  have short : (compressionMagic compression).length ≤ bound := by
    cases compression <;> simp only [compressionMagic, List.length_cons, List.length_nil] <;> omega
  have same : (compressionMagic compression).isPrefixOf (image.take bound) ↔
      (compressionMagic compression).isPrefixOf image := by
    rw [List.isPrefixOf_iff_prefix, List.isPrefixOf_iff_prefix, prefix_take_iff short]
  exact Bool.eq_iff_iff.mpr same

/-- Data are not compressed if no magic stands in front of them. -/
theorem compression?_eq_none {image : Bytes} :
    compression? image = none ↔ ∀ compression, ¬ compressionMagic compression <+: image := by
  simp only [compression?, List.find?_eq_none, List.isPrefixOf_iff_prefix]
  constructor
  · intro none compression
    exact none compression (by cases compression <;> simp)
  · intro none compression _
    exact none compression

theorem compression?_gzip {image : Bytes} (magic : compressionMagic .gzip <+: image) :
    compression? image = some .gzip := by
  rw [compression?, List.find?_cons_of_pos]
  exact List.isPrefixOf_iff_prefix.mpr magic

theorem compression?_xz {image : Bytes} (magic : compressionMagic .xz <+: image) :
    compression? image = some .xz := by
  obtain ⟨rest, rfl⟩ := magic
  rfl

end Image

/-! ## Looking at the header -/

section Looking

variable {σ : Type} {below : Reader σ} {holds : σ → Bytes → Prop} {whole : Bool} {broke : Prop}
  {breaks : Option Nat → Prop} {front : Lookahead} {state : σ} {bytes : Bytes} {size : Nat}

/-- The ending of a look at so many leading bytes of some content. -/
def Seen (holds : σ → Bytes → Prop) (whole : Bool) (broke : Prop) (bytes : Bytes) (size : Nat)
    (place : Lookahead × σ → Content) : Ending Content Bytes → Prop
  | .ok leading after =>
    leading = bytes.take size ∧ (bytes.length < size → whole = true) ∧
      ∃ front state, after = place (front, state) ∧ Lookahead.Holds holds (front, state) bytes ∧
        front.peeked = bytes.take size
  | .error _ _ => broke

/-- Looking at the header of fresh content shows its leading bytes and takes nothing. -/
theorem header_seen (serves : below.ServesUnless holds whole breaks)
    (leads : ∀ less ≤ size, breaks (some less) → broke) (place : Lookahead × σ → Content)
    (peeks : ∀ size state, Content.peek size (place state) =
      Ending.inside place (Lookahead.peek below size state))
    (fresh : front.peeked = []) (held : Lookahead.Holds holds (front, state) bytes) :
    Seen holds whole broke bytes size place (header size (place (front, state))) := by
  have shown : Lookahead.Shown holds whole broke bytes size (max size front.peeked.length)
      (Lookahead.peek below (some size) (front, state)) := Lookahead.peek_shown serves leads held
  rw [fresh, List.length_nil, Nat.max_zero] at shown
  simp only [header, peeks]
  cases peeked : Lookahead.peek below (some size) (front, state) with
  | error fault after =>
    rw [peeked] at shown
    exact shown
  | ok leading after =>
    obtain ⟨front, after⟩ := after
    rw [peeked] at shown
    obtain ⟨first, kept, stock, enough⟩ := shown
    exact ⟨first, enough, front, after, rfl, kept, stock⟩

/-- What was seen of the header of fresh content is kept, and is all there may be if it is
less than what was asked for. -/
theorem kept_of_header {past : σ → Bytes → Prop} {ends : Bytes → Prop}
    (continued : below.Continues past ends breaks) (place : Lookahead × σ → Content)
    (peeks : ∀ size state, Content.peek size (place state) =
      Ending.inside place (Lookahead.peek below size state))
    (fresh : front.peeked = []) (held : Lookahead.Past past (front, state) []) {leading : Bytes}
    {after : Content} (seen : header size (place (front, state)) = .ok leading after) :
    ∃ front state, after = place (front, state) ∧ Lookahead.Past past (front, state) [] ∧
      front.peeked = leading ∧ leading.length ≤ size ∧ (leading.length < size → ends leading) := by
  simp only [header, peeks] at seen
  cases peeked : Lookahead.peek below (some size) (front, state) with
  | error fault after =>
    rw [peeked] at seen
    cases seen
  | ok shown after =>
    rw [peeked] at seen
    cases seen
    obtain ⟨front, state⟩ := after
    have filled := Lookahead.filled_of_peek continued held peeked
    rw [fresh, List.length_nil, Nat.max_zero] at filled
    obtain ⟨rfl, kept, within, last⟩ := filled
    rw [List.take_of_length_le within]
    exact ⟨front, state, rfl, kept, rfl, within, last⟩

/-- A look at steady content breaks off only for want of bytes. -/
theorem length_lt_of_header_error (serves : below.Serves holds whole) (steady : below.Steady holds)
    (place : Lookahead × σ → Content)
    (peeks : ∀ size state, Content.peek size (place state) =
      Ending.inside place (Lookahead.peek below size state))
    (held : Lookahead.Holds holds (front, state) bytes) {fault : Fault} {after : Content}
    (broken : header size (place (front, state)) = .error fault after) :
    bytes.length < size := by
  simp only [header, peeks] at broken
  cases peeked : Lookahead.peek below (some size) (front, state) with
  | error fault after => exact Lookahead.length_lt_of_peek_error serves steady held peeked
  | ok leading after =>
    rw [peeked] at broken
    cases broken

end Looking

/-! ## Classifying -/

theorem classify_eq (compression : Option Compression) {bound : Nat}
    (enough : qcow2HeaderSize ≤ bound) (image : Bytes) (content : Content) :
    classify compression (image.take bound) content =
      match Image.format image with
      | .error why => .error (.header why) content
      | .ok format => .ok ⟨format, compression⟩ content := by
  rw [classify, Image.format_take enough]
  cases Image.format image <;> rfl

/-- Classifying, step by step. -/
theorem sniff_eq (size : Int) (content : Content) :
    sniff size content =
      match header size content with
      | .error fault after => .error fault after
      | .ok leading after =>
        match Image.compression? leading with
        | none => classify none leading after
        | some compression =>
          match header size ⟨after.streams.unpack compression (Fin.last _)⟩ with
          | .error fault after => .error fault after
          | .ok leading after => classify (some compression) leading after := by
  simp only [sniff, Bind.bind, EStateM.bind]
  cases header size content with
  | error fault after => rfl
  | ok leading after =>
    dsimp only
    cases Image.compression? leading with
    | none => rfl
    | some compression =>
      change EStateM.bind (header size) _ ⟨after.streams.unpack compression (Fin.last _)⟩ = _
      simp only [EStateM.bind]
      cases header size ⟨after.streams.unpack compression (Fin.last _)⟩ <;> rfl

section Classifying

variable {whole : Bool} {source : Source} {bytes : Bytes} {size : Nat}

/-- The ending of classifying a source that is not compressed. The image is told by its
header, unless the source breaks off in there, and all of it stays to be read. -/
def Classified (whole : Bool) (bytes : Bytes) : Ending Content Sniffed → Prop
  | .ok found content =>
    (bytes.length < 512 → whole = true) ∧ Image.format bytes = .ok found.format ∧
      found.compression = none ∧ ∃ source front, content = ⟨.root source front⟩ ∧
        Lookahead.Holds (Source.Holds whole) (front, source) bytes ∧
          front.peeked = bytes.take 512
  | .error fault _ =>
    (bytes.length < 512 ∧ whole = false) ∨
      ∃ why, Image.format bytes = .error why ∧ fault = .header why

/-- **Classifying content that is not compressed finds the format of all of it.** -/
theorem sniff_plain (held : Source.Holds whole source bytes)
    (plain : Image.compression? bytes = none) :
    Classified whole bytes (sniff sniffSize (.ofSource source)) := by
  have start : Lookahead.Holds (Source.Holds whole) ({}, source) bytes := ⟨rfl, bytes, rfl, held⟩
  have seen : Seen _ _ _ _ 512 _ (header sniffSize (.ofSource source)) :=
    header_seen (Source.serves whole) (fun _ _ cut => cut) _ Content.peek_root rfl start
  rw [sniff_eq]
  cases looked : header sniffSize (.ofSource source) with
  | error fault after =>
    rw [looked] at seen
    have short : bytes.length < 512 := length_lt_of_header_error (Source.serves whole)
      (Source.steady whole) _ Content.peek_root start looked
    exact .inl ⟨short, seen⟩
  | ok leading after =>
    rw [looked] at seen
    obtain ⟨rfl, enough, front, left, rfl, kept, stock⟩ := seen
    simp only [Image.compression?_take (by decide : 6 ≤ 512), plain]
    rw [classify_eq none (by decide : qcow2HeaderSize ≤ 512)]
    cases found : Image.format bytes with
    | error why => exact .inr ⟨why, found, rfl⟩
    | ok format => exact ⟨enough, found, rfl, left, front, rfl, kept, stock⟩

/-- The ending of classifying compressed data by so many leading bytes. The image is told by the
header of what they decode to, and all of that stays to be read behind what was looked at, unless
they are not complete or not whole. -/
def Unpacked (size : Nat) (compression : Compression) (complete : Bool) (image : Bytes) :
    Ending Content Sniffed → Prop
  | .ok found content =>
    found.compression = some compression ∧ Image.format image = .ok found.format ∧
      content.Gives complete image ∧ content.Splits complete (image.take size) (image.drop size)
  | .error fault _ =>
    complete = false ∨ ∃ why, Image.format image = .error why ∧ fault = .header why

/-- Compressed data are looked at once more behind their decoder, unless looking at them
breaks off. -/
theorem sniff_unpacking {behind : Source → Bytes → Prop} {compression : Compression}
    (enough : qcow2HeaderSize ≤ size) (serves : Source.reader.Serves behind whole)
    (held : behind source bytes) (packed : Image.compression? bytes = some compression) :
    (∃ fault after, sniff size (.ofSource source) = .error fault after ∧ whole = false) ∨
      ∃ front left, Lookahead.Holds behind (front, left) bytes ∧ front.peeked = bytes.take size ∧
        sniff size (.ofSource source) =
          match header size
            ⟨(Streams.ofRoot (front, left)).unpack compression (Fin.last 0)⟩ with
          | .error fault after => .error fault after
          | .ok leading after => classify (some compression) leading after := by
  have start : Lookahead.Holds behind ({}, source) bytes := ⟨rfl, bytes, rfl, held⟩
  have seen : Seen _ _ _ _ size _ (header size (.ofSource source)) :=
    header_seen serves (fun _ _ cut => cut) _ Content.peek_root rfl start
  have wide : 72 ≤ size := enough
  rw [sniff_eq]
  cases looked : header size (.ofSource source) with
  | error fault after =>
    rw [looked] at seen
    exact .inl ⟨fault, after, rfl, seen⟩
  | ok leading after =>
    rw [looked] at seen
    obtain ⟨rfl, -, front, left, rfl, kept, stock⟩ := seen
    refine .inr ⟨front, left, kept, stock, ?_⟩
    simp only [Image.compression?_take (by omega : 6 ≤ size), packed]

/-- What compressed data are found to be says how they are compressed. -/
theorem compression_of_sniff {behind : Source → Bytes → Prop} {compression : Compression}
    (enough : qcow2HeaderSize ≤ size) (serves : Source.reader.Serves behind whole)
    (held : behind source bytes) (packed : Image.compression? bytes = some compression)
    {found : Sniffed} {content : Content}
    (sniffed : sniff size (.ofSource source) = .ok found content) :
    found.compression = some compression := by
  rcases sniff_unpacking enough serves held packed with
    ⟨fault, after, broken, -⟩ | ⟨front, left, -, -, looks⟩
  · cases sniffed.symm.trans broken
  · rw [looks] at sniffed
    cases again : header size ⟨(Streams.ofRoot (front, left)).unpack compression (Fin.last 0)⟩ with
    | error fault after =>
      rw [again] at sniffed
      cases sniffed
    | ok leading after =>
      rw [again] at sniffed
      dsimp only [classify] at sniffed
      cases told : Image.format leading with
      | error why =>
        rw [told] at sniffed
        cases sniffed
      | ok format =>
        rw [told] at sniffed
        cases sniffed
        rfl

/-- Compressed data are not classified if more of what they decode to is looked at than fits. -/
theorem sniff_excessive {behind : Source → Bytes → Prop} {compression : Compression}
    (enough : qcow2HeaderSize ≤ size) (serves : Source.reader.Serves behind whole)
    (held : behind source bytes) (packed : Image.compression? bytes = some compression)
    (excessive : Excessive (some size)) :
    ∃ fault after, sniff size (.ofSource source) = .error fault after := by
  rcases sniff_unpacking enough serves held packed with
    ⟨fault, after, broken, -⟩ | ⟨front, left, -, -, looks⟩
  · exact ⟨fault, after, broken⟩
  · have positive : 0 < size := Nat.lt_of_lt_of_le (by decide) enough
    let begun : Lookahead × Unpacker × Streams 0 := ({}, .start compression, .root left front)
    have refused : Lookahead.peek (Unpacker.reader (Streams.reader 0 (Fin.last 0))) (some size)
        begun = .error (.tooLarge size) begun :=
      Lookahead.peek_of_error rfl rfl positive (Unpacker.read_excessive excessive begun.2)
    have looked : Content.peek (some size)
        ⟨(Streams.ofRoot (front, left)).unpack compression (Fin.last 0)⟩ =
          .error (.tooLarge size) ⟨Streams.ofNewest (Fin.last 0) begun⟩ :=
      (Content.peek_newest (some size) (Fin.last 0) begun).trans
        (congrArg (Ending.inside _) refused)
    simp only [looks, header, looked]
    exact ⟨_, _, rfl⟩

/-- **Classifying compressed data leaves what they decode to**, if unpacking them from the
start does so. -/
theorem sniff_packed {behind : Source → Bytes → Prop} {compression : Compression}
    {complete : Bool} {image : Bytes} {unpacked : Fin 1 → Unpacker × Streams 0 → Bytes → Prop}
    (enough : qcow2HeaderSize ≤ size) (fits : ¬ Excessive (some size))
    (serves : Source.reader.Serves behind whole) (held : behind source bytes)
    (packed : Image.compression? bytes = some compression) (cut : whole = false → complete = false)
    (unpacks : ∀ below,
      (Unpacker.reader (Streams.reader 0 below)).ServesFully (unpacked below) complete)
    (begins : ∀ left front, Lookahead.Holds behind (front, left) bytes →
      front.peeked = bytes.take size →
        Streams.AtopHolds unpacked (Streams.unpack compression (Fin.last 0) (.root left front))
          image) :
    Unpacked size compression complete image (sniff size (.ofSource source)) := by
  rcases sniff_unpacking enough serves held packed with
    ⟨fault, after, broken, short⟩ | ⟨front, left, kept, stock, looks⟩
  · rw [broken]
    exact .inl (cut short)
  · rw [looks]
    have leads : ∀ less ≤ size, complete = false ∨ Excessive (some less) → complete = false := by
      rintro less within (incomplete | excessive)
      · exact incomplete
      · exact absurd excessive (fits_of_le fits within)
    have second : Seen _ _ _ _ size _ (header size
        ⟨(Streams.ofRoot (front, left)).unpack compression (Fin.last 0)⟩) :=
      header_seen (unpacks (Fin.last 0)).fitting leads _ (Content.peek_newest · (Fin.last 0)) rfl
        (begins left front kept stock)
    cases again : header size
        ⟨(Streams.ofRoot (front, left)).unpack compression (Fin.last 0)⟩ with
    | error fault after =>
      rw [again] at second
      exact .inl second
    | ok leading after =>
      rw [again] at second
      obtain ⟨rfl, -, ⟨peeked, closed⟩, ⟨unpacker, older⟩, rfl, kept, rfl⟩ := second
      obtain ⟨rfl, rest, split, behind⟩ := kept
      obtain rfl : image.drop size = rest :=
        List.append_cancel_left ((List.take_append_drop size image).trans split)
      simp only [classify_eq (some compression) enough]
      cases found : Image.format image with
      | error why => exact .inr ⟨why, found, rfl⟩
      | ok format =>
        exact ⟨rfl, found,
          ⟨Streams.AtopHolds unpacked, Streams.atop_serves fun below => (unpacks below).fitting,
            rfl, _, split, behind⟩,
          0, _, unpacker, older, _, rfl, unpacks (Fin.last 0), behind⟩

/-- Classifying gzip data leaves what they decode to. -/
theorem sniff_gzip {behind : Source → Bytes → Prop} (serves : Source.reader.Serves behind whole)
    (held : behind source bytes) (magic : Image.compressionMagic .gzip <+: bytes) :
    Unpacked 512 .gzip ((Gzip.contents bytes).complete && whole) (Gzip.contents bytes).given
      (sniff sniffSize (.ofSource source)) := by
  refine sniff_packed (by decide : qcow2HeaderSize ≤ 512) (by decide) serves held
    (Image.compression?_gzip magic) ?_
    (fun _ => Unpacker.gzip_serves (Streams.root_serves serves)) ?_
  · intro broken
    rw [broken, Bool.and_false]
  · intro left front kept stock
    have looking : front.peeked ≠ [] := by
      intro none
      rw [stock] at none
      rcases List.take_eq_nil_iff.mp none with zero | empty
      · cases zero
      · rw [empty] at magic
        exact absurd (List.prefix_nil.mp magic) (by decide)
    have shown : front.peeked.take 2 = bytes.take 2 := by
      rw [stock, List.take_take]
      rfl
    have rooted : Streams.RootHolds behind (.root left front) bytes := kept
    exact Streams.unpack_gzip_holds whole rooted kept.1 looking shown

/-- Classifying xz data leaves what they decode to. -/
theorem sniff_xz {behind : Source → Bytes → Prop} (enough : qcow2HeaderSize ≤ size)
    (fits : ¬ Excessive (some size)) (serves : Source.reader.Serves behind whole)
    (held : behind source bytes) (magic : Image.compressionMagic .xz <+: bytes) {image : Bytes}
    {complete : Bool}
    (ends : XzRow.Ends whole (Coding.finish XzRow.fresh bytes) image complete) :
    Unpacked size .xz (complete && whole) image (sniff size (.ofSource source)) := by
  refine sniff_packed enough fits serves held (Image.compression?_xz magic) ?_
    (fun _ => Unpacker.xz_serves (Streams.root_serves serves)) ?_
  · intro broken
    rw [broken, Bool.and_false]
  · intro left front kept _
    have rooted : Streams.RootHolds behind (.root left front) bytes := kept
    exact Streams.unpack_xz_holds rooted ends

/-- Leading bytes that are all there may be, or as many as are looked at, tell the format. -/
theorem format_of_leading {target : Bytes → Prop} {leading image : Bytes}
    (enough : qcow2HeaderSize ≤ size)
    (one : ∀ first second, target first → target second → first = second)
    (within : leading.length ≤ size) (last : leading.length < size → target leading)
    (reached : target image) (first : leading <+: image) :
    Image.format image = Image.format leading := by
  by_cases short : leading.length < size
  · rw [one image leading reached (last short)]
  · have all : leading.length = size := by omega
    rw [List.prefix_iff_eq_take.mp first, all, Image.format_take enough]

/-- Classifying xz data leaves a stream in front of which the leading bytes of what they yield
are kept. These tell the format, and are all there may be if they are less than what was
looked at. -/
theorem kept_of_sniff_xz {behind : Source → Bytes → Prop} {cut : Bytes}
    (enough : qcow2HeaderSize ≤ size) (serves : Source.reader.Serves behind whole)
    (held : behind source bytes)
    (magic : Image.compressionMagic .xz <+: bytes) (last : whole = true → cut = [])
    {found : Sniffed} {content : Content}
    (sniffed : sniff size (.ofSource source) = .ok found content) :
    ∃ front unpacker older,
      content = ⟨Streams.ofNewest (Fin.last 0) (front, unpacker, older)⟩ ∧
      Lookahead.Past (Unpacker.XzPast (Streams.RootHolds behind) cut
        (XzRow.Yields (Coding.finish XzRow.fresh (bytes ++ cut)))) (front, unpacker, older) [] ∧
      front.peeked.length ≤ size ∧
      (front.peeked.length < size →
        XzRow.Yields (Coding.finish XzRow.fresh (bytes ++ cut)) front.peeked) ∧
      Image.format front.peeked = .ok found.format := by
  rcases sniff_unpacking enough serves held (Image.compression?_xz magic) with
    ⟨fault, after, broken, -⟩ | ⟨front, left, kept, -, looks⟩
  · cases sniffed.symm.trans broken
  · rw [looks] at sniffed
    have fresh : Lookahead.Past (Unpacker.XzPast (Streams.RootHolds behind) cut
        (XzRow.Yields (Coding.finish XzRow.fresh (bytes ++ cut))))
          ({}, .xz [] {}, .root left front) [] :=
      ⟨rfl, bytes, kept, fun _ yields => yields⟩
    cases again : header size
        ⟨(Streams.ofRoot (front, left)).unpack .xz (Fin.last 0)⟩ with
    | error fault after =>
      rw [again] at sniffed
      cases sniffed
    | ok leading after =>
      rw [again] at sniffed
      obtain ⟨front, ⟨unpacker, older⟩, rfl, opened, rfl, within, all⟩ :=
        kept_of_header (Unpacker.xz_thorough (Streams.root_serves serves) last).continues _
          (Content.peek_newest · (Fin.last 0)) rfl fresh again
      simp only [classify] at sniffed
      cases told : Image.format front.peeked with
      | error why =>
        rw [told] at sniffed
        cases sniffed
      | ok format =>
        rw [told] at sniffed
        cases sniffed
        exact ⟨front, unpacker, older, rfl, opened, within, all, told⟩

/-- **Classifying xz data promises what they yield**, whatever comes behind the last stream. -/
theorem promises_of_sniff_xz {behind : Source → Bytes → Prop} {cut : Bytes}
    (enough : qcow2HeaderSize ≤ size) (serves : Source.reader.Serves behind whole)
    (held : behind source bytes)
    (magic : Image.compressionMagic .xz <+: bytes) (last : whole = true → cut = [])
    {found : Sniffed} {content : Content}
    (sniffed : sniff size (.ofSource source) = .ok found content) :
    content.Promises fun image =>
      XzRow.Yields (Coding.finish XzRow.fresh (bytes ++ cut)) image ∧
        Image.format image = .ok found.format := by
  obtain ⟨front, unpacker, older, rfl, opened, within, all, told⟩ :=
    kept_of_sniff_xz enough serves held magic last sniffed
  have promises : Content.Promises ⟨Streams.ofNewest (Fin.last 0) (front, unpacker, older)⟩
      fun image => XzRow.Yields (Coding.finish XzRow.fresh (bytes ++ cut)) image ∧
        front.peeked <+: image :=
    ⟨_, _, Streams.atop_continues fun _ =>
        (Unpacker.xz_thorough (Streams.root_serves serves) last).continues.beyond front.peeked,
      opened.1, opened.2, List.prefix_rfl⟩
  refine promises.mono ?_
  rintro image ⟨yields, first⟩
  refine ⟨yields, ?_⟩
  rw [format_of_leading enough (fun _ _ => XzRow.Yields.unique) within all yields first, told]

end Classifying

end DiskStaging
