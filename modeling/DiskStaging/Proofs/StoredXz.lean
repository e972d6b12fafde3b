import DiskStaging.Proofs.StoredChunks
import DiskStaging.Proofs.XzFraming
import DiskStaging.Proofs.XzServing

/-!
# Xz streams that store their content

A stream has a header, a block whose chunks store the content, an index that lists the sizes
of the block, and a footer. It decodes to its content (`StoredStream.way`), whatever chunks
the content is split into, whatever the header of the block states besides, and with a check
of the content or without one. So a row of such streams decodes to their contents, one after
the other (`XzRow.decodes_stored`).
-/

set_option autoImplicit false

namespace DiskStaging.Lzma

open Coding

/-! ## The index -/

/-- The entries of the index of a stream with one block. -/
def indexEntries (sizes : Sizes) : Bytes :=
  0 :: 1 :: (Varint.encode sizes.1 ++ Varint.encode sizes.2)

/-- The number of zero bytes that fill so many bytes up to a multiple of four. -/
def fillUp (size : Nat) : Nat := (4 - size % 4) % 4

/-- The index without its check. -/
def indexContent (sizes : Sizes) : Bytes :=
  indexEntries sizes ++ List.replicate (fillUp (indexEntries sizes).length) 0

/-- The index of a stream with one block. -/
def streamIndex (sizes : Sizes) : Bytes := indexContent sizes ++ checkOf (indexContent sizes)

/-- An index is small, and its size is a multiple of four. -/
theorem length_streamIndex {sizes : Sizes} (first : sizes.1 ≤ greatestSize)
    (second : sizes.2 ≤ greatestSize) :
    4 ∣ (streamIndex sizes).length ∧ 0 < (streamIndex sizes).length ∧
      (streamIndex sizes).length ≤ 28 := by
  have unpadded := Varint.width_le_nine first
  have unpacked := Varint.width_le_nine second
  have entries : (indexEntries sizes).length ≤ 20 := by
    simp only [indexEntries, List.length_cons, List.length_append, Varint.length_encode]
    omega
  simp only [streamIndex, indexContent, List.length_append, List.length_replicate, length_checkOf,
    fillUp]
  omega

namespace Index

/-- An index of which some bytes have been read. -/
def behind (decoded listed : List Sizes) (read : Bytes) (part : IndexPart) : Index :=
  ⟨decoded, listed, Checksum.crc32 0 read, read.length, part⟩

/-- What an index leads to, in the stream. -/
def Found.inStream (kind : Nat) : Found → Xz
  | .more listing => .index kind listing
  | .complete size => .footer kind size 12 []
  | .broken => .broken .corrupt

variable {kind : Nat} {decoded listed : List Sizes}

theorem asks (listing : Index) :
    Machine.move (Xz.index kind listing) =
      .ask fun byte => (listing.step byte).inStream kind := rfl

/-- A number in the index is read to its end, if every byte of it leads on to the next one and
the last one to what comes behind it. -/
theorem way_number (part : Varint → IndexPart) (further : Bytes → IndexPart) {value : Nat}
    {after : List Sizes}
    (goes : ∀ number next byte read, number.step byte = .more next →
      (behind decoded listed read (part number)).step byte =
        .more (behind decoded listed (read ++ [byte]) (part next)))
    (ends : ∀ number byte read, number.step byte = .complete value →
      (behind decoded listed read (part number)).step byte =
        .more (behind decoded after (read ++ [byte]) (further (read ++ [byte]))))
    {number : Varint} {bytes : Bytes} (reads : Varint.Reads number bytes value) (read : Bytes) :
    Way (Xz.index kind (behind decoded listed read (part number))) bytes []
      (.index kind (behind decoded after (read ++ bytes) (further (read ++ bytes)))) := by
  induction reads generalizing read with
  | last step =>
    refine .ask (asks _) ?_
    rw [ends _ _ _ step]
    exact .here _
  | @more _ _ byte bytes _ step _ ih =>
    refine .ask (asks _) ?_
    have on := ih ends (read ++ [byte])
    rw [List.append_assoc, List.singleton_append] at on
    rw [goes _ _ _ _ step]
    exact on

/-- Zero bytes stand in front of the check. -/
theorem way_padding (size : Nat) (read : Bytes) :
    Way (Xz.index kind (behind decoded listed read (.padding size))) (List.replicate size 0) []
      (.index kind (behind decoded listed (read ++ List.replicate size 0) (.padding 0))) := by
  induction size generalizing read with
  | zero =>
    rw [List.replicate_zero, List.append_nil]
    exact .here _
  | succ size ih =>
    refine .ask (asks _) ?_
    have on := ih (read ++ [0])
    rw [List.replicate_succ, List.append_cons]
    simpa only [behind, step, Found.inStream, Checksum.crc32_append, List.length_append,
      List.length_singleton, if_true] using on

/-- The bytes that are expected are read to their end. -/
theorem way_compare (listing : Index) (byte : UInt8) (more : Bytes) :
    Way ((listing.compare byte (byte :: more)).inStream kind) more []
      (.footer kind (listing.size + more.length) 12 []) := by
  induction more generalizing listing byte with
  | nil =>
    simp only [compare, ne_eq, not_true, if_false, List.isEmpty, if_true]
    exact .here _
  | cons next more ih =>
    simp only [compare, ne_eq, not_true, if_false, List.isEmpty, Bool.false_eq_true]
    refine .ask (asks _) ?_
    have on := ih { listing with
      check := Checksum.crc32 listing.check [next], size := listing.size + 1
      part := .check (next :: more) } next
    rw [List.length_cons, Nat.add_comm more.length, ← Nat.add_assoc]
    exact on

/-- The check is read, and the index is as long as what was read of it. -/
theorem way_check (read : Bytes) :
    Way (Xz.index kind (behind decoded decoded read (.padding 0))) (checkOf read) []
      (.footer kind (read.length + 4) 12 []) := by
  obtain ⟨first, rest, spelled⟩ := List.exists_cons_of_ne_nil
    (List.ne_nil_of_length_pos (by rw [length_checkOf]; decide) : checkOf read ≠ [])
  have three : 1 + rest.length = 4 := by
    rw [Nat.add_comm, ← List.length_cons (a := first), ← spelled, length_checkOf]
  rw [spelled]
  refine .ask (asks _) ?_
  have on : Way _ rest [] (Xz.footer kind _ 12 []) :=
    way_compare { behind decoded decoded read (.padding 0) with
      check := Checksum.crc32 (Checksum.crc32 0 read) [first]
      size := read.length + 1 } first rest
  rw [← spelled] at on
  simp only [Nat.add_assoc, three] at on
  simpa only [behind, step, checkOf, ne_eq, not_true, if_false] using on

theorem within_self (listing : Index) (all : listing.listed = listing.decoded) :
    listing.within = true := by
  rw [within, all]
  simp

section Entry

variable {unpadded unpacked : Nat}

theorem behind_append (read : Bytes) (byte : UInt8) (part : IndexPart) :
    behind decoded listed (read ++ [byte]) part =
      ⟨decoded, listed, Checksum.crc32 (Checksum.crc32 0 read) [byte], read.length + 1, part⟩ := by
  simp only [behind, Checksum.crc32_append, List.length_append, List.length_singleton]

/-- The number of the blocks is read: there is one. -/
theorem way_count {sizes : Sizes} (read : Bytes) :
    Way (Xz.index kind (behind [sizes] listed read (.count .start))) [1] []
      (.index kind (behind [sizes] listed (read ++ [1]) (.unpadded 0 .start))) := by
  have reads : Varint.Reads .start [1] 1 := .last rfl
  refine way_number .count (fun _ => .unpadded 0 .start) ?_ ?_ reads read
  · intro number next byte read goes
    rw [behind_append]
    simp only [step, behind, goes]
  · intro number byte read ends
    rw [behind_append]
    simp only [step, behind, ends, List.length_singleton, ne_eq, not_true, if_false]

/-- The size of the only block is read. -/
theorem way_unpadded (least : 5 ≤ unpadded) (most : unpadded ≤ greatestSize / 4 * 4)
    (read : Bytes) :
    Way (Xz.index kind (behind decoded listed read (.unpadded 0 .start)))
      (Varint.encode unpadded) []
      (.index kind (behind decoded listed (read ++ Varint.encode unpadded)
        (.unpacked 0 unpadded .start))) := by
  have reads := Varint.reads_start (Nat.le_trans most (Nat.div_mul_le_self ..))
  have allowed : (decide (unpadded < 5) || decide (unpadded > greatestSize / 4 * 4)) = false := by
    rw [decide_eq_false (Nat.not_lt.mpr least), decide_eq_false (Nat.not_lt.mpr most)]
    rfl
  refine way_number (.unpadded 0) (fun _ => .unpacked 0 unpadded .start) ?_ ?_ reads read
  · intro number next byte read goes
    rw [behind_append]
    simp only [step, behind, goes]
  · intro number byte read ends
    rw [behind_append]
    simp only [step, behind, ends, allowed, Bool.false_eq_true, if_false]

/-- The size of the content of the only block is read. -/
theorem way_unpacked (fits : unpacked ≤ greatestSize) (read : Bytes) :
    Way (Xz.index kind (behind [(unpadded, unpacked)] [] read (.unpacked 0 unpadded .start)))
      (Varint.encode unpacked) []
      (.index kind (behind [(unpadded, unpacked)] [(unpadded, unpacked)]
        (read ++ Varint.encode unpacked)
        (.padding (fillUp (read ++ Varint.encode unpacked).length)))) := by
  refine way_number (.unpacked 0 unpadded) (fun read => .padding (fillUp read.length)) ?_ ?_
    (Varint.reads_start fits) read
  · intro number next byte read goes
    rw [behind_append]
    simp only [step, behind, goes]
  · intro number byte read ends
    rw [behind_append]
    simp only [step, behind, ends, within_self, List.nil_append, endEntries, Bool.not_true,
      Bool.false_eq_true, if_false, fillUp, List.length_append, List.length_singleton]

end Entry

/-- **The index of a stream with one block is read to its end.** -/
theorem way_index {sizes : Sizes} (least : 5 ≤ sizes.1) (most : sizes.1 ≤ greatestSize / 4 * 4)
    (fits : sizes.2 ≤ greatestSize) :
    Way (Xz.body kind [sizes]) (streamIndex sizes) []
      (.footer kind (streamIndex sizes).length 12 []) := by
  have count : Way (Xz.body kind [sizes]) [0, 1] []
      (.index kind (behind [sizes] [] [0, 1] (.unpadded 0 .start))) := .ask rfl (way_count [0])
  have entries : Way (Xz.body kind [sizes]) (indexEntries sizes) []
      (.index kind (behind [sizes] [sizes] (indexEntries sizes)
        (.padding (fillUp (indexEntries sizes).length)))) :=
    count.first ((way_unpadded least most _).first (way_unpacked fits _))
  have all := entries.first ((way_padding _ _).first (way_check _))
  rw [streamIndex, List.length_append, length_checkOf, indexContent, List.append_assoc]
  exact all

end Index

/-! ## Writing streams -/

/-- What a stream with one block of stored chunks is made of. -/
structure StreamParts where
  /-- Whether a CRC-32 check of the content is behind the data. -/
  checked : Bool
  dictionary : Fin 41
  /-- Whether the header of the block states the size of the data. -/
  statesPacked : Bool
  /-- Whether the header of the block states the size of the content. -/
  statesUnpacked : Bool
  /-- What makes the header of the block longer than it has to be. -/
  spare : Nat
  chunks : List StoredChunk

namespace StreamParts

variable (parts : StreamParts)

/-- The kind of check that the stream names. -/
def kind : Nat := parts.checked.toNat

/-- What the stream holds. -/
def content : Bytes := StoredChunk.contentOf parts.chunks

/-- The data of the block. -/
def data : Bytes := StoredChunk.encodeAll true parts.chunks

/-- What the header of the block states. -/
def block : BlockParts where
  packed := if parts.statesPacked then some parts.data.length else none
  unpacked := if parts.statesUnpacked then some parts.content.length else none
  dictionary := parts.dictionary
  spare := parts.spare

/-- The check of the content. -/
def check : Bytes := if parts.checked then checkOf parts.content else []

/-- The sizes of the block. -/
def sizes : Sizes :=
  (parts.block.size + parts.data.length + parts.check.length, parts.content.length)

/-- The bytes of the stream. -/
def encode : Bytes :=
  streamHeader parts.kind ++ (parts.block.encode ++ (parts.data ++
    (List.replicate (fillUp parts.data.length) 0 ++ parts.check) ++
      (streamIndex parts.sizes ++ streamFooter parts.kind (streamIndex parts.sizes).length)))

end StreamParts

/-- A stream that can state its sizes. -/
structure StoredStream extends StreamParts where
  /-- The size of the header of a block is stated in one byte, in units of four. -/
  short : toStreamParts.block.size ≤ 1024
  fits : toStreamParts.sizes.1 ≤ greatestSize / 4 * 4

namespace StoredStream

variable (stream : StoredStream)

/-! ## Reading streams -/

theorem kind_lt : stream.kind < 16 := by
  unfold StreamParts.kind
  cases stream.checked <;> decide

theorem length_check : stream.check.length = Check.sizeOfKind stream.kind := by
  unfold StreamParts.check StreamParts.kind
  cases stream.checked
  · rfl
  · exact length_checkOf _

theorem length_content_lt (first : Bool) (chunks : List StoredChunk) :
    (StoredChunk.contentOf chunks).length < (StoredChunk.encodeAll first chunks).length := by
  induction chunks generalizing first with
  | nil => exact Nat.zero_lt_one
  | cons chunk more ih =>
    have later := ih false
    simp only [StoredChunk.contentOf, StoredChunk.encodeAll, StoredChunk.encode,
      List.flatMap_cons, List.length_append, List.length_cons] at later ⊢
    omega

/-- The data are longer than the content, and the whole block is not too long. -/
theorem bounds : stream.content.length < stream.data.length ∧
    stream.block.size + stream.data.length + Check.sizeOfKind stream.kind ≤ greatestSize := by
  refine ⟨length_content_lt true stream.chunks, ?_⟩
  rw [← length_check]
  exact Nat.le_trans stream.fits (Nat.div_mul_le_self ..)

/-- The header of the stream, behind its first byte. -/
theorem way_header :
    Way (Xz.header 11 [0xFD]) (streamHeader stream.kind).tail [] (.body stream.kind []) := by
  have some : (streamHeader stream.kind).tail ≠ [] := List.cons_ne_nil _ _
  have gathers : Way (Xz.header 11 [0xFD]) (streamHeader stream.kind).tail []
      (Xz.takeHeader 1 (streamHeader stream.kind).reverse) :=
    Way.gather Xz.header (Xz.takeHeader 1) (fun _ _ => rfl) some [0xFD]
  have read : Xz.takeHeader 1 (streamHeader stream.kind).reverse = .body stream.kind [] := by
    rw [Xz.takeHeader, if_neg (Nat.lt_irrefl 1), List.reverse_reverse,
      readStreamHeader_streamHeader stream.kind_lt]
  rwa [read] at gathers

/-- What the header of the block is read as. -/
def blockHeader : BlockHeader :=
  ⟨stream.block.size, stream.block.packed, stream.block.unpacked, [],
    dictionarySize stream.dictionary⟩

theorem read_blockHeader :
    readBlockHeader stream.block.encode (Check.sizeOfKind stream.kind) =
      .ok stream.blockHeader := by
  obtain ⟨longer, fits⟩ := stream.bounds
  refine BlockParts.read_encode ?_ ?_
  · intro size stated
    obtain ⟨-, same⟩ := Option.ite_none_right_eq_some.mp stated
    cases same
    exact ⟨Nat.zero_lt_of_lt longer, fits⟩
  · intro size stated
    obtain ⟨-, same⟩ := Option.ite_none_right_eq_some.mp stated
    cases same
    omega

/-- The header of the block. -/
theorem way_blockHeader :
    Way (Xz.body stream.kind []) stream.block.encode []
      (.block stream.kind [] (.start stream.blockHeader stream.kind)) := by
  have least := stream.block.twelve_le_size
  have four := stream.block.four_dvd_size
  have short := stream.short
  have length := stream.block.length_encode
  have read : Xz.takeBlockHeader stream.kind [] 1 stream.block.encode.reverse =
      .block stream.kind [] (.start stream.blockHeader stream.kind) := by
    rw [Xz.takeBlockHeader, if_neg (Nat.lt_irrefl 1), List.reverse_reverse, read_blockHeader]
  obtain ⟨first, rest, whole, byte⟩ : ∃ first rest, stream.block.encode = first :: rest ∧
      first.toNat = stream.block.size / 4 - 1 :=
    ⟨_, _, rfl, UInt8.toNat_ofNat_of_lt' (by change _ < 256; omega)⟩
  rw [whole, List.length_cons] at length
  have missing : (first.toNat + 1) * 4 - 1 = rest.length := by omega
  -- A first byte of zero would begin the index, but a header is longer than four bytes.
  have starts : Xz.takeFirst stream.kind [] first =
      .blockHeader stream.kind [] rest.length [first] := by
    rw [Xz.takeFirst, if_neg, missing]
    rintro rfl
    change 0 = _ at byte
    omega
  have gathers : Way (Xz.blockHeader stream.kind [] rest.length [first]) rest []
      (Xz.takeBlockHeader stream.kind [] 1 (first :: rest).reverse) :=
    Way.gather (Xz.blockHeader stream.kind []) (Xz.takeBlockHeader stream.kind [] 1)
      (fun _ _ => rfl) (List.ne_nil_of_length_pos (by omega : 0 < rest.length)) [first]
  rw [← whole, read] at gathers
  rw [whole]
  refine .ask rfl ?_
  rw [starts]
  exact gathers

/-- What is known of the block before its data. -/
def frame : BlockFrame where
  headerSize := stream.block.size
  statedPacked := stream.block.packed
  statedUnpacked := stream.block.unpacked
  checkSize := Check.sizeOfKind stream.kind
  packed := 0
  unpacked := 0
  check := .ofKind stream.kind

/-- What is known of the block behind its data. -/
def final : BlockFrame := stream.frame.after stream.data stream.content

theorem packed_final : stream.final.packed = stream.data.length := Nat.zero_add _

theorem unpacked_final : stream.final.unpacked = stream.content.length := Nat.zero_add _

theorem fits_final : stream.final.fits = true := by
  have packed : stream.final.statedPacked =
      if stream.statesPacked then some stream.data.length else none := rfl
  have unpacked : stream.final.statedUnpacked =
      if stream.statesUnpacked then some stream.content.length else none := rfl
  rw [BlockFrame.fits, packed, unpacked, packed_final, unpacked_final]
  cases stream.statesPacked <;> cases stream.statesUnpacked <;> simp

theorem expected_final : stream.final.expected = stream.check.map some := by
  have absorbed :
      stream.final.check = (Check.ofKind stream.kind).absorbAll stream.content := rfl
  cases checked : stream.checked with
  | false =>
    have kind : stream.kind = 0 := by rw [StreamParts.kind, checked, Bool.toNat_false]
    have bytes : stream.final.check.bytes = none := by
      rw [absorbed, kind]
      exact congrArg Check.bytes (Check.absorbAll_none _)
    have size : stream.final.checkSize = 0 := congrArg Check.sizeOfKind kind
    rw [BlockFrame.expected, bytes, size, StreamParts.check, checked]
    rfl
  | true =>
    have kind : stream.kind = 1 := by rw [StreamParts.kind, checked, Bool.toNat_true]
    have bytes : stream.final.check.bytes = some (checkOf stream.content) := by
      rw [absorbed, kind]
      exact congrArg Check.bytes (Check.absorbAll_crc32 0 _)
    rw [BlockFrame.expected, bytes, StreamParts.check, checked]
    rfl

/-- The block. -/
theorem way_block :
    Way (Xz.block stream.kind [] (.start stream.blockHeader stream.kind))
      (stream.data ++ (List.replicate (fillUp stream.data.length) 0 ++ stream.check))
      stream.content (.body stream.kind [stream.sizes]) := by
  have inside : Way (Block.start stream.blockHeader stream.kind)
      (stream.data ++ (List.replicate (fillUp stream.final.packed) 0 ++ stream.check))
      stream.content (.check [] true stream.final) :=
    Block.way_stored _ stream.chunks rfl stream.fits_final stream.expected_final
  rw [packed_final] at inside
  have same (state : Block) (going : ∀ last, Machine.move state ≠ .stop last) :
      Machine.move (Xz.block stream.kind [] state) =
        (Machine.move state).map (Xz.block stream.kind []) := by
    change Xz.move _ = _
    rw [Xz.move]
    split
    · rename_i last stops
      exact absurd stops (going last)
    · rfl
  have sizes : (Block.check [] true stream.final).sizes = stream.sizes := by
    rw [Block.sizes, BlockFrame.unpadded, packed_final, unpacked_final, StreamParts.sizes,
      length_check]
    rfl
  have ends : Way (Xz.block stream.kind [] (.check [] true stream.final)) [] []
      (.body stream.kind [stream.sizes]) := by
    rw [← sizes]
    exact .think rfl (.here _)
  have both := (inside.inside _ same).trans ends
  rwa [List.append_nil, List.append_nil] at both

/-- The footer of the stream. -/
theorem way_footer {indexSize : Nat} (whole : 4 ∣ indexSize) (some : 0 < indexSize)
    (fits : indexSize ≤ 4 * 1 <<< 32) :
    Way (Xz.footer stream.kind indexSize 12 []) (streamFooter stream.kind indexSize) []
      .ended := by
  have bytes : streamFooter stream.kind indexSize ≠ [] := List.cons_ne_nil _ _
  have gathers : Way (Xz.footer stream.kind indexSize 12 []) (streamFooter stream.kind indexSize) []
      (Xz.takeFooter stream.kind indexSize 1 (streamFooter stream.kind indexSize).reverse) :=
    Way.gather (Xz.footer stream.kind indexSize) (Xz.takeFooter stream.kind indexSize 1)
      (fun _ _ => rfl) bytes []
  have read : Xz.takeFooter stream.kind indexSize 1 (streamFooter stream.kind indexSize).reverse =
      .ended := by
    rw [Xz.takeFooter, if_neg (Nat.lt_irrefl 1), List.reverse_reverse,
      readStreamFooter_streamFooter stream.kind_lt whole some fits]
  rwa [read] at gathers

/-- **A stream that stores its content gives it.** -/
theorem way : Way AnyFormat.start stream.encode stream.content (.xz .ended) := by
  obtain ⟨longer, fits⟩ := stream.bounds
  have least : 5 ≤ stream.sizes.1 := by
    have header := stream.block.twelve_le_size
    simp only [StreamParts.sizes]
    omega
  have content : stream.sizes.2 ≤ greatestSize := by
    simp only [StreamParts.sizes]
    omega
  obtain ⟨whole, some, small⟩ :=
    length_streamIndex (Nat.le_trans stream.fits (Nat.div_mul_le_self ..)) content
  have footer := stream.way_footer whole some (by omega)
  have body := stream.way_header.first (stream.way_blockHeader.first (stream.way_block.trans
    ((Index.way_index least stream.fits content).first footer)))
  rw [List.append_nil] at body
  have inside := body.inside AnyFormat.xz (fun _ _ => rfl)
  exact .ask rfl inside

/-- A letter in a stream with a check, and the stream that it is read from. -/
example :
    let letter : Bytes :=
      [0xFD, 0x37, 0x7A, 0x58, 0x5A, 0, 0, 1, 0x69, 0x22, 0xDE, 0x36, 2, 0, 0x21, 1, 0x16, 0, 0, 0,
        0x74, 0x2F, 0xE5, 0xA3, 1, 0, 0, 0x41, 0, 0, 0, 0, 0x8B, 0x9E, 0xD9, 0xD3, 0, 1, 0x15, 1,
        0xA9, 0x63, 0x34, 0x60, 0x90, 0x42, 0x99, 0x0D, 1, 0, 0, 0, 0, 1, 0x59, 0x5A]
    (StreamParts.mk true 22 false false 0 [⟨[0x41], true, by decide, by decide⟩]).encode = letter ∧
      (finish (.of AnyFormat.start) letter).written = [0x41] := by
  decide +kernel

end StoredStream

end DiskStaging.Lzma

/-! ## Rows of streams -/

namespace DiskStaging.XzRow

open Coding Lzma

/-- The bytes of some streams, one after the other. -/
def encodeStreams (streams : List StoredStream) : Bytes := streams.flatMap (·.encode)

/-- What some streams hold. -/
def contentOf (streams : List StoredStream) : Bytes := streams.flatMap (·.content)

/-- **Streams that store their contents decode to them**, one after the other. -/
theorem decodes_stored (whole : Bool) (streams : List StoredStream) :
    Decodes whole (encodeStreams streams) (contentOf streams) := by
  induction streams with
  | nil => exact .nothing
  | cons stream more ih =>
    have stops : Machine.move (AnyFormat.xz .ended) = .stop (AnyFormat.xz .ended) := rfl
    have decoded : finish fresh (stream.encode ++ encodeStreams more) =
        ⟨stream.content, encodeStreams more, .of (.xz .ended)⟩ :=
      stream.way.finish_stop stops (encodeStreams more)
    have stopped : (finish fresh (stream.encode ++ encodeStreams more)).machine.stopped = true := by
      rw [decoded]
      exact stopped_of stops
    have rest : Decodes whole (finish fresh (stream.encode ++ encodeStreams more)).rest
        (contentOf more) := by
      rw [decoded]
      exact ih
    have both := Decodes.stream stopped rest
    rwa [decoded] at both

/-- Streams begin with the magic of xz data. -/
theorem magic_encodeStreams {streams : List StoredStream} (any : streams ≠ []) :
    Image.compressionMagic .xz <+: encodeStreams streams := by
  obtain ⟨stream, more, rfl⟩ := List.exists_cons_of_ne_nil any
  exact ⟨_, rfl⟩

end DiskStaging.XzRow
