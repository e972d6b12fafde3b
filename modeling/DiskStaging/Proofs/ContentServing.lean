import DiskStaging.Proofs.Arrival
import DiskStaging.Proofs.GzipServing
import DiskStaging.Proofs.XzServing
import DiskStaging.Stream.Content

/-!
# What streams over a source serve

The root stream serves what its source gives, and a stream that unpacks gzip or xz data
serves what these decode to (`Streams.root_serves`, `Streams.atop_serves`). At the
start, a gzip stream needs the magic to have been looked at before, which is why it
was opened at all (`Streams.unpack_gzip_holds`).

Content serves some bytes when its newest stream does. So whoever copies the content
gets these bytes, or the front of them if the content breaks off
(`Content.Gives.pour`). Content may also only promise that all of it is something, should it
not break off; whoever copies it then gets that (`Content.Promises.pour`).

The root stream serves whatever the size that it is asked for, if the source does. A stream
that unpacks data serves what fits. Asked for more, it gives what it has shown and then breaks
off (`Content.Shows.pour`).
-/

set_option autoImplicit false

namespace DiskStaging

namespace Unpacker

variable {σ : Type} {below : Reader σ} {behind : σ → Bytes → Prop} {whole complete : Bool}

/-- The state of unpacking gzip data holds the content that these decode to. -/
def GzipHolds (below : Reader σ) (behind : σ → Bytes → Prop) (whole complete : Bool) :
    Unpacker × σ → Bytes → Prop := fun (unpacker, state) content =>
  match unpacker with
  | .gzip kept member pushed =>
    Buffered.Holds (Gzip.Holds below behind whole complete) (kept, member, pushed, state) content
  | .xz _ _ => False

theorem gzip_serves (serves : below.Serves behind whole) :
    (reader below).ServesFully (GzipHolds below behind whole complete) complete := by
  rintro all size ⟨⟨kept, member, pushed⟩ | ⟨kept, row⟩, state⟩ given ⟨rest, split, held⟩
  · have served := Buffered.serves (Gzip.serves serves complete) all size
      (kept, member, pushed, state) given ⟨rest, split, held⟩
    refine served.inside ofGzip ?_
    rintro ⟨kept, member, pushed, state⟩ given held
    exact held
  · exact held.elim

/-- The state of unpacking xz data holds the content that these decode to. -/
def XzHolds (behind : σ → Bytes → Prop) (whole complete : Bool) : Unpacker × σ → Bytes → Prop :=
  fun (unpacker, state) content =>
    match unpacker with
    | .gzip _ _ _ => False
    | .xz kept row =>
      Buffered.Holds (XzRow.Holds behind whole complete) (kept, row, state) content

theorem xz_serves (serves : below.Serves behind whole) :
    (reader below).ServesFully (XzHolds behind whole complete) complete := by
  rintro all size ⟨⟨kept, member, pushed⟩ | ⟨kept, row⟩, state⟩ given ⟨rest, split, held⟩
  · exact held.elim
  · have served := Buffered.serves (XzRow.serves serves complete) all size (kept, row, state) given
      ⟨rest, split, held⟩
    refine served.inside ofXz ?_
    rintro ⟨kept, row, state⟩ given held
    exact held

/-- The state of unpacking xz data goes on to what these yield, with what was given before. -/
def XzPast (behind : σ → Bytes → Prop) (cut : Bytes) (target : Bytes → Prop) :
    Unpacker × σ → Bytes → Prop := fun (unpacker, state) given =>
  match unpacker with
  | .gzip _ _ _ => False
  | .xz kept row => Buffered.Past (XzRow.Past behind cut target) (kept, row, state) given

theorem xz_thorough {cut : Bytes} {target : Bytes → Prop} (serves : below.Serves behind whole)
    (last : whole = true → cut = []) :
    (reader below).Thorough (XzPast behind cut target) target fun _ => True := by
  rintro size ⟨⟨kept, member, pushed⟩ | ⟨kept, row⟩, state⟩ given held
  · exact held.elim
  · have continued := Buffered.thorough (XzRow.continues serves last) size (kept, row, state)
      given held
    refine (continued.mono fun _ => trivial).inside ofXz ?_
    rintro ⟨kept, row, state⟩ given held
    exact held

/-- Sizes that do not fit are refused. -/
theorem read_excessive {size : Option Nat} (excessive : Excessive size) (state : Unpacker × σ) :
    (reader below).read size state = .error (.tooLarge (size.getD 0)) state := by
  obtain ⟨⟨kept, member, pushed⟩ | ⟨kept, row⟩, state⟩ := state
  · exact congrArg (Ending.inside ofGzip) (Buffered.read_excessive excessive _)
  · exact congrArg (Ending.inside ofXz) (Buffered.read_excessive excessive _)

end Unpacker

namespace Streams

variable {count : Nat} {whole : Bool}

/-! ## The root stream -/

/-- A root stream holds what it has shown and what its source holds. -/
def RootHolds (holds : Source → Bytes → Prop) : Streams 0 → Bytes → Prop :=
  fun (.root source front) bytes => Lookahead.Holds holds (front, source) bytes

theorem root_serves {holds : Source → Bytes → Prop} (serves : Source.reader.Serves holds whole) :
    (reader 0 (Fin.last 0)).Serves (RootHolds holds) whole := by
  rintro size ⟨source, front⟩ bytes held
  refine (Lookahead.serves serves size (front, source) bytes held).inside ofRoot ?_
  rintro ⟨front, source⟩ rest held
  exact held

theorem root_steady {holds : Source → Bytes → Prop} (steady : Source.reader.Steady holds) :
    (reader 0 (Fin.last 0)).Steady (RootHolds holds) := by
  rintro limit ⟨source, front⟩ bytes fault after held broken
  cases read : Lookahead.read Source.reader (some limit) (front, source) with
  | ok given last =>
    have same : (reader 0 (Fin.last 0)).read (some limit) (.root source front) =
        .ok given (ofRoot last) := congrArg (Ending.inside ofRoot) read
    rw [same] at broken
    cases broken
  | error why last => exact Lookahead.steady steady limit (front, source) bytes why last held read

/-! ## A stream over the root -/

/-- A stream over others holds what it has shown and what its unpacker holds. -/
def AtopHolds (holds : Fin (count + 1) → Unpacker × Streams count → Bytes → Prop) :
    Streams (count + 1) → Bytes → Prop := fun (.atop below unpacker front older) bytes =>
  Lookahead.Holds (holds below) (front, unpacker, older) bytes

theorem reader_last (count : Nat) :
    reader (count + 1) (Fin.last (count + 1)) = newestReader (reader count) := by
  rw [reader, dif_neg]
  exact Nat.lt_irrefl _

theorem atop_serves {holds : Fin (count + 1) → Unpacker × Streams count → Bytes → Prop}
    {breaks : Option Nat → Prop}
    (serves : ∀ below,
      (Unpacker.reader (reader count below)).ServesUnless (holds below) whole breaks) :
    (reader (count + 1) (Fin.last (count + 1))).ServesUnless (AtopHolds holds) whole breaks := by
  rw [reader_last]
  intro size streams bytes held
  cases streams with
  | atop below unpacker front older =>
    refine (Lookahead.serves (serves below) size (front, unpacker, older) bytes held).inside
      (ofNewest below) ?_
    rintro ⟨front, unpacker, older⟩ rest held
    exact held

/-- A stream over others has not given yet what it has shown. -/
def AtopPast (past : Fin (count + 1) → Unpacker × Streams count → Bytes → Prop) :
    Streams (count + 1) → Bytes → Prop := fun (.atop below unpacker front older) given =>
  Lookahead.Past (past below) (front, unpacker, older) given

theorem atop_continues {past : Fin (count + 1) → Unpacker × Streams count → Bytes → Prop}
    {ends : Bytes → Prop} {breaks : Option Nat → Prop}
    (continued : ∀ below,
      (Unpacker.reader (reader count below)).Continues (past below) ends breaks) :
    (reader (count + 1) (Fin.last (count + 1))).Continues (AtopPast past) ends breaks := by
  rw [reader_last]
  intro size streams given held
  cases streams with
  | atop below unpacker front older =>
    refine (Lookahead.continues (continued below) size (front, unpacker, older) given held).inside
      (ofNewest below) ?_
    rintro ⟨front, unpacker, older⟩ rest held
    exact held

/-- Unpacking gzip data that are all still there gives all that they decode to. -/
theorem unpack_gzip_holds (whole : Bool) {behind : Streams 0 → Bytes → Prop} {source : Source}
    {front : Lookahead} {bytes : Bytes} (held : behind (.root source front) bytes)
    (opened : front.closed = false)
    (kept : front.peeked ≠ []) (shown : front.peeked.take 2 = bytes.take 2) :
    AtopHolds (fun below => Unpacker.GzipHolds (reader 0 below) behind whole
        ((Gzip.contents bytes).complete && whole))
      (unpack .gzip (Fin.last 0) (.root source front)) (Gzip.contents bytes).given := by
  have prompt : Gzip.Prompt (Pushback.reader (reader 0 (Fin.last 0)))
      (none, .root source front) bytes := by
    intro given after read
    obtain ⟨byte, more, first⟩ := List.exists_cons_of_ne_nil kept
    change Ending.inside _ (Ending.inside ofRoot
      (Lookahead.read Source.reader (some 2) (front, source))) = _ at read
    simp only [Lookahead.read, opened, Bool.false_eq_true, if_false, first, Ending.inside] at read
    cases read
    rw [← shown, first]
  refine ⟨rfl, (Gzip.contents bytes).given, rfl, (Gzip.contents bytes).given, rfl, bytes,
    ⟨bytes, rfl, held⟩, ?_, ?_, ?_⟩
  · rw [Gzip.ahead, if_pos rfl]
  · rw [Gzip.ahead, if_pos rfl]
  · intro _
    exact ⟨rfl, prompt⟩

/-- Unpacking xz data that are all still there gives all that they decode to. -/
theorem unpack_xz_holds {behind : Streams 0 → Bytes → Prop} {source : Source} {front : Lookahead}
    {bytes content : Bytes} {done : Bool} (held : behind (.root source front) bytes)
    (ends : XzRow.Ends whole (Coding.finish XzRow.fresh bytes) content done) :
    AtopHolds (fun _ => Unpacker.XzHolds behind whole (done && whole))
      (unpack .xz (Fin.last 0) (.root source front)) content :=
  ⟨rfl, content, rfl, content, rfl, bytes, done, held, rfl, XzRow.idle_fresh, ends⟩

end Streams

namespace Content

/-! ## Content -/

variable {whole : Bool} {content : Content} {bytes : Bytes}

/-- Reading the content serves these bytes, if what is asked for fits. -/
def Gives (whole : Bool) (content : Content) (bytes : Bytes) : Prop :=
  ∃ holds, (Streams.reader content.count (Fin.last _)).ServesFitting holds whole ∧
    holds content.streams bytes

/-- Reading the content serves these bytes, and breaks off only behind all of them. -/
def GivesAll (whole : Bool) (content : Content) (bytes : Bytes) : Prop :=
  ∃ holds, (Streams.reader content.count (Fin.last _)).Serves holds whole ∧
    (Streams.reader content.count (Fin.last _)).Steady holds ∧ holds content.streams bytes

/-- Reads the content until nothing comes. -/
def pour (content : Content) (size : Option Nat) : Reader.Poured (Streams content.count) :=
  (Streams.reader content.count (Fin.last _)).pour size #[] content.streams

/-- Reading the content until nothing comes gives these bytes, and nothing breaks it off. -/
def Pours (content : Content) (size : Option Nat) (bytes : Bytes) : Prop :=
  (content.pour size).content.toList = bytes ∧ (content.pour size).fault = none

/-- Whoever reads content until nothing comes gets the front of what it gives, and
all of that if the reading does not break off. -/
theorem Gives.pour (gives : content.Gives whole bytes) {size : Option Nat} (asked : size ≠ some 0) :
    (content.pour size).content.toList <+: bytes ∧
      ((content.pour size).fault = none →
        (content.pour size).content.toList = bytes ∧ whole = true) := by
  obtain ⟨holds, serves, held⟩ := gives
  obtain ⟨given, rest, rfl, gathered, ended⟩ := serves.pour asked #[] held
  have content : (content.pour size).content.toList = given := by
    rw [Content.pour, gathered]
    rfl
  rw [content]
  refine ⟨List.prefix_append .., ?_⟩
  intro complete
  rw [Content.pour] at complete
  rw [complete] at ended
  obtain ⟨rfl, all, -⟩ := ended
  exact ⟨(List.append_nil _).symm, all⟩

/-- Content that is whole does not break off, if what is asked for fits. -/
theorem Gives.pours (gives : content.Gives true bytes) {size : Option Nat}
    (asked : size ≠ some 0) (fits : ¬ Excessive size) : content.Pours size bytes := by
  obtain ⟨holds, serves, held⟩ := gives
  refine serves.pour_whole asked ?_ #[] held
  rintro (cut | excessive)
  · cases cut
  · exact fits excessive

/-- Steady content gives all its bytes before it breaks off. -/
theorem GivesAll.pour (gives : content.GivesAll whole bytes) {limit : Nat} (positive : 0 < limit) :
    (content.pour (some limit)).content.toList = bytes ∧
      ((content.pour (some limit)).fault = none ↔ whole = true) := by
  obtain ⟨holds, serves, steady, held⟩ := gives
  exact serves.pour_steady steady positive #[] held

/-- The content of the root stream breaks off only behind all that its source gives. -/
theorem givesAll_root {source : Source} {front : Lookahead}
    (held : Lookahead.Holds (Source.Holds whole) (front, source) bytes) :
    GivesAll whole ⟨.root source front⟩ bytes :=
  ⟨Streams.RootHolds (Source.Holds whole), Streams.root_serves (Source.serves whole),
    Streams.root_steady (Source.steady whole), held⟩

theorem GivesAll.gives (gives : content.GivesAll whole bytes) : content.Gives whole bytes := by
  obtain ⟨holds, serves, -, held⟩ := gives
  exact ⟨holds, serves.fitting, held⟩

/-- The content of a whole source does not break off, whatever is asked for. -/
theorem GivesAll.pours (gives : content.GivesAll true bytes) {size : Option Nat}
    (asked : size ≠ some 0) : content.Pours size bytes := by
  obtain ⟨holds, serves, -, held⟩ := gives
  exact serves.pour_whole asked nofun #[] held

/-- Reading the content reaches one of these, or breaks off. -/
def Promises (content : Content) (target : Bytes → Prop) : Prop :=
  ∃ past breaks, (Streams.reader content.count (Fin.last _)).Continues past target breaks ∧
    past content.streams []

theorem Promises.mono {target further : Bytes → Prop} (promises : content.Promises target)
    (reaches : ∀ image, target image → further image) : content.Promises further := by
  obtain ⟨past, breaks, continued, held⟩ := promises
  exact ⟨past, breaks, continued.mono reaches, held⟩

/-- Whoever reads content until nothing comes, and is not broken off, gets what it promises. -/
theorem Promises.pour {target : Bytes → Prop} (promises : content.Promises target)
    {size : Option Nat} (asked : size ≠ some 0) (whole : (content.pour size).fault = none) :
    target (content.pour size).content.toList := by
  obtain ⟨past, breaks, continued, held⟩ := promises
  have start : past content.streams ([] ++ (#[] : Array UInt8).toList) := held
  have ended := continued.pour asked #[] start
  rw [Content.pour] at whole ⊢
  rw [whole] at ended
  exact ended.1

/-! ## Asking for more than fits -/

/-- The content is unpacked, and these bytes of it were shown and not read yet. -/
def Shows (content : Content) (leading : Bytes) : Prop :=
  ∃ (count : Nat) (below : Fin (count + 1)) (unpacker : Unpacker) (older : Streams count),
    content = ⟨.atop below unpacker { peeked := leading } older⟩

/-- The content is unpacked. Some bytes of it were shown and not read yet, and others come behind
these, of which a read gives as many as are asked for. -/
def Splits (whole : Bool) (content : Content) (leading rest : Bytes) : Prop :=
  ∃ (count : Nat) (below : Fin (count + 1)) (unpacker : Unpacker) (older : Streams count)
    (holds : Unpacker × Streams count → Bytes → Prop),
    content = ⟨.atop below unpacker { peeked := leading } older⟩ ∧
      (Unpacker.reader (Streams.reader count below)).ServesFully holds whole ∧
        holds (unpacker, older) rest

theorem Splits.shows {leading rest : Bytes} (splits : content.Splits whole leading rest) :
    content.Shows leading := by
  obtain ⟨count, below, unpacker, older, -, same, -, -⟩ := splits
  exact ⟨count, below, unpacker, older, same⟩

section Refusing

variable {count : Nat} (below : Fin (count + 1)) (unpacker : Unpacker) (older : Streams count)
  {size : Nat}

/-- What was shown is given in one piece to whoever asks for more than fits. -/
theorem read_shown {byte : UInt8} {more : Bytes} (short : (byte :: more).length ≤ largestPiece)
    (excessive : Excessive (some size)) :
    (Streams.reader (count + 1) (Fin.last _)).read (some size)
        (.atop below unpacker { peeked := byte :: more } older) =
      .ok (byte :: more) (.atop below unpacker {} older) := by
  have all : (byte :: more).length ≤ size := Nat.le_trans short (Nat.le_of_lt excessive)
  rw [Streams.reader_last]
  simp only [Streams.newestReader, Lookahead.read, Bool.false_eq_true, if_false]
  rw [List.take_of_length_le all, List.drop_of_length_le all]
  rfl

/-- Where all that was shown is read, more than fits is refused. -/
theorem read_unshown (excessive : Excessive (some size)) :
    (Streams.reader (count + 1) (Fin.last _)).read (some size) (.atop below unpacker {} older) =
      .error (.tooLarge size) (.atop below unpacker {} older) := by
  rw [Streams.reader_last]
  simp only [Streams.newestReader, Lookahead.read, Bool.false_eq_true, if_false]
  rw [Unpacker.read_excessive excessive]
  rfl

end Refusing

/-- Whoever asks for more than fits gets what was shown, and nothing else. -/
theorem Shows.pour {leading : Bytes} (shows : content.Shows leading)
    (short : leading.length ≤ largestPiece) {size : Nat} (excessive : Excessive (some size)) :
    (content.pour (some size)).content.toList = leading ∧
      (content.pour (some size)).fault = some (.tooLarge size) := by
  obtain ⟨count, below, unpacker, older, rfl⟩ := shows
  have refused := read_unshown below unpacker older excessive
  unfold Content.pour
  cases leading with
  | nil =>
    rw [Reader.pour_of_error refused]
    exact ⟨rfl, rfl⟩
  | cons byte more =>
    have shown := read_shown below unpacker older short excessive
    rw [Reader.pour_of_ok shown, Reader.pour_of_error refused]
    exact ⟨Array.toList_appendList .., rfl⟩

/-! ## Looking at content -/

theorem peek_root (size : Option Int) (state : Lookahead × Source) :
    peek size ⟨Streams.ofRoot state⟩ =
      Ending.inside (fun state => ⟨Streams.ofRoot state⟩)
        (Lookahead.peek Source.reader size state) := by
  obtain ⟨front, source⟩ := state
  simp only [peek, onNewest, Streams.peek, Streams.ofRoot]
  cases Lookahead.peek Source.reader size (front, source) <;> rfl

theorem peek_newest {count : Nat} (size : Option Int) (below : Fin (count + 1))
    (state : Lookahead × (Unpacker × Streams count)) :
    peek size ⟨Streams.ofNewest below state⟩ =
      Ending.inside (fun state => ⟨Streams.ofNewest below state⟩)
        (Lookahead.peek (Unpacker.reader (Streams.reader count below)) size state) := by
  obtain ⟨front, unpacker, older⟩ := state
  have newest : ¬ (Fin.last (count + 1)).val < count + 1 := Nat.lt_irrefl _
  simp only [peek, onNewest, Streams.peek, Streams.ofNewest, dif_neg newest]
  cases Lookahead.peek (Unpacker.reader (Streams.reader count below)) size
    (front, unpacker, older) <;> rfl

end Content

end DiskStaging
