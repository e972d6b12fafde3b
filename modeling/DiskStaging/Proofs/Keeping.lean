import DiskStaging.Stream.Content
import DiskStaging.Transfer

/-!
# What reading keeps

Reading from a source takes bytes off it and does nothing else. So a property of what
is behind a reader that a single read keeps is kept by everything that reads, whether it
ends well or fails: by looking ahead, buffering and unpacking, and by copying into a
file (`Keeps`).

Streams over a source are read and looked at without any of them being opened or closed
(`Streams.Alike`, `Streams.reader_keeps`, `Streams.peek_keeps`).
-/

set_option autoImplicit false

namespace DiskStaging

variable {σ τ α β : Type} {kept : σ → Prop}

/-! ## Keeping a property -/

/-- An action that keeps a property of states, whether it ends well or fails. -/
def Keeps (kept : σ → Prop) (act : Act σ α) : Prop :=
  ∀ state, kept state → kept (Ending.state (act state))

theorem Ending.state_inside (place : σ → τ) (ending : Ending σ α) :
    Ending.state (Ending.inside place ending) = place (Ending.state ending) := by
  cases ending <;> rfl

namespace Keeps

theorem pure (value : α) : Keeps kept (Pure.pure value : Act σ α) := fun _ held => held

theorem throw (fault : Fault) : Keeps kept (MonadExcept.throw fault : Act σ α) :=
  fun _ held => held

theorem ok {act : Act σ α} (keeps : Keeps kept act) {state after : σ} {value : α}
    (held : kept state) (ended : act state = .ok value after) : kept after := by
  have left := keeps state held
  rwa [ended] at left

theorem error {act : Act σ α} (keeps : Keeps kept act) {state after : σ} {fault : Fault}
    (held : kept state) (ended : act state = .error fault after) : kept after := by
  have left := keeps state held
  rwa [ended] at left

theorem bind {act : Act σ α} {next : α → Act σ β} (first : Keeps kept act)
    (rest : ∀ value, Keeps kept (next value)) : Keeps kept (act >>= next) := by
  intro state held
  simp only [Bind.bind, EStateM.bind]
  cases ended : act state with
  | ok value after => exact rest value after (first.ok held ended)
  | error fault after => exact first.error held ended

/-- Turns that keep a property keep it until one gives bytes. -/
theorem untilGiven {budget : σ → Nat} {turn : Act σ (Option Bytes)}
    (thrifty : Thrifty budget turnCost turn) (keeps : Keeps kept turn) :
    Keeps kept (untilGiven turn thrifty) := by
  intro state held
  fun_induction DiskStaging.untilGiven turn thrifty state with
  | case1 state fault after taken => exact keeps.error held taken
  | case2 state given after taken => exact keeps.ok held taken
  | case3 state after taken ih => exact ih (keeps.ok held taken)

end Keeps

/-! ## Readers -/

namespace Reader

/-- Every read keeps the property. -/
def Keeps (reader : Reader σ) (kept : σ → Prop) : Prop :=
  ∀ size, DiskStaging.Keeps kept (reader.read size)

namespace Keeps

variable {reader : Reader σ}

theorem pour (keeps : reader.Keeps kept) (size : Option Nat) (gathered : Array UInt8) {state : σ}
    (held : kept state) : kept (reader.pour size gathered state).state := by
  fun_induction Reader.pour reader size gathered state with
  | case1 gathered state fault after read => exact (keeps size).error held read
  | case2 gathered state after read => exact (keeps size).ok held read
  | case3 gathered state byte more after read ih => exact ih ((keeps size).ok held read)

theorem drain (keeps : reader.Keeps kept) (size : Option Nat) (gathered : Array UInt8) :
    DiskStaging.Keeps kept (reader.drain size gathered) := by
  intro state held
  have left := keeps.pour size gathered held
  unfold Reader.drain
  rcases poured : reader.pour size gathered state with ⟨content, _ | fault, after⟩ <;>
    rwa [poured] at left

theorem complete (keeps : reader.Keeps kept) (size : Nat) (gathered : Bytes) :
    DiskStaging.Keeps kept (reader.complete size gathered) := by
  intro state held
  fun_induction Reader.complete reader size gathered state with
  | case1 gathered state short fault after read => exact (keeps _).error held read
  | case2 gathered state short after read => exact (keeps _).ok held read
  | case3 gathered state short byte more after read ih => exact ih ((keeps _).ok held read)
  | case4 gathered state enough => exact held

theorem exactly (keeps : reader.Keeps kept) (size : Nat) :
    DiskStaging.Keeps kept (reader.exactly size) :=
  .bind (keeps (some size)) fun first => keeps.complete size first

theorem skipTo (keeps : reader.Keeps kept) (wanted : UInt8 → Bool) :
    DiskStaging.Keeps kept (reader.skipTo wanted) := by
  intro state held
  fun_induction Reader.skipTo reader wanted state with
  | case1 state fault after read => exact (keeps _).error held read
  | case2 state after read => exact (keeps _).ok held read
  | case3 state byte more after read found => exact (keeps _).ok held read
  | case4 state byte more after read other ih => exact ih ((keeps _).ok held read)

/-- What is put together from reads keeps what these keep. -/
theorem congruence (keeps : reader.Keeps kept) :
    Congruence reader reader fun _ act _ => DiskStaging.Keeps kept act where
  pure := .pure
  throw := .throw
  bind := .bind
  exactly := keeps.exactly
  skipTo := keeps.skipTo

end Keeps

end Reader

/-- Reading a source takes bytes off it and records what was asked for, and nothing else. -/
theorem Source.reader_keeps_of {kept : Source → Prop}
    (blind : ∀ source rest position asked, kept source →
      kept { source with rest, position, asked }) : Source.reader.Keeps kept := by
  intro size source held
  simp only [Source.reader, Source.read]
  cases source.fault? <;> exact blind source _ _ _ held

/-- Reading a source does not close it. -/
theorem Source.reader_keeps (closes : Nat) :
    Source.reader.Keeps fun source => source.closes = closes :=
  Source.reader_keeps_of fun _ _ _ _ held => held

/-- Whether or not that raises, closing a source closes it. -/
theorem Source.closes_close (source : Source) :
    (Ending.state (Source.close source)).closes = source.closes + 1 := by
  unfold Source.close
  cases source.closeFault <;> rfl

namespace Lookahead

variable {below : Reader σ}

/-- Filling a lookahead keeps what reading keeps, and whether the lookahead is closed. -/
theorem fill_keeps (keeps : below.Keeps kept) (closed : Bool) (size : Nat) {front : Lookahead}
    {state : σ} (same : front.closed = closed) (held : kept state) :
    (Ending.state (fill below size front state)).1.closed = closed ∧
      kept (Ending.state (fill below size front state)).2 := by
  fun_induction fill below size front state with
  | case1 front state short fault after read => exact ⟨same, (keeps _).error held read⟩
  | case2 front state short after read => exact ⟨same, (keeps _).ok held read⟩
  | case3 front state short byte more after read ih => exact ih same ((keeps _).ok held read)
  | case4 front state enough => exact ⟨same, held⟩

theorem peek_keeps (keeps : below.Keeps kept) (closed : Bool) (size : Option Int) :
    Keeps (fun state => state.1.closed = closed ∧ kept state.2) (peek below size) := by
  rintro ⟨front, state⟩ ⟨same, held⟩
  simp only [peek]
  split
  · exact ⟨same, held⟩
  · cases size with
    | none => exact ⟨same, held⟩
    | some size =>
      have filled := fill_keeps keeps closed size.toNat same held
      dsimp only
      cases ended : fill below size.toNat front state <;> rw [ended] at filled <;> exact filled

theorem reader_keeps (keeps : below.Keeps kept) (closed : Bool) :
    (reader below).Keeps fun state => state.1.closed = closed ∧ kept state.2 := by
  rintro size ⟨⟨peeked, shut⟩, state⟩ ⟨same, held⟩
  simp only [reader, read]
  split
  · exact ⟨same, held⟩
  · split
    · exact ⟨same, held⟩
    · cases ended : below.read size state with
      | error fault after => exact ⟨same, (keeps _).error held ended⟩
      | ok given after => exact ⟨same, (keeps _).ok held ended⟩

end Lookahead

theorem Pushback.reader_keeps {below : Reader σ} (keeps : below.Keeps kept) :
    (Pushback.reader below).Keeps fun state => kept state.2 := by
  rintro size ⟨pushed, state⟩ held
  simp only [Pushback.reader, Pushback.read]
  cases pushed with
  | none =>
    dsimp only
    rw [Ending.state_inside]
    exact keeps size state held
  | some bytes =>
    dsimp only
    split
    · exact held
    · cases ended : below.read (size.map (· - bytes.length)) state with
      | error fault after => exact (keeps _).error held ended
      | ok given after => exact (keeps _).ok held ended

/-! ## Unpacking -/

namespace Gzip

variable {below : Reader σ}

theorem readEnd_keeps (keeps : below.Keeps kept) (check : UInt32) (size : Nat) :
    Keeps (fun input => kept input.2) (readEnd below check size) := by
  have through := Pushback.reader_keeps keeps
  refine .bind (readTrailer_congr through.congruence check size) fun _ =>
    .bind (through.skipTo _) fun found => ?_
  cases found with
  | none => exact .pure ()
  | some byte =>
    intro state held
    exact held

/-- What is behind the state of reading gzip data has the property. -/
def Behind (kept : σ → Prop) (state : Gzip × (Option Bytes × σ)) : Prop := kept state.2.2

theorem endMember_keeps (keeps : below.Keeps kept) : Keeps (Behind kept) (endMember below) := by
  rintro ⟨gzip, input⟩ held
  have ends := readEnd_keeps keeps gzip.check gzip.size
  simp only [endMember]
  split
  · cases ended : readEnd below gzip.check gzip.size input with
    | error fault after => exact ends.error held ended
    | ok value after => exact ends.ok held ended
  · exact held

theorem beginMember_keeps (keeps : below.Keeps kept) : Keeps (Behind kept) (beginMember below) := by
  rintro ⟨gzip, input⟩ held
  have through := Pushback.reader_keeps keeps
  have begins := readHeader_congr through.congruence (through _)
  simp only [beginMember]
  split
  · cases ended : readHeader (Pushback.reader below) input with
    | error fault after => exact begins.error held ended
    | ok found after =>
      have left := begins.ok held ended
      cases found <;> exact left
  · exact held

theorem decodeBlock_keeps (keeps : below.Keeps kept) (room : Nat) :
    Keeps (Behind kept) (decodeBlock below room) := by
  rintro ⟨gzip, input⟩ held
  have reads := Pushback.reader_keeps keeps (some blockSize)
  have backed (rest : Bytes) (input : Option Bytes × σ) : (putBack rest input).2 = input.2 := by
    unfold putBack
    split <;> rfl
  simp only [decodeBlock]
  cases ended : (Pushback.reader below).read (some blockSize) input with
  | error fault after => exact reads.error held ended
  | ok block after =>
    have left : kept after.2 := reads.ok held ended
    dsimp only
    generalize decode gzip block room = decoded
    obtain ⟨next, given, rest, fault⟩ := decoded
    cases fault with
    | some why => exact left
    | none =>
      rw [← backed rest after] at left
      dsimp only
      split
      · exact left
      · split
        · exact left
        · exact left

theorem reader_keeps (keeps : below.Keeps kept) : (reader below).Keeps (Behind kept) := by
  intro size state held
  simp only [reader, read]
  split
  · refine Keeps.untilGiven _ (.bind (endMember_keeps keeps) fun _ =>
      .bind (beginMember_keeps keeps) fun found => ?_) state held
    cases found with
    | true => exact decodeBlock_keeps keeps _
    | false => exact .pure (some [])
  · exact held

end Gzip

namespace XzRow

variable {below : Reader σ}

theorem nextInput_keeps (keeps : below.Keeps kept) (held : Bytes) :
    Keeps kept (nextInput below held) := by
  unfold nextInput
  split
  · exact keeps _
  · exact .pure held

theorem moreInput_keeps (keeps : below.Keeps kept) (hungry : Bool) :
    Keeps kept (moreInput below hungry) := by
  intro state held
  simp only [moreInput]
  split
  · split
    · rename_i after ended
      exact (keeps _).ok held ended
    · exact keeps _ state held
  · exact held

/-- What is behind the state of reading xz data has the property. -/
def Behind (kept : σ → Prop) (state : XzRow × σ) : Prop := kept state.2

theorem firstBlock_behind (decoder : XzDecoder) (block : Bytes) (room : Nat) {state : σ}
    (held : kept state) : Behind kept (Ending.state (firstBlock decoder block room state)) := by
  unfold firstBlock
  generalize decode decoder block room = decoded
  obtain ⟨next, given, fault⟩ := decoded
  cases fault <;> exact held

theorem nextStream_keeps (keeps : below.Keeps kept) (room : Nat) :
    Keeps (Behind kept) (nextStream below room) := by
  rintro ⟨row, state⟩ held
  have reads := nextInput_keeps keeps row.decoder.held
  simp only [nextStream]
  cases ended : nextInput below row.decoder.held state with
  | error fault after => exact reads.error held ended
  | ok block after =>
    have left := reads.ok held ended
    cases block with
    | nil => exact left
    | cons byte more => exact firstBlock_behind (.fresh .start) (byte :: more) room left

theorem sameStream_keeps (keeps : below.Keeps kept) (room : Nat) :
    Keeps (Behind kept) (sameStream below room) := by
  rintro ⟨⟨decoder, finished⟩, state⟩ held
  have reads := moreInput_keeps keeps decoder.hungry
  simp only [sameStream]
  cases ended : moreInput below decoder.hungry state with
  | error fault after => exact reads.error held ended
  | ok block after =>
    have left := reads.ok held ended
    dsimp only
    generalize decode decoder block room = decoded
    obtain ⟨decoder, given, fault⟩ := decoded
    cases fault <;> exact left

theorem turn_keeps (keeps : below.Keeps kept) (room : Nat) :
    Keeps (Behind kept) (turn below room) := by
  rintro ⟨row, state⟩ held
  simp only [turn]
  split
  · exact held
  · split
    · exact nextStream_keeps keeps room (row, state) held
    · exact sameStream_keeps keeps room (row, state) held

theorem reader_keeps (keeps : below.Keeps kept) : (reader below).Keeps (Behind kept) := by
  intro size state held
  simp only [reader, read]
  split
  · exact Keeps.untilGiven _ (turn_keeps keeps _) state held
  · exact held

end XzRow

namespace Buffered

variable {raw : Reader σ}

theorem blocks_keeps (keeps : raw.Keeps kept) (wanted : Nat) (gathered : Array UInt8) :
    Keeps kept (blocks raw wanted gathered) := by
  intro state held
  fun_induction blocks raw wanted gathered state with
  | case1 wanted gathered state few => exact held
  | case2 wanted gathered state many fault after read => exact (keeps _).error held read
  | case3 wanted gathered state many after read => exact (keeps _).ok held read
  | case4 wanted gathered state many byte more after read ih => exact ih ((keeps _).ok held read)

theorem top_keeps (keeps : raw.Keeps kept) (wanted filled : Nat) (gathered : Array UInt8)
    {state : σ} (held : kept state) :
    kept (Ending.state (top raw wanted filled gathered state)).2 := by
  fun_induction top raw wanted filled gathered state with
  | case1 filled gathered state => exact held
  | case2 wanted filled gathered state some fault after read => exact (keeps _).error held read
  | case3 wanted filled gathered state some after read => exact (keeps _).ok held read
  | case4 wanted filled gathered state some byte more after read given enough =>
    exact (keeps _).ok held read
  | case5 wanted filled gathered state some byte more after read given few ih =>
    exact ih ((keeps _).ok held read)

theorem take_keeps (keeps : raw.Keeps kept) (size : Option Nat) :
    Keeps (fun state => kept state.2) (take raw size) := by
  rintro ⟨front, state⟩ held
  cases size with
  | none =>
    have drains := keeps.drain none front.toArray
    simp only [take]
    cases ended : raw.drain none front.toArray state with
    | error fault after => exact drains.error held ended
    | ok all after => exact drains.ok held ended
  | some size =>
    have gathers := blocks_keeps keeps (size - front.length) front.toArray
    simp only [take]
    split
    · exact held
    · cases ended : blocks raw (size - front.length) front.toArray state with
      | error fault after => exact gathers.error held ended
      | ok value after =>
        have left := gathers.ok held ended
        obtain ⟨gathered, _ | wanted⟩ := value
        · exact left
        · exact top_keeps keeps wanted 0 gathered left

theorem reader_keeps (keeps : raw.Keeps kept) :
    (reader raw).Keeps fun state => kept state.2 := by
  intro size
  simp only [reader, read]
  split
  · exact .throw _
  · exact take_keeps keeps size

end Buffered

theorem Unpacker.reader_keeps {below : Reader σ} (keeps : below.Keeps kept) :
    (Unpacker.reader below).Keeps fun state => kept state.2 := by
  rintro size ⟨⟨buffer, member, pushed⟩ | ⟨buffer, row⟩, state⟩ held
  · simp only [reader, read]
    rw [Ending.state_inside]
    exact Buffered.reader_keeps (Gzip.reader_keeps keeps) size (buffer, member, pushed, state) held
  · simp only [reader, read]
    rw [Ending.state_inside]
    exact Buffered.reader_keeps (XzRow.reader_keeps keeps) size (buffer, row, state) held

/-! ## Streams -/

namespace Streams

/-- Streams of one shape: opened over the same ones, open and closed alike, over sources
that were closed equally often. -/
inductive Alike : {count : Nat} → Streams count → Streams count → Prop
  | root {source other : Source} {front next : Lookahead} (closed : next.closed = front.closed)
    (closes : other.closes = source.closes) : Alike (.root source front) (.root other next)
  | atop {count : Nat} {below : Fin (count + 1)} {unpacker other : Unpacker}
    {front next : Lookahead} {older others : Streams count} (closed : next.closed = front.closed)
    (alike : Alike older others) :
    Alike (.atop below unpacker front older) (.atop below other next others)

theorem Alike.refl {count : Nat} (streams : Streams count) : Alike streams streams := by
  induction streams with
  | root source front => exact .root rfl rfl
  | atop below unpacker front older ih => exact .atop rfl ih

/-- Reading a stream opens and closes none. -/
theorem reader_keeps {count : Nat} (start : Streams count) (i : Fin (count + 1)) :
    (reader count i).Keeps (Alike start) := by
  induction start with
  | root source front =>
    intro size streams alike
    cases alike with
    | @root _ other _ next closed closes =>
      have same := Lookahead.reader_keeps (Source.reader_keeps source.closes) front.closed size
        (next, other) ⟨closed, closes⟩
      simp only [reader, rootReader]
      rw [Ending.state_inside]
      exact .root same.1 same.2
  | @atop count below unpacker front older ih =>
    intro size streams alike
    cases alike with
    | @atop _ _ _ other _ next _ others closed alike =>
      rw [reader]
      split
      · simp only [olderReader]
        rw [Ending.state_inside]
        exact .atop closed (ih _ size others alike)
      · have same := Lookahead.reader_keeps (Unpacker.reader_keeps (ih below)) front.closed size
          (next, other, others) ⟨closed, alike⟩
        simp only [newestReader]
        rw [Ending.state_inside]
        exact .atop same.1 same.2

/-- Looking at a stream opens and closes none. -/
theorem peek_keeps (size : Option Int) {count : Nat} (start : Streams count)
    (i : Fin (count + 1)) : Keeps (Alike start) (peek size i) := by
  induction start with
  | root source front =>
    intro streams alike
    cases alike with
    | @root _ other _ next closed closes =>
      have same := Lookahead.peek_keeps (Source.reader_keeps source.closes) front.closed size
        (next, other) ⟨closed, closes⟩
      simp only [peek]
      rw [Ending.state_inside]
      exact .root same.1 same.2
  | @atop count below unpacker front older ih =>
    intro streams alike
    cases alike with
    | @atop _ _ _ other _ next _ others closed alike =>
      simp only [peek]
      split
      · rw [Ending.state_inside]
        exact .atop closed (ih _ others alike)
      · have same := Lookahead.peek_keeps (Unpacker.reader_keeps (reader_keeps older below))
          front.closed size (next, other, others) ⟨closed, alike⟩
        rw [Ending.state_inside]
        exact .atop same.1 same.2

variable {kept : Source → Prop}

/-- Reading a stream does to the source what reading that does. -/
theorem reader_keeps_source (keeps : Source.reader.Keeps kept) {count : Nat} (i : Fin (count + 1)) :
    (reader count i).Keeps fun streams => kept streams.source := by
  induction count with
  | zero =>
    rintro size (⟨source, front⟩) held
    have same := Lookahead.reader_keeps keeps front.closed size (front, source) ⟨rfl, held⟩
    simp only [reader, rootReader]
    rw [Ending.state_inside]
    exact same.2
  | succ count ih =>
    rintro size (_ | ⟨below, unpacker, front, older⟩) held
    rw [reader]
    split
    · simp only [olderReader]
      rw [Ending.state_inside]
      exact ih _ size older held
    · have same := Lookahead.reader_keeps (Unpacker.reader_keeps (ih below)) front.closed size
        (front, unpacker, older) ⟨rfl, held⟩
      simp only [newestReader]
      rw [Ending.state_inside]
      exact same.2

theorem peek_keeps_source (keeps : Source.reader.Keeps kept) (size : Option Int) {count : Nat}
    (i : Fin (count + 1)) : Keeps (fun streams => kept streams.source) (peek size i) := by
  induction count with
  | zero =>
    rintro (⟨source, front⟩) held
    have same := Lookahead.peek_keeps keeps front.closed size (front, source) ⟨rfl, held⟩
    simp only [peek]
    rw [Ending.state_inside]
    exact same.2
  | succ count ih =>
    rintro (_ | ⟨below, unpacker, front, older⟩) held
    simp only [peek]
    split
    · rw [Ending.state_inside]
      exact ih _ older held
    · have same := Lookahead.peek_keeps (Unpacker.reader_keeps (reader_keeps_source keeps below))
        front.closed size (front, unpacker, older) ⟨rfl, held⟩
      rw [Ending.state_inside]
      exact same.2

end Streams

/-! ## Copying -/

/-- Copying a stream into a file keeps what reading the stream keeps. -/
theorem streamToFile_keeps {reader : Reader σ} (keeps : reader.Keeps kept) (path : Path)
    (chunk : Option Int) :
    Keeps (fun state => kept state.2) (streamToFile reader path chunk) := by
  rintro ⟨files, state⟩ held
  have poured := keeps.pour (sizeAsked chunk) #[] held
  simp only [streamToFile]
  cases files.openFile path with
  | error why => exact held
  | ok place =>
    dsimp only
    cases (reader.pour (sizeAsked chunk) #[] state).fault <;> exact poured

theorem streamToScratch_keeps {reader : Reader σ} (keeps : reader.Keeps kept) (scratch : Path)
    (chunk : Option Int) :
    Keeps (fun state => kept state.2) (streamToScratch reader scratch chunk) := by
  rintro ⟨files, state⟩ held
  have copies := streamToFile_keeps keeps (stagingPath scratch) chunk
  simp only [streamToScratch]
  cases files.isDirectory scratch with
  | error why => exact held
  | ok there =>
    cases there with
    | false => exact held
    | true =>
      dsimp only
      cases ended : streamToFile reader (stagingPath scratch) chunk (files, state) with
      | error fault after => exact copies.error held ended
      | ok written after => exact copies.ok held ended

end DiskStaging
