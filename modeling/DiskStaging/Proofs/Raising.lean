import DiskStaging.Proofs.Ownership

/-!
# What reading raises

Nothing that reads for others wraps or replaces what it meets. So whatever fault comes out of
a stream that is asked for what fits, the source raised it, or it says that the compressed data
are no good (`Fault.Corrupt`). This goes through all that is put together from reads: an action
that keeps a property of states raises, from there, faults of a certain sort only (`Raises`), and
a reader behind which there is a sort of faults that takes in those of bad data raises these.
Whoever is asked for what fits asks for no more than fits in turn.

Open streams raise what their source raises, and the faults of bad data
(`Streams.peek_raises`).
-/

set_option autoImplicit false

namespace DiskStaging

/-- The faults of compressed data that are no good. -/
inductive Fault.Corrupt : Fault → Prop
  | gzip (why : GzipFault) : Corrupt (.gzip why)
  | deflate (why : Deflate.Fault) : Corrupt (.deflate why)
  | lzma (why : Lzma.Fault) : Corrupt (.lzma why)
  | cutShort : Corrupt .cutShort

variable {σ τ α β : Type} {kept : σ → Prop} {raised : Fault → Prop}

theorem Ending.error_of_inside {place : σ → τ} {ending : Ending σ α} {fault : Fault} {after : τ}
    (ended : Ending.inside place ending = .error fault after) :
    ∃ before, ending = .error fault before := by
  cases ending with
  | ok value state => cases ended
  | error cause state =>
    cases ended
    exact ⟨state, rfl⟩

/-! ## Faults of a sort -/

/-- An action that keeps a property of states, and raises faults of a sort only from states
that have it. -/
structure Raises (kept : σ → Prop) (raised : Fault → Prop) (act : Act σ α) : Prop where
  keeps : Keeps kept act
  sort : ∀ state fault after, kept state → act state = .error fault after → raised fault

namespace Raises

theorem pure (value : α) : Raises kept raised (Pure.pure value : Act σ α) where
  keeps := .pure value
  sort := by
    rintro state fault after - ⟨⟩

theorem throw {fault : Fault} (allowed : raised fault) :
    Raises kept raised (MonadExcept.throw fault : Act σ α) where
  keeps := .throw fault
  sort := by
    rintro state _ after - ⟨⟩
    exact allowed

theorem bind {act : Act σ α} {next : α → Act σ β} (first : Raises kept raised act)
    (rest : ∀ value, Raises kept raised (next value)) : Raises kept raised (act >>= next) where
  keeps := .bind first.keeps fun value => (rest value).keeps
  sort := by
    intro state fault after held ended
    simp only [Bind.bind, EStateM.bind] at ended
    cases begun : act state with
    | ok value between =>
      rw [begun] at ended
      exact (rest value).sort _ _ _ (first.keeps.ok held begun) ended
    | error cause between =>
      rw [begun] at ended
      cases ended
      exact first.sort _ _ _ held begun

/-- What turns raise is raised until one gives bytes. -/
theorem untilGiven {budget : σ → Nat} {turn : Act σ (Option Bytes)}
    (thrifty : Thrifty budget turnCost turn) (raises : Raises kept raised turn) :
    Raises kept raised (untilGiven turn thrifty) where
  keeps := .untilGiven thrifty raises.keeps
  sort := by
    intro state fault after held ended
    fun_induction DiskStaging.untilGiven turn thrifty state with
    | case1 state cause between taken =>
      cases ended
      exact raises.sort _ _ _ held taken
    | case2 state given between taken => cases ended
    | case3 state between taken ih => exact ih (raises.keeps.ok held taken) ended

end Raises

/-! ## Readers -/

namespace Reader

/-- Every read keeps the property, and every read of a size that fits raises faults of the
sort only. -/
structure Raises (reader : Reader σ) (kept : σ → Prop) (raised : Fault → Prop) : Prop where
  keeps : reader.Keeps kept
  sort : ∀ {size}, ¬ Excessive size → ∀ {state fault after}, kept state →
    reader.read size state = .error fault after → raised fault

namespace Raises

variable {reader : Reader σ}

theorem read (raises : reader.Raises kept raised) {size : Option Nat} (fits : ¬ Excessive size) :
    DiskStaging.Raises kept raised (reader.read size) :=
  ⟨raises.keeps size, fun _ _ _ => raises.sort fits⟩

theorem mono {more : Fault → Prop} (raises : reader.Raises kept raised)
    (weaker : ∀ fault, raised fault → more fault) : reader.Raises kept more :=
  ⟨raises.keeps, fun fits _ _ _ held ended => weaker _ (raises.sort fits held ended)⟩

theorem pour (raises : reader.Raises kept raised) {size : Option Nat} (fits : ¬ Excessive size)
    (gathered : Array UInt8) {state : σ} (held : kept state) :
    ∀ fault ∈ (reader.pour size gathered state).fault, raised fault := by
  fun_induction Reader.pour reader size gathered state with
  | case1 gathered state fault after read =>
    rintro _ ⟨⟩
    exact raises.sort fits held read
  | case2 gathered state after read => rintro _ ⟨⟩
  | case3 gathered state byte more after read ih => exact ih ((raises.keeps _).ok held read)

theorem drain (raises : reader.Raises kept raised) {size : Option Nat} (fits : ¬ Excessive size)
    (gathered : Array UInt8) : DiskStaging.Raises kept raised (reader.drain size gathered) where
  keeps := raises.keeps.drain size gathered
  sort := by
    intro state fault after held ended
    have allowed := raises.pour fits gathered held
    unfold Reader.drain at ended
    rcases poured : reader.pour size gathered state with ⟨content, _ | cause, between⟩
    · rw [poured] at ended
      cases ended
    · rw [poured] at ended allowed
      cases ended
      exact allowed _ rfl

variable (raises : reader.Raises kept raised)
  (corrupt : ∀ {fault}, Fault.Corrupt fault → raised fault)

include raises corrupt

theorem complete {size : Nat} (fits : ¬ Excessive (some size)) (gathered : Bytes) :
    DiskStaging.Raises kept raised (reader.complete size gathered) where
  keeps := raises.keeps.complete size gathered
  sort := by
    intro state fault after held ended
    fun_induction Reader.complete reader size gathered state with
    | case1 gathered state short cause between read =>
      cases ended
      exact raises.sort (fits_of_le fits (Nat.sub_le ..)) held read
    | case2 gathered state short between read =>
      cases ended
      exact corrupt .cutShort
    | case3 gathered state short byte more between read ih =>
      exact ih ((raises.keeps _).ok held read) ended
    | case4 gathered state enough => cases ended

theorem exactly {size : Nat} (fits : ¬ Excessive (some size)) :
    DiskStaging.Raises kept raised (reader.exactly size) :=
  .bind (raises.read fits) fun first => raises.complete corrupt fits first

omit corrupt in
theorem skipTo (wanted : UInt8 → Bool) :
    DiskStaging.Raises kept raised (reader.skipTo wanted) where
  keeps := raises.keeps.skipTo wanted
  sort := by
    intro state fault after held ended
    fun_induction Reader.skipTo reader wanted state with
    | case1 state cause between read =>
      cases ended
      exact raises.sort (by decide) held read
    | case2 state between read => cases ended
    | case3 state byte more between read found => cases ended
    | case4 state byte more between read other ih =>
      exact ih ((raises.keeps _).ok held read) ended

end Raises

end Reader

namespace Lookahead

variable {below : Reader σ}

/-- A lookahead that is open passes on what the reader behind it raises. -/
theorem reader_raises (raises : below.Raises kept raised) :
    (reader below).Raises (fun state => state.1.closed = false ∧ kept state.2) raised := by
  refine ⟨reader_keeps raises.keeps false, ?_⟩
  rintro size fits ⟨⟨peeked, closed⟩, state⟩ fault after ⟨rfl, held⟩ ended
  simp only [reader, read, Bool.false_eq_true, if_false] at ended
  split at ended
  · cases ended
  · cases read : below.read size state with
    | ok given between =>
      rw [read] at ended
      cases ended
    | error cause between =>
      rw [read] at ended
      cases ended
      exact raises.sort fits held read

theorem fill_raises (raises : below.Raises kept raised) {size : Nat}
    (fits : ¬ Excessive (some size)) {front : Lookahead} {state : σ} {fault : Fault}
    {after : Lookahead × σ} (held : kept state)
    (broken : fill below size front state = .error fault after) : raised fault := by
  fun_induction fill below size front state with
  | case1 front state short cause between read =>
    cases broken
    exact raises.sort (fits_of_le fits (Nat.sub_le ..)) held read
  | case2 front state short between read => cases broken
  | case3 front state short byte more between read ih =>
    exact ih ((raises.keeps _).ok held read) broken
  | case4 front state enough => cases broken

/-- So it does when it is looked at. -/
theorem peek_raises (raises : below.Raises kept raised) {size : Int}
    (fits : ¬ Excessive (some size.toNat)) :
    Raises (fun state => state.1.closed = false ∧ kept state.2) raised
      (peek below (some size)) where
  keeps := peek_keeps raises.keeps false (some size)
  sort := by
    rintro ⟨⟨peeked, closed⟩, state⟩ fault after ⟨rfl, held⟩ ended
    simp only [peek, Bool.false_eq_true, if_false] at ended
    cases filled : fill below size.toNat ⟨peeked, false⟩ state with
    | ok value between =>
      rw [filled] at ended
      cases ended
    | error cause between =>
      rw [filled] at ended
      cases ended
      exact fill_raises raises fits held filled

end Lookahead

theorem Pushback.reader_raises {below : Reader σ} (raises : below.Raises kept raised) :
    (Pushback.reader below).Raises (fun state => kept state.2) raised := by
  refine ⟨Pushback.reader_keeps raises.keeps, ?_⟩
  rintro size fits ⟨pushed, state⟩ fault after held ended
  simp only [Pushback.reader, Pushback.read] at ended
  cases pushed with
  | none =>
    obtain ⟨between, read⟩ := Ending.error_of_inside ended
    exact raises.sort fits held read
  | some bytes =>
    dsimp only at ended
    split at ended
    · cases ended
    · cases read : below.read (size.map (· - bytes.length)) state with
      | ok given between =>
        rw [read] at ended
        cases ended
      | error cause between =>
        rw [read] at ended
        cases ended
        refine raises.sort ?_ held read
        cases size with
        | none => exact id
        | some size => exact fits_of_le fits (Nat.sub_le ..)

/-! ## Unpacking -/

namespace Gzip

section Fields

variable {input : Reader σ} (raises : input.Raises kept raised)
  (corrupt : ∀ {fault}, Fault.Corrupt fault → raised fault)

include raises corrupt

theorem skipSized_raises {size : Nat} (fits : ¬ Excessive (some size)) :
    Raises kept raised (skipSized input size) :=
  .bind (raises.exactly corrupt fits) fun _ => .pure ()

theorem skipExtra_raises : Raises kept raised (skipExtra input) := by
  refine .bind (raises.exactly corrupt (by decide)) fun size => ?_
  have short : Bytes.little size % 1 <<< 16 ≤ 1 <<< 16 := Nat.le_of_lt (Nat.mod_lt _ (by decide))
  exact skipSized_raises raises corrupt (fits_of_le (by decide) short)

omit corrupt in
theorem skipText_raises : Raises kept raised (skipText input) :=
  .bind (raises.skipTo _) fun _ => .pure ()

omit raises corrupt in
theorem skipIf_raises {present : Bool} {skip : Act σ Unit} (skips : Raises kept raised skip) :
    Raises kept raised (skipIf present skip) := by
  unfold skipIf
  split
  · exact skips
  · exact .pure ()

theorem skipFields_raises (flags : UInt8) : Raises kept raised (skipFields input flags) :=
  .bind (skipIf_raises (skipExtra_raises raises corrupt)) fun _ =>
    .bind (skipIf_raises (skipText_raises raises)) fun _ =>
      .bind (skipIf_raises (skipText_raises raises)) fun _ =>
        skipIf_raises (skipSized_raises raises corrupt (by decide))

theorem readFixed_raises : Raises kept raised (readFixed input) := by
  refine .bind (raises.exactly corrupt (by decide)) fun fixed => ?_
  split
  · exact .throw (corrupt (.gzip _))
  · exact .bind (skipFields_raises raises corrupt _) fun _ => .pure true

theorem readHeader_raises : Raises kept raised (readHeader input) := by
  refine .bind (raises.read (by decide)) fun magic => ?_
  split
  · exact .pure false
  · split
    · exact .throw (corrupt (.gzip _))
    · exact readFixed_raises raises corrupt

theorem readTrailer_raises (check : UInt32) (size : Nat) :
    Raises kept raised (readTrailer input check size) := by
  refine .bind (raises.exactly corrupt (by decide)) fun trailer => ?_
  split
  · exact .throw (corrupt (.gzip _))
  · split
    · exact .throw (corrupt (.gzip _))
    · exact .pure ()

end Fields

variable {below : Reader σ} (raises : below.Raises kept raised)
  (corrupt : ∀ {fault}, Fault.Corrupt fault → raised fault)

include raises corrupt

theorem readEnd_raises (check : UInt32) (size : Nat) :
    Raises (fun input => kept input.2) raised (readEnd below check size) := by
  have through := Pushback.reader_raises raises
  refine .bind (readTrailer_raises through corrupt check size) fun _ =>
    .bind (through.skipTo _) fun found => ?_
  cases found with
  | none => exact .pure ()
  | some byte =>
    refine ⟨fun _ held => held, ?_⟩
    rintro input fault after - ⟨⟩

theorem endMember_raises : Raises (Behind kept) raised (endMember below) where
  keeps := endMember_keeps raises.keeps
  sort := by
    rintro ⟨gzip, input⟩ fault after held ended
    have ends := readEnd_raises raises corrupt gzip.check gzip.size
    simp only [endMember] at ended
    split at ended
    · cases last : readEnd below gzip.check gzip.size input with
      | ok value between =>
        rw [last] at ended
        cases ended
      | error cause between =>
        rw [last] at ended
        cases ended
        exact ends.sort _ _ _ held last
    · cases ended

theorem beginMember_raises : Raises (Behind kept) raised (beginMember below) where
  keeps := beginMember_keeps raises.keeps
  sort := by
    rintro ⟨gzip, input⟩ fault after held ended
    have begins := readHeader_raises (Pushback.reader_raises raises) corrupt
    simp only [beginMember] at ended
    split at ended
    · cases first : readHeader (Pushback.reader below) input with
      | ok found between =>
        rw [first] at ended
        cases found <;> cases ended
      | error cause between =>
        rw [first] at ended
        cases ended
        exact begins.sort _ _ _ held first
    · cases ended

theorem decodeBlock_raises (room : Nat) :
    Raises (Behind kept) raised (decodeBlock below room) where
  keeps := decodeBlock_keeps raises.keeps room
  sort := by
    rintro ⟨gzip, input⟩ fault after held ended
    simp only [decodeBlock] at ended
    cases read : (Pushback.reader below).read (some blockSize) input with
    | error cause between =>
      rw [read] at ended
      cases ended
      exact (Pushback.reader_raises raises).sort (by decide) held read
    | ok block between =>
      rw [read] at ended
      dsimp only at ended
      generalize decode gzip block room = decoded at ended
      obtain ⟨next, given, rest, why | why⟩ := decoded
      · dsimp only at ended
        split at ended
        · cases ended
        · split at ended
          · cases ended
            exact corrupt .cutShort
          · cases ended
      · cases ended
        exact corrupt (.deflate why)

theorem reader_raises : (reader below).Raises (Behind kept) raised := by
  refine ⟨reader_keeps raises.keeps, ?_⟩
  intro size _ state fault after held ended
  simp only [reader, read] at ended
  split at ended
  · refine (Raises.untilGiven _ (.bind (endMember_raises raises corrupt) fun _ =>
      .bind (beginMember_raises raises corrupt) fun found => ?_)).sort _ _ _ held ended
    cases found with
    | true => exact decodeBlock_raises raises corrupt _
    | false => exact .pure (some [])
  · cases ended

end Gzip

namespace XzRow

variable {below : Reader σ} (raises : below.Raises kept raised)
  (corrupt : ∀ {fault}, Fault.Corrupt fault → raised fault)

include raises

theorem nextInput_raises (held : Bytes) : Raises kept raised (nextInput below held) := by
  unfold nextInput
  split
  · exact raises.read (by decide)
  · exact .pure held

omit raises in
/-- What is no stream ends the row, so its fault is not raised. -/
theorem firstBlock_ne_error (decoder : XzDecoder) (block : Bytes) (room : Nat) {state : σ}
    {fault : Fault} {after : XzRow × σ} :
    firstBlock decoder block room state ≠ .error fault after := by
  unfold firstBlock
  generalize decode decoder block room = decoded
  obtain ⟨next, given, why | why⟩ := decoded <;> rintro ⟨⟩

theorem nextStream_raises (room : Nat) : Raises (Behind kept) raised (nextStream below room) where
  keeps := nextStream_keeps raises.keeps room
  sort := by
    rintro ⟨row, state⟩ fault after held ended
    simp only [nextStream] at ended
    cases read : nextInput below row.decoder.held state with
    | error cause between =>
      rw [read] at ended
      cases ended
      exact (nextInput_raises raises _).sort _ _ _ held read
    | ok block between =>
      rw [read] at ended
      cases block with
      | nil => cases ended
      | cons byte more =>
        exact absurd ended (firstBlock_ne_error (.fresh .start) (byte :: more) room)

include corrupt

theorem moreInput_raises (hungry : Bool) : Raises kept raised (moreInput below hungry) where
  keeps := moreInput_keeps raises.keeps hungry
  sort := by
    intro state fault after held ended
    simp only [moreInput] at ended
    split at ended
    · split at ended
      · cases ended
        exact corrupt .cutShort
      · exact raises.sort (by decide) held ended
    · cases ended

theorem sameStream_raises (room : Nat) : Raises (Behind kept) raised (sameStream below room) where
  keeps := sameStream_keeps raises.keeps room
  sort := by
    rintro ⟨⟨decoder, finished⟩, state⟩ fault after held ended
    simp only [sameStream] at ended
    cases read : moreInput below decoder.hungry state with
    | error cause between =>
      rw [read] at ended
      cases ended
      exact (moreInput_raises raises corrupt _).sort _ _ _ held read
    | ok block between =>
      rw [read] at ended
      dsimp only at ended
      generalize decode decoder block room = decoded at ended
      obtain ⟨next, given, why | why⟩ := decoded
      · cases ended
      · cases ended
        exact corrupt (.lzma why)

theorem turn_raises (room : Nat) : Raises (Behind kept) raised (turn below room) where
  keeps := turn_keeps raises.keeps room
  sort := by
    rintro ⟨row, state⟩ fault after held ended
    simp only [turn] at ended
    split at ended
    · cases ended
    · split at ended
      · exact (nextStream_raises raises room).sort _ _ _ held ended
      · exact (sameStream_raises raises corrupt room).sort _ _ _ held ended

theorem reader_raises : (reader below).Raises (Behind kept) raised := by
  refine ⟨reader_keeps raises.keeps, ?_⟩
  intro size _ state fault after held ended
  simp only [reader, read] at ended
  split at ended
  · exact (Raises.untilGiven _ (turn_raises raises corrupt _)).sort _ _ _ held ended
  · cases ended

end XzRow

namespace Buffered

variable {raw : Reader σ} (raises : raw.Raises kept raised)

include raises

theorem blocks_raises {wanted : Nat} (fits : ¬ Excessive (some wanted)) (gathered : Array UInt8) :
    Raises kept raised (blocks raw wanted gathered) where
  keeps := blocks_keeps raises.keeps wanted gathered
  sort := by
    intro state fault after held ended
    fun_induction blocks raw wanted gathered state with
    | case1 wanted gathered state few => cases ended
    | case2 wanted gathered state many cause between read =>
      cases ended
      exact raises.sort (fits_of_le fits (Nat.div_mul_le_self ..)) held read
    | case3 wanted gathered state many between read => cases ended
    | case4 wanted gathered state many byte more between read ih =>
      exact ih (fits_of_le fits (Nat.sub_le ..)) ((raises.keeps _).ok held read) ended

theorem top_raises (wanted filled : Nat) (gathered : Array UInt8) {state : σ} {fault : Fault}
    {after : Bytes × σ} (held : kept state)
    (broken : top raw wanted filled gathered state = .error fault after) : raised fault := by
  fun_induction top raw wanted filled gathered state with
  | case1 filled gathered state => cases broken
  | case2 wanted filled gathered state some cause between read =>
    cases broken
    have block : ¬ Excessive (.some blockSize) := by decide
    exact raises.sort (fits_of_le block (Nat.sub_le ..)) held read
  | case3 wanted filled gathered state some between read => cases broken
  | case4 wanted filled gathered state some byte more between read given enough => cases broken
  | case5 wanted filled gathered state some byte more between read given few ih =>
    exact ih ((raises.keeps _).ok held read) broken

theorem reader_raises : (reader raw).Raises (fun state => kept state.2) raised := by
  refine ⟨reader_keeps raises.keeps, ?_⟩
  rintro size fits ⟨front, state⟩ fault after held ended
  rw [read_fitting fits] at ended
  cases size with
  | none =>
    simp only [take] at ended
    cases drained : raw.drain none front.toArray state with
    | ok all between =>
      rw [drained] at ended
      cases ended
    | error cause between =>
      rw [drained] at ended
      cases ended
      exact (raises.drain fits front.toArray).sort _ _ _ held drained
  | some size =>
    have gathers := blocks_raises raises (fits_of_le fits (Nat.sub_le _ front.length)) front.toArray
    simp only [take] at ended
    split at ended
    · cases ended
    · cases passed : blocks raw (size - front.length) front.toArray state with
      | error cause between =>
        rw [passed] at ended
        cases ended
        exact gathers.sort _ _ _ held passed
      | ok value between =>
        rw [passed] at ended
        obtain ⟨gathered, _ | wanted⟩ := value
        · cases ended
        · exact top_raises raises wanted 0 gathered (gathers.keeps.ok held passed) ended

end Buffered

/-- **Unpacking passes on what comes from below**, and raises the faults of bad data itself. -/
theorem Unpacker.reader_raises {below : Reader σ} (raises : below.Raises kept raised)
    (corrupt : ∀ {fault}, Fault.Corrupt fault → raised fault) :
    (Unpacker.reader below).Raises (fun state => kept state.2) raised := by
  refine ⟨Unpacker.reader_keeps raises.keeps, ?_⟩
  rintro size fits ⟨⟨buffer, member, pushed⟩ | ⟨buffer, row⟩, state⟩ fault after held ended
  · obtain ⟨between, read⟩ := Ending.error_of_inside ended
    have raised := Buffered.reader_raises (Gzip.reader_raises raises corrupt)
    exact @raised.sort _ fits (buffer, member, pushed, state) _ _ held read
  · obtain ⟨between, read⟩ := Ending.error_of_inside ended
    have raised := Buffered.reader_raises (XzRow.reader_raises raises corrupt)
    exact @raised.sort _ fits (buffer, row, state) _ _ held read

/-! ## Streams -/

namespace Streams

variable {kept : Source → Prop} {closes : Nat}

/-- A stream that is open over a source with a property. -/
def Over (kept : Source → Prop) (closes : Nat) {count : Nat} (i : Fin (count + 1))
    (streams : Streams count) : Prop :=
  IsOpen closes i streams ∧ kept streams.source

theorem reader_keeps_over (keeps : Source.reader.Keeps kept) {count : Nat} (i : Fin (count + 1)) :
    (reader count i).Keeps (Over kept closes i) := by
  rintro size streams ⟨opened, held⟩
  exact ⟨opened.alike (reader_keeps streams i size streams (.refl streams)),
    reader_keeps_source keeps i size streams held⟩

theorem peek_keeps_over (keeps : Source.reader.Keeps kept) (size : Option Int) {count : Nat}
    (i : Fin (count + 1)) : Keeps (Over kept closes i) (peek size i) := by
  rintro streams ⟨opened, held⟩
  exact ⟨opened.alike (peek_keeps size streams i streams (.refl streams)),
    peek_keeps_source keeps size i streams held⟩

variable (raises : Source.reader.Raises kept raised)
  (corrupt : ∀ {fault}, Fault.Corrupt fault → raised fault)

include raises corrupt

/-- **Reading an open stream raises what its source raises**, and the faults of bad data. -/
theorem reader_raises {count : Nat} (i : Fin (count + 1)) :
    (reader count i).Raises (Over kept closes i) raised := by
  induction count with
  | zero =>
    refine ⟨reader_keeps_over raises.keeps i, ?_⟩
    rintro size fits ⟨source, front⟩ fault after ⟨opened, held⟩ ended
    obtain ⟨between, read⟩ := Ending.error_of_inside ended
    exact @(Lookahead.reader_raises raises).sort _ fits (front, source) _ _ ⟨opened.1, held⟩ read
  | succ count ih =>
    refine ⟨reader_keeps_over raises.keeps i, ?_⟩
    rintro size fits (_ | ⟨below, unpacker, front, older⟩) fault after ⟨opened, held⟩ ended
    rw [isOpen_atop] at opened
    rw [reader] at ended
    split at opened
    · rename_i old
      rw [dif_pos old] at ended
      obtain ⟨between, read⟩ := Ending.error_of_inside ended
      exact @(ih _).sort _ fits older _ _ ⟨opened, held⟩ read
    -- The newest stream looks ahead into an unpacker that reads the stream below.
    · rename_i newest
      rw [dif_neg newest] at ended
      obtain ⟨between, read⟩ := Ending.error_of_inside ended
      have raised := Lookahead.reader_raises (Unpacker.reader_raises (ih below) corrupt)
      exact @raised.sort _ fits (front, unpacker, older) _ _ ⟨opened.1, opened.2, held⟩ read

/-- So does looking at an open stream. -/
theorem peek_raises {size : Int} (fits : ¬ Excessive (some size.toNat)) {count : Nat}
    (i : Fin (count + 1)) :
    Raises (Over kept closes i) raised (peek (some size) i) where
  keeps := peek_keeps_over raises.keeps (some size) i
  sort := by
    induction count with
    | zero =>
      rintro ⟨source, front⟩ fault after ⟨opened, held⟩ ended
      obtain ⟨between, peeked⟩ := Ending.error_of_inside ended
      exact (Lookahead.peek_raises raises fits).sort (front, source) _ _ ⟨opened.1, held⟩ peeked
    | succ count ih =>
      rintro (_ | ⟨below, unpacker, front, older⟩) fault after ⟨opened, held⟩ ended
      rw [isOpen_atop] at opened
      simp only [peek] at ended
      split at opened
      · rename_i old
        rw [dif_pos old] at ended
        obtain ⟨between, peeked⟩ := Ending.error_of_inside ended
        exact ih _ older _ _ ⟨opened, held⟩ peeked
      · rename_i newest
        rw [dif_neg newest] at ended
        obtain ⟨between, peeked⟩ := Ending.error_of_inside ended
        have inner : (reader count below).Raises (Over kept closes below) raised :=
          reader_raises raises corrupt below
        exact (Lookahead.peek_raises (Unpacker.reader_raises inner corrupt) fits).sort
          (front, unpacker, older) _ _ ⟨opened.1, opened.2, held⟩ peeked

end Streams

end DiskStaging
