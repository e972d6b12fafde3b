import DiskStaging.Proofs.Serving
import DiskStaging.Proofs.WholeRuns
import DiskStaging.Stream.Xz

/-!
# Reading xz data serves their contents

Xz data that are there at once decode to the contents of their streams, one after the
other, if all of these are complete (`Decodes`). If the first one is not, they decode to
what is there of it, and are not complete. In both cases reading them gives what they
decode to, however they arrive and however they are asked for, and comes to an end only
where they are complete and whole (`XzRow.serves`).

Data may go on behind a complete stream with something that is no stream. If its first byte
already shows that, it is ignored. If not, how much of it is looked at depends on how it
arrives, and with it whether it is ignored or reported. But if nothing is reported, what was
read is what the streams in front of it decode to (`XzRow.continues`), and there is only one
such content (`XzRow.Yields.unique`).
-/

set_option autoImplicit false

namespace DiskStaging.XzRow

open Coding

/-! ## Contents -/

/-- The fresh decoder of a stream. -/
def fresh : Pending Lzma.Fault Lzma.AnyFormat := .of .start

/-- A stream that was decoded as far as the data go. -/
abbrev Stream := Finished Lzma.Fault Lzma.AnyFormat

/-- No stream begins with that byte. -/
def Refused (byte : UInt8) : Prop :=
  ∃ why, Lzma.AnyFormat.move (.ofFirst byte) = .fail why

/-- Data are a row of complete streams, which decode to some content. If the data are whole,
there may be something behind the streams whose first byte shows that it is no stream. -/
inductive Decodes (whole : Bool) : Bytes → Bytes → Prop
  | nothing : Decodes whole [] []
  | refused {byte : UInt8} {rest : Bytes} (all : whole = true) (other : Refused byte) :
    Decodes whole (byte :: rest) []
  | stream {bytes more : Bytes} (stopped : (finish fresh bytes).machine.stopped = true)
    (rest : Decodes whole (finish fresh bytes).rest more) :
    Decodes whole bytes ((finish fresh bytes).written ++ more)

/-- What a stream decodes to, together with the complete streams behind it if it is
complete as well. -/
inductive Ends (whole : Bool) (stream : Stream) : Bytes → Bool → Prop
  | cut (going : stream.machine.stopped = false) : Ends whole stream stream.written false
  | whole {more : Bytes} (stopped : stream.machine.stopped = true)
    (rest : Decodes whole stream.rest more) : Ends whole stream (stream.written ++ more) true

/-- What a stream and those behind it yield. What comes behind the last one is no stream, and
is ignored. -/
inductive Yields : Stream → Bytes → Prop
  | last {stream : Stream} (stopped : stream.machine.stopped = true) (nothing : stream.rest = []) :
    Yields stream stream.written
  | ignored {stream : Stream} {why : Lzma.Fault} (stopped : stream.machine.stopped = true)
    (other : (finish fresh stream.rest).machine.fault? = some why) :
    Yields stream stream.written
  | next {stream : Stream} {more : Bytes} (stopped : stream.machine.stopped = true)
    (rest : Yields (finish fresh stream.rest) more) : Yields stream (stream.written ++ more)

variable {content : Bytes} {whole complete : Bool}

/-- There is no stream where there is nothing. -/
theorem going_nil : (finish fresh []).machine.stopped = false := by
  rw [fresh, finish_of]
  rfl

theorem Decodes.eq_nil (decodes : Decodes whole [] content) : content = [] := by
  cases decodes with
  | nothing => rfl
  | stream stopped => cases going_nil.symm.trans stopped

/-- What begins with such a byte is found to be no stream, however much of it there is. -/
theorem decode_refused {byte : UInt8} (other : Refused byte) (more : Bytes) (room : Nat) :
    ∃ next why, decode (.fresh .start) (byte :: more) room = ⟨next, [], some why⟩ := by
  obtain ⟨why, refused⟩ := other
  have begun : run (Pending.of Lzma.AnyFormat.start) (byte :: more) room #[] =
      run (.of (.ofFirst byte)) more room #[] := by
    rw [run.eq_def]
    rfl
  have failed : (run (Pending.of Lzma.AnyFormat.start) (byte :: more) room #[]).halt =
      .failed why := by
    rw [begun, run.eq_def]
    have moves : (Pending.of (Lzma.AnyFormat.ofFirst byte)).next = .fail why := refused
    generalize Pending.of (Lzma.AnyFormat.ofFirst byte) = machine at moves
    obtain ⟨paid, next, sound⟩ := machine
    cases moves
    rfl
  rw [decode, Fed.fresh, Fed.decode, List.nil_append]
  generalize run (Pending.of Lzma.AnyFormat.start) (byte :: more) room #[] = ran at failed
  rw [Fed.ofRun, failed]
  exact ⟨_, why, rfl⟩

/-- What was put before comes first. -/
theorem Ends.given {stream : Stream} {given : Bytes}
    (ends : Ends whole (stream.behind given) content complete) :
    ∃ rest, content = given ++ rest ∧ Ends whole stream rest complete := by
  cases ends with
  | cut going => exact ⟨stream.written, rfl, .cut going⟩
  | whole stopped rest => exact ⟨_, List.append_assoc .., .whole stopped rest⟩

theorem Ends.incomplete {stream : Stream} (ends : Ends whole stream content complete)
    (going : stream.machine.stopped = false) : complete = false := by
  cases ends with
  | cut => rfl
  | whole stopped => cases going.symm.trans stopped

theorem Yields.stopped {stream : Stream} (yields : Yields stream content) :
    stream.machine.stopped = true := by
  cases yields <;> assumption

/-- What was put before comes first. -/
theorem Yields.behind {stream : Stream} (yields : Yields stream content) (given : Bytes) :
    Yields (stream.behind given) (given ++ content) := by
  cases yields with
  | last stopped nothing => exact .last stopped nothing
  | ignored stopped other => exact .ignored stopped other
  | next stopped rest =>
    rw [← List.append_assoc]
    exact .next stopped rest

/-- **A stream yields one content only.** -/
theorem Yields.unique {stream : Stream} {first second : Bytes} (yields : Yields stream first)
    (other : Yields stream second) : first = second := by
  induction yields generalizing second with
  | last stopped nothing =>
    cases other with
    | last | ignored => rfl
    | next _ rest =>
      rw [nothing] at rest
      cases going_nil.symm.trans rest.stopped
  | ignored stopped broken =>
    cases other with
    | last | ignored => rfl
    | next _ rest => cases (Pending.going_of_fault broken).symm.trans rest.stopped
  | next stopped rest ih =>
    cases other with
    | last _ nothing =>
      rw [nothing] at rest
      cases going_nil.symm.trans rest.stopped
    | ignored _ broken => cases (Pending.going_of_fault broken).symm.trans rest.stopped
    | next _ more => rw [ih more]

/-! ## Decoding -/

/-- A decoder that is hungry holds no input, and cannot come to its end without any. -/
def Idle (decoder : XzDecoder) : Prop :=
  decoder.hungry = true → decoder.held = [] ∧
    (decoder.machine.stopped = false → (finish decoder.machine []).machine.stopped = false)

theorem idle_fresh : Idle (.fresh .start) := fun _ => ⟨rfl, fun _ => going_nil⟩

/-- Decoding a block of data that go on with more gives the next of what all of them decode
to, or finds the data broken. -/
theorem finish_decode (decoder : XzDecoder) (block : Bytes) (room : Nat) (more : Bytes) :
    match decode decoder block room with
    | ⟨_, _, some _⟩ => ∃ why,
        (finish decoder.machine (decoder.held ++ block ++ more)).machine.fault? = some why
    | ⟨next, given, none⟩ =>
      given.length ≤ room ∧ Idle next ∧
        finish decoder.machine (decoder.held ++ block ++ more) =
          (finish next.machine (next.held ++ more)).behind given := by
  obtain ⟨machine, held, hungry⟩ := decoder
  obtain ⟨given, written, same⟩ := finish_run machine (held ++ block) more room #[]
  have fits := size_run_le machine (held ++ block) room #[]
  have failed (why : Lzma.Fault)
      (fault : (run machine (held ++ block) room #[]).halt.fault? = some why) :=
    fault?_run fault
  have starved := @finish_starved _ _ _ machine (held ++ block) room #[]
  dsimp only
  rw [same, decode, Fed.decode]
  generalize run machine (held ++ block) room #[] = ran at *
  obtain ⟨output, rest, after, halt⟩ := ran
  simp only [List.nil_append] at written
  subst written
  unfold Fed.ofRun
  dsimp only at *
  cases fault : halt.fault? with
  | some why =>
    refine ⟨why, ?_⟩
    rw [finish_broken (failed why fault)]
    exact failed why fault
  | none =>
    refine ⟨by simpa using fits, ?_, rfl⟩
    intro hungry
    simp only [Bool.and_eq_true, decide_eq_true_eq, List.isEmpty_iff] at hungry
    exact ⟨hungry.1, starved (by simpa using hungry.2) fault⟩

/-- What comes of decoding a block of data that go on with more: the next of the content,
or a fault, which keeps the stream from being complete. -/
def Goes (whole : Bool) (room : Nat) (more content : Bytes) (complete : Bool) :
    Fed.Decoded Lzma.Fault Lzma.AnyFormat → Prop
  | ⟨_, _, some _⟩ => complete = false
  | ⟨next, given, none⟩ =>
    given.length ≤ room ∧ Idle next ∧ ∃ rest, content = given ++ rest ∧
      Ends whole (finish next.machine (next.held ++ more)) rest complete

/-- **Decoding a block gives the next of the content.** -/
theorem decode_goes (decoder : XzDecoder) (block : Bytes) (room : Nat) {more : Bytes}
    (ends : Ends whole (finish decoder.machine (decoder.held ++ block ++ more)) content complete) :
    Goes whole room more content complete (decode decoder block room) := by
  have all := finish_decode decoder block room more
  generalize decode decoder block room = decoded at all
  obtain ⟨next, given, fault⟩ := decoded
  cases fault with
  | some why =>
    obtain ⟨why, broken⟩ := all
    exact ends.incomplete (Pending.going_of_fault broken)
  | none =>
    obtain ⟨fits, idle, same⟩ := all
    rw [same] at ends
    exact ⟨fits, idle, ends.given⟩

/-! ## Reading -/

section Turns

variable {σ : Type} {below : Reader σ} {behind : σ → Bytes → Prop}

/-- The state of reading xz data holds what these decode to from there on. -/
def Holds (behind : σ → Bytes → Prop) (whole complete : Bool) : XzRow × σ → Bytes → Prop :=
  fun (row, state) content => ∃ bytes done, behind state bytes ∧ complete = (done && whole) ∧
    if row.finished then content = [] ∧ complete = true
    else Idle row.decoder ∧
      Ends whole (finish row.decoder.machine (row.decoder.held ++ bytes)) content done

/-- What was decoded comes next, or nothing does yet. -/
theorem turned_give {room : Nat} {size : Option Nat} (limit : ∀ most ∈ size, room ≤ most)
    {given rest : Bytes} {row : XzRow} {state : σ} (fits : given.length ≤ room)
    (held : Holds behind whole complete (row, state) rest) :
    Ending.Turned (Holds behind whole complete) complete size (given ++ rest)
      (.ok (give given) (row, state)) := by
  cases given with
  | nil => exact held
  | cons byte more =>
    refine ⟨?_, fun none => absurd none (List.cons_ne_nil _ _), rest, rfl, held⟩
    intro most asked
    exact Nat.le_trans fits (limit most asked)

/-- The first block of a complete stream is decoded. -/
theorem firstBlock_turned (decoder : XzDecoder) {block bytes : Bytes} {room : Nat}
    {size : Option Nat} (limit : ∀ most ∈ size, room ≤ most) {state : σ}
    (held : behind state bytes) (all : complete = (true && whole))
    (ends : Ends whole (finish decoder.machine (decoder.held ++ block ++ bytes)) content true) :
    Ending.Turned (Holds behind whole complete) complete size content
      (firstBlock decoder block room state) := by
  have goes := decode_goes decoder block room ends
  unfold firstBlock
  generalize decode decoder block room = decoded at goes
  obtain ⟨next, given, fault⟩ := decoded
  cases fault with
  | some why => cases goes
  | none =>
    obtain ⟨fits, idle, rest, rfl, later⟩ := goes
    exact turned_give limit fits ⟨bytes, true, held, all, idle, later⟩

/-- A block to begin a stream with is the front of what there is, and is empty only at the
end of the whole data. -/
theorem given_of_nextInput (serves : below.Serves behind whole) {input bytes block : Bytes}
    {state after : σ} (held : behind state bytes)
    (read : nextInput below input state = .ok block after) :
    ∃ more, input ++ bytes = block ++ more ∧ behind after more ∧
      (block = [] → more = [] ∧ whole = true) := by
  unfold nextInput at read
  split at read
  · rename_i empty
    rw [List.isEmpty_iff.mp empty, List.nil_append]
    obtain ⟨more, split, kept⟩ := serves.given_append held read
    refine ⟨more, split, kept, ?_⟩
    rintro rfl
    obtain ⟨none, complete, -⟩ := serves.end_of_nil held (by decide) read
    exact ⟨split.symm.trans none, complete⟩
  · rename_i some
    cases read
    refine ⟨bytes, rfl, held, ?_⟩
    intro none
    exact absurd (List.isEmpty_iff.mpr none) some

theorem cut_of_nextInput (serves : below.Serves behind whole) {input bytes : Bytes}
    {state after : σ} {fault : Fault} (held : behind state bytes)
    (read : nextInput below input state = .error fault after) : whole = false := by
  unfold nextInput at read
  split at read
  · exact serves.broken held read
  · cases read

/-- A block to go on with is the front of what there is. -/
theorem given_of_moreInput (serves : below.Serves behind whole) {hungry : Bool}
    {bytes block : Bytes} {state after : σ} (held : behind state bytes)
    (read : moreInput below hungry state = .ok block after) :
    ∃ more, bytes = block ++ more ∧ behind after more := by
  unfold moreInput at read
  split at read
  · split at read
    · cases read
    · exact serves.given_append held read
  · cases read
    exact ⟨bytes, rfl, held⟩

/-- There is none only if a hungry decoder gets no more, or the data are cut. -/
theorem ended_of_moreInput (serves : below.Serves behind whole) {hungry : Bool} {bytes : Bytes}
    {state after : σ} {fault : Fault} (held : behind state bytes)
    (read : moreInput below hungry state = .error fault after) :
    hungry = true ∧ bytes = [] ∨ whole = false := by
  unfold moreInput at read
  split at read
  · rename_i hungry
    split at read
    · rename_i none
      exact .inl ⟨hungry, (serves.end_of_nil held (by decide) none).1⟩
    · exact .inr (serves.broken held read)
  · cases read

/-- What is found to be no stream at once ends the row. -/
theorem firstBlock_ended {decoder next : XzDecoder} {block bytes : Bytes} {room : Nat}
    {size : Option Nat} {why : Lzma.Fault} {state : σ}
    (decoded : decode decoder block room = ⟨next, [], some why⟩) (held : behind state bytes)
    (all : complete = (true && whole)) (seen : whole = true) :
    Ending.Turned (Holds behind whole complete) complete size []
      (firstBlock decoder block room state) := by
  have ended : complete = true := by rw [all, seen]; rfl
  simp only [firstBlock, decoded]
  exact ⟨fun _ _ => Nat.zero_le _, fun _ _ => ⟨rfl, ended⟩, [], rfl, bytes, true, held, all, rfl,
    ended⟩

/-- Behind a complete stream there is another one, or the row is over. -/
theorem nextStream_turned (serves : below.Serves behind whole) {room : Nat} {size : Option Nat}
    (limit : ∀ most ∈ size, room ≤ most) {row : XzRow} {state : σ} {bytes : Bytes}
    (held : behind state bytes) (all : complete = (true && whole))
    (rest : Decodes whole (row.decoder.held ++ bytes) content) :
    Ending.Turned (Holds behind whole complete) complete size content
      (nextStream below room (row, state)) := by
  simp only [nextStream]
  cases read : nextInput below row.decoder.held state with
  | error fault after =>
    change complete = false
    rw [all, cut_of_nextInput serves held read]
    rfl
  | ok block after =>
    obtain ⟨more, split, kept, last⟩ := given_of_nextInput serves held read
    rw [split] at rest
    cases block with
    | nil =>
      obtain ⟨rfl, rfl⟩ := last rfl
      obtain rfl := rest.eq_nil
      exact ⟨fun _ _ => Nat.zero_le _, fun _ _ => ⟨rfl, all⟩, [], rfl, [], true, kept, all,
        rfl, all⟩
    | cons byte others =>
      cases rest with
      | stream stopped rest =>
        exact firstBlock_turned (.fresh .start) limit kept all (.whole stopped rest)
      | refused seen other =>
        obtain ⟨next, why, decoded⟩ := decode_refused other others room
        exact firstBlock_ended decoded kept all seen

/-- A stream that goes on gives the next of its content, or leaves it all to be given. -/
theorem sameStream_turned (serves : below.Serves behind whole) {room : Nat} {size : Option Nat}
    (limit : ∀ most ∈ size, room ≤ most) (decoder : XzDecoder) {state : σ} {bytes : Bytes}
    {done : Bool} (held : behind state bytes) (all : complete = (done && whole))
    (idle : Idle decoder) (going : decoder.machine.stopped = false)
    (ends : Ends whole (finish decoder.machine (decoder.held ++ bytes)) content done) :
    Ending.Turned (Holds behind whole complete) complete size content
      (sameStream below room (⟨decoder, false⟩, state)) := by
  simp only [sameStream]
  cases read : moreInput below decoder.hungry state with
  | error fault after =>
    change complete = false
    rw [all]
    rcases ended_of_moreInput serves held read with ⟨hungry, rfl⟩ | cut
    · obtain ⟨empty, starved⟩ := idle hungry
      rw [empty] at ends
      rw [ends.incomplete (starved going), Bool.false_and]
    · rw [cut, Bool.and_false]
  | ok block after =>
    obtain ⟨more, rfl, kept⟩ := given_of_moreInput serves held read
    rw [← List.append_assoc] at ends
    have goes := decode_goes decoder block room ends
    dsimp only
    generalize decode decoder block room = decoded at goes
    obtain ⟨next, given, fault⟩ := decoded
    cases fault with
    | some why =>
      change complete = false
      rw [all, show done = false from goes, Bool.false_and]
    | none =>
      obtain ⟨fits, idle, rest, rfl, later⟩ := goes
      exact turned_give limit fits ⟨more, done, kept, all, idle, later⟩

/-- A turn gives the next of the content, or leaves it all to be given. -/
theorem turn_turned (serves : below.Serves behind whole) {room : Nat} {size : Option Nat}
    (limit : ∀ most ∈ size, room ≤ most) {state : XzRow × σ}
    (held : Holds behind whole complete state content) :
    Ending.Turned (Holds behind whole complete) complete size content (turn below room state) := by
  obtain ⟨⟨decoder, finished⟩, state⟩ := state
  obtain ⟨bytes, done, kept, all, rest⟩ := held
  simp only [turn]
  cases finished with
  | true =>
    obtain ⟨rfl, ended⟩ := rest
    exact ⟨fun _ _ => Nat.zero_le _, fun _ _ => ⟨rfl, ended⟩, [], rfl, bytes, done, kept, all,
      rfl, ended⟩
  | false =>
    obtain ⟨idle, ends⟩ := rest
    cases stopped : decoder.machine.stopped with
    | true =>
      rw [finish_stopped stopped] at ends
      cases ends with
      | cut going => cases stopped.symm.trans going
      | whole _ rest => exact nextStream_turned serves limit kept all rest
    | false => exact sameStream_turned serves limit decoder kept all idle stopped ends

end Turns

/-- **Reading xz data gives what they decode to, however the data arrive.** -/
theorem serves {σ : Type} {below : Reader σ} {behind : σ → Bytes → Prop}
    (serves : below.Serves behind whole) (complete : Bool) :
    (reader below).Serves (Holds behind whole complete) complete := by
  intro size state content held
  simp only [reader, read]
  split
  · rename_i space
    refine untilGiven_served (turn_thrifty below space) (fun state content held => ?_) held
    refine turn_turned serves ?_ held
    rintro most rfl
    exact Nat.le_refl _
  · rename_i nothing
    cases size with
    | none => exact absurd (by decide) nothing
    | some most =>
      obtain rfl : most = 0 := Nat.eq_zero_of_not_pos nothing
      exact served_nothing held

/-! ## Reading with something behind -/

section Continuing

variable {σ : Type} {below : Reader σ} {behind : σ → Bytes → Prop} {whole : Bool} {cut : Bytes}
  {target : Bytes → Prop}

/-- States of reading xz data of which the end may be cut off: with what the data yield from
there on, what was given before makes up what is to be reached. -/
def Past (behind : σ → Bytes → Prop) (cut : Bytes) (target : Bytes → Prop) :
    XzRow × σ → Bytes → Prop := fun (row, state) given =>
  ∃ bytes, behind state bytes ∧
    if row.finished then target given
    else ∀ more, Yields (finish row.decoder.machine (row.decoder.held ++ (bytes ++ cut))) more →
      target (given ++ more)

/-- The ending of a turn that reaches the end of the data, goes on or breaks off. -/
abbrev Advanced (behind : σ → Bytes → Prop) (cut : Bytes) (target : Bytes → Prop)
    (size : Option Nat) (given : Bytes) : Ending (XzRow × σ) (Option Bytes) → Prop :=
  Ending.Taken (Past behind cut target · given)
    (Ending.Continued (Past behind cut target) target True size given)

theorem advanced_end {size : Option Nat} {given bytes : Bytes} {row : XzRow} {state : σ}
    (held : behind state bytes) (done : row.finished = true) (reached : target given) :
    Advanced behind cut target size given (.ok (some []) (row, state)) := by
  refine ⟨fun _ _ => Nat.zero_le _, fun _ _ => reached, bytes, held, ?_⟩
  rwa [if_pos done, List.append_nil]

/-- What a block decodes to goes on from what was given before. -/
theorem advanced_decode {room : Nat} {size : Option Nat} (limit : ∀ most ∈ size, room ≤ most)
    (decoder next : XzDecoder) {block bytes given more : Bytes} {state : σ}
    (held : behind state bytes)
    (yields : ∀ more,
      Yields (finish decoder.machine (decoder.held ++ block ++ (bytes ++ cut))) more →
        target (given ++ more))
    (decoded : decode decoder block room = ⟨next, more, none⟩) :
    Advanced behind cut target size given (.ok (give more) (⟨next, false⟩, state)) := by
  have all := finish_decode decoder block room (bytes ++ cut)
  rw [decoded] at all
  obtain ⟨fits, -, same⟩ := all
  have kept : Past behind cut target (⟨next, false⟩, state) (given ++ more) := by
    refine ⟨bytes, held, ?_⟩
    rw [if_neg Bool.false_ne_true]
    intro rest later
    rw [List.append_assoc]
    refine yields _ ?_
    rw [same]
    exact later.behind more
  cases more with
  | nil => rwa [List.append_nil] at kept
  | cons byte others =>
    refine ⟨?_, fun none => absurd none (List.cons_ne_nil _ _), kept⟩
    intro most asked
    exact Nat.le_trans fits (limit most asked)

/-- The first block behind a complete stream is decoded, or is no stream. -/
theorem firstBlock_advanced (decoder : XzDecoder) {room : Nat} {size : Option Nat}
    (limit : ∀ most ∈ size, room ≤ most) {block bytes given : Bytes} {state : σ}
    (held : behind state bytes)
    (yields : ∀ more,
      Yields (finish decoder.machine (decoder.held ++ block ++ (bytes ++ cut))) more →
        target (given ++ more))
    (ignored : ∀ why,
      (finish decoder.machine (decoder.held ++ block ++ (bytes ++ cut))).machine.fault? = some why →
        target given) :
    Advanced behind cut target size given (firstBlock decoder block room state) := by
  unfold firstBlock
  rcases decoded : decode decoder block room with ⟨next, content, _ | why⟩
  · exact advanced_decode limit decoder next held yields decoded
  · have all := finish_decode decoder block room (bytes ++ cut)
    rw [decoded] at all
    obtain ⟨why, other⟩ := all
    exact advanced_end held rfl (ignored why other)

/-- Behind a complete stream there is another one, or the row is over. -/
theorem nextStream_advanced (serves : below.Serves behind whole) (last : whole = true → cut = [])
    {room : Nat} {size : Option Nat} (limit : ∀ most ∈ size, room ≤ most) {row : XzRow} {state : σ}
    {given bytes : Bytes} (held : behind state bytes)
    (stopped : row.decoder.machine.stopped = true)
    (yields : ∀ more, Yields ⟨[], row.decoder.held ++ (bytes ++ cut), row.decoder.machine⟩ more →
      target (given ++ more)) :
    Advanced behind cut target size given (nextStream below room (row, state)) := by
  simp only [nextStream]
  cases read : nextInput below row.decoder.held state with
  | error fault after => trivial
  | ok block after =>
    obtain ⟨more, split, kept, ended⟩ := given_of_nextInput serves held read
    rw [← List.append_assoc, split, List.append_assoc] at yields
    cases block with
    | nil =>
      obtain ⟨rfl, all⟩ := ended rfl
      obtain rfl := last all
      refine advanced_end kept rfl ?_
      simpa using yields _ (.last stopped rfl)
    | cons byte others =>
      refine firstBlock_advanced (.fresh .start) limit kept ?_ ?_
      · intro content later
        exact yields _ (.next stopped later)
      · intro why other
        simpa using yields _ (.ignored stopped other)

/-- A turn reaches the end of the data, goes on or breaks off. -/
theorem turn_advanced (serves : below.Serves behind whole) (last : whole = true → cut = [])
    {room : Nat} {size : Option Nat} (limit : ∀ most ∈ size, room ≤ most) {state : XzRow × σ}
    {given : Bytes} (held : Past behind cut target state given) :
    Advanced behind cut target size given (turn below room state) := by
  obtain ⟨⟨decoder, finished⟩, state⟩ := state
  obtain ⟨bytes, held, rest⟩ := held
  simp only [turn]
  cases finished with
  | true => exact advanced_end held rfl rest
  | false =>
    replace rest : ∀ more, Yields (finish decoder.machine (decoder.held ++ (bytes ++ cut))) more →
      target (given ++ more) := rest
    simp only [Bool.false_eq_true, if_false]
    cases stopped : decoder.machine.stopped with
    | true =>
      rw [finish_stopped stopped] at rest
      exact nextStream_advanced serves last limit held stopped rest
    | false =>
      simp only [Bool.false_eq_true, if_false, sameStream]
      cases read : moreInput below decoder.hungry state with
      | error fault after => trivial
      | ok block after =>
        obtain ⟨more, rfl, kept⟩ := given_of_moreInput serves held read
        rw [List.append_assoc, ← List.append_assoc] at rest
        dsimp only
        rcases decoded : decode decoder block room with ⟨next, content, _ | why⟩
        · exact advanced_decode limit decoder next kept rest decoded
        · trivial

/-- **Reading xz data gives what they yield, or breaks off**, however the data arrive and
whatever comes behind the last stream. -/
theorem continues (serves : below.Serves behind whole) (last : whole = true → cut = []) :
    (reader below).Continues (Past behind cut target) target fun _ => True := by
  intro size state given held
  simp only [reader, read]
  split
  · rename_i space
    have limit : ∀ most ∈ size, size.getD largestCount ≤ most := by
      rintro most rfl
      exact Nat.le_refl _
    exact @untilGiven_taken _ (Past behind cut target · given)
      (Ending.Continued (Past behind cut target) target True size given) _ _
      (turn_thrifty below space) (fun _ held => turn_advanced serves last limit held) _ held
  · rename_i nothing
    cases size with
    | none => exact absurd (by decide) nothing
    | some most =>
      obtain rfl : most = 0 := Nat.eq_zero_of_not_pos nothing
      exact continued_nothing held

end Continuing

end DiskStaging.XzRow
