import DiskStaging.Proofs.Serving
import DiskStaging.Stream.Lookahead

/-!
# No byte is lost by looking ahead

Whoever looks at a source and reads it through a lookahead may do so in any order.
Calls may fail midway, and the source may be closed at any time. Whatever was called,
each byte of the data was delivered, is kept by the lookahead or is still to come, and
they stand in this order (`Conserves`). A call moves bytes from the source into the
lookahead and from there to its caller, and nowhere else (`StreamCall.perform_moved`), so
every call keeps this up (`Conserves.after`).

From this follows what calls can give in any state that is reached
(`Watched.conserved`): what is shown comes next and stays, and what was shown is given
even if the source is broken by then.
-/

set_option autoImplicit false

namespace DiskStaging

/-! ## Single reads of a source -/

namespace Source

/-- A source gave some bytes off its front, and did nothing else to its data. -/
structure Passed (before : Source) (given : Bytes) (after : Source) : Prop where
  rest : before.rest = given ++ after.rest
  position : after.position = before.position + given.length
  most : after.most = before.most

theorem Passed.trans {first second third : Source} {given more : Bytes}
    (passed : first.Passed given second) (further : second.Passed more third) :
    first.Passed (given ++ more) third := by
  refine ⟨?_, ?_, further.most.trans passed.most⟩
  · rw [passed.rest, further.rest, List.append_assoc]
  · rw [further.position, passed.position, List.length_append, Nat.add_assoc]

variable {source after : Source} {size : Option Nat} {given : Bytes} {fault : Fault}

/-- A read that succeeds gives a piece off the front. -/
theorem passed_of_read (read : Source.read size source = .ok given after) :
    source.fault? = none ∧ given = source.piece size ∧ source.Passed given after := by
  cases broken : source.fault? with
  | some fault =>
    simp only [Source.read, broken] at read
    cases read
  | none =>
    simp only [Source.read, broken] at read
    cases read
    have first : source.piece size <+: source.rest :=
      (prefix_atMost ..).trans ((prefix_atMost ..).trans (prefix_atMost ..))
    exact ⟨rfl, rfl, (List.prefix_iff_eq_append.mp first).symm, rfl, rfl⟩

/-- A read that fails gives nothing. -/
theorem passed_of_read_error (read : Source.read size source = .error fault after) :
    source.Passed [] after := by
  cases broken : source.fault? with
  | some fault =>
    simp only [Source.read, broken] at read
    cases read
    exact ⟨rfl, rfl, rfl⟩
  | none =>
    simp only [Source.read, broken] at read
    cases read

/-- A read gives at most as many bytes as were asked for. -/
theorem length_le_of_read {limit : Nat} (read : Source.read (some limit) source = .ok given after) :
    given.length ≤ limit := by
  rw [(passed_of_read read).2.1]
  exact length_atMost_le_limit _

/-- Only a source that has nothing left gives nothing. -/
theorem rest_eq_nil_of_read (pieces : source.most ≠ some 0) (asked : size ≠ some 0)
    (read : Source.read size source = .ok [] after) : source.rest = [] := by
  obtain ⟨going, nothing, -⟩ := passed_of_read read
  have further : source.failure.map (·.position - source.position) ≠ some 0 := by
    intro reached
    obtain ⟨failure, ahead, none⟩ := Option.map_eq_some_iff.mp reached
    have past : failure.position ≤ source.position := Nat.le_of_sub_eq_zero none
    simp only [fault?, ahead, Option.bind_some, if_pos past] at going
    split at going <;> cases going
  apply eq_nil_of_atMost_eq_nil further
  apply eq_nil_of_atMost_eq_nil pieces
  exact eq_nil_of_atMost_eq_nil asked nothing.symm

end Source

/-! ## Bytes on the move -/

namespace Lookahead

/-- Bytes moved from a source through a lookahead: some were given, and of the others the
lookahead keeps no more than it had or was to show. -/
structure Moved (given : Bytes) (shown : Nat) (before after : Lookahead × Source) : Prop where
  closed : after.1.closed = before.1.closed
  bytes : ∃ more, before.2.Passed more after.2 ∧
    before.1.peeked ++ more = given ++ after.1.peeked
  kept : after.1.peeked.length ≤ max shown before.1.peeked.length

variable {front : Lookahead} {source : Source}

theorem Moved.refl (shown : Nat) (state : Lookahead × Source) : Moved [] shown state state :=
  ⟨rfl, ⟨[], ⟨rfl, rfl, rfl⟩, List.append_nil _⟩, Nat.le_max_right ..⟩

/-- A read that fails moves nothing. -/
theorem moved_of_read_error {after : Source} {size : Option Nat} {fault : Fault}
    (read : Source.read size source = .error fault after) (shown : Nat) :
    Moved [] shown (front, source) (front, after) :=
  ⟨rfl, ⟨[], Source.passed_of_read_error read, List.append_nil _⟩, Nat.le_max_right ..⟩

/-- Filling a lookahead gives nothing away, even if it fails midway. -/
theorem fill_moved (size : Nat) (front : Lookahead) (source : Source) :
    Moved [] size (front, source) (Ending.state (fill Source.reader size front source)) := by
  fun_induction fill Source.reader size front source with
  | case1 front source short fault after read => exact moved_of_read_error read size
  | case2 front source short after read =>
    obtain ⟨-, -, passed⟩ := Source.passed_of_read read
    exact ⟨rfl, ⟨[], passed, List.append_nil _⟩, Nat.le_max_right ..⟩
  | case3 front source short byte more after read ih =>
    obtain ⟨-, -, passed⟩ := Source.passed_of_read read
    have within := Source.length_le_of_read read
    obtain ⟨closed, ⟨last, further, bytes⟩, kept⟩ := ih
    refine ⟨closed, ⟨byte :: more ++ last, passed.trans further, ?_⟩, ?_⟩
    · rw [← List.append_assoc]
      exact bytes
    · simp only [List.length_append] at kept
      dsimp only
      omega
  | case4 front source enough => exact .refl size _

/-- A lookahead that was filled keeps as much as was wanted, or all that is left. -/
theorem rest_of_fill {size : Nat} {after : Lookahead × Source} (pieces : source.most ≠ some 0)
    (filled : fill Source.reader size front source = .ok () after) :
    size ≤ after.1.peeked.length ∨ after.2.rest = [] := by
  fun_induction fill Source.reader size front source with
  | case1 => cases filled
  | case2 front source short after read =>
    cases filled
    obtain ⟨-, -, passed⟩ := Source.passed_of_read read
    have asked : some (size - front.peeked.length) ≠ some 0 := by
      intro none
      have zero := Option.some.inj none
      omega
    refine .inr ?_
    rw [← List.nil_append after.rest, ← passed.rest]
    exact Source.rest_eq_nil_of_read pieces asked read
  | case3 front source short byte more after read ih =>
    obtain ⟨-, -, passed⟩ := Source.passed_of_read read
    apply ih _ filled
    rw [passed.most]
    exact pieces
  | case4 front source enough =>
    cases filled
    exact .inl (Nat.le_of_not_lt enough)

end Lookahead

/-! ## Calls -/

/-- What can be called on a lookahead in front of a source. -/
inductive StreamCall where
  | peek (size : Option Int)
  | read (size : Option Int)
  /-- Somebody else closes the source. -/
  | closeSource
  deriving DecidableEq, Repr

namespace StreamCall

/-- Makes a call. Closing gives nothing. -/
def perform : StreamCall → Act (Lookahead × Source) Bytes
  | .peek size => Lookahead.peek Source.reader size
  | .read size => Lookahead.read Source.reader (sizeAsked size)
  | .closeSource => fun (front, source) =>
    Ending.inside (fun source => (front, source)) (((fun () => []) <$> Source.close) source)

/-- What a call takes out of the lookahead: the bytes that a read gives. -/
def delivers : StreamCall → Ending (Lookahead × Source) Bytes → Bytes
  | .read _, .ok given _ => given
  | _, _ => []

/-- How many bytes a call asks to be shown. -/
def wants : StreamCall → Nat
  | .peek (some size) => size.toNat
  | _ => 0

theorem peek_moved (size : Option Int) (state : Lookahead × Source) :
    Lookahead.Moved [] (wants (.peek size)) state
      (Ending.state (Lookahead.peek Source.reader size state)) := by
  obtain ⟨front, source⟩ := state
  by_cases shut : front.closed = true
  · simp only [Lookahead.peek, if_pos shut]
    exact .refl _ _
  · cases size with
    | none =>
      simp only [Lookahead.peek, if_neg shut]
      exact .refl _ _
    | some size =>
      have moved := Lookahead.fill_moved size.toNat front source
      simp only [Lookahead.peek, if_neg shut]
      cases filled : Lookahead.fill Source.reader size.toNat front source with
      | error fault after =>
        rw [filled] at moved
        exact moved
      | ok value after =>
        rw [filled] at moved
        exact moved

theorem read_moved (size : Option Int) (state : Lookahead × Source) :
    Lookahead.Moved (delivers (.read size) (perform (.read size) state)) 0 state
      (Ending.state (perform (.read size) state)) := by
  obtain ⟨front, source⟩ := state
  by_cases shut : front.closed = true
  · simp only [perform, Lookahead.read, if_pos shut]
    exact .refl _ _
  · simp only [perform, Lookahead.read, if_neg shut]
    split
    · rename_i limit byte more asked peeked
      refine ⟨rfl, ⟨[], ⟨rfl, rfl, rfl⟩, ?_⟩, ?_⟩
      · rw [List.append_nil, peeked]
        exact (List.take_append_drop ..).symm
      · dsimp only [Ending.state]
        rw [peeked, List.length_drop]
        omega
    · cases read : Source.reader.read (sizeAsked size) source with
      | error fault after => exact Lookahead.moved_of_read_error read 0
      | ok given after =>
        obtain ⟨-, -, passed⟩ := Source.passed_of_read read
        exact ⟨rfl, ⟨given, passed, (List.append_nil _).symm⟩, Nat.zero_le _⟩

/-- **A call moves bytes from the source into the lookahead and from there to its caller,
and nowhere else.** -/
theorem perform_moved (call : StreamCall) (state : Lookahead × Source) :
    Lookahead.Moved (call.delivers (call.perform state)) call.wants state
      (Ending.state (call.perform state)) := by
  cases call with
  | peek size => exact peek_moved size state
  | read size => exact read_moved size state
  | closeSource =>
    obtain ⟨front, source⟩ := state
    simp only [perform, Functor.map, EStateM.map, Source.close]
    cases source.closeFault with
    | none => exact ⟨rfl, ⟨[], ⟨rfl, rfl, rfl⟩, List.append_nil _⟩, Nat.le_max_right ..⟩
    | some fault => exact ⟨rfl, ⟨[], ⟨rfl, rfl, rfl⟩, List.append_nil _⟩, Nat.le_max_right ..⟩

end StreamCall

/-! ## Runs of calls -/

/-- A lookahead and its source, and what was seen of the calls so far. -/
structure Watched where
  state : Lookahead × Source
  /-- What the reads gave that succeeded, in their order. -/
  delivered : Bytes
  /-- The most bytes that any call asked to be shown. -/
  widest : Nat

namespace Watched

/-- A source that nothing was asked of. -/
def start (source : Source) : Watched := ⟨({}, source), [], 0⟩

/-- What is there after a call. -/
def after (watched : Watched) (call : StreamCall) : Watched where
  state := Ending.state (call.perform watched.state)
  delivered := watched.delivered ++ call.delivers (call.perform watched.state)
  widest := max watched.widest call.wants

/-- What is there after a row of calls. -/
def afterAll (watched : Watched) (calls : List StreamCall) : Watched := calls.foldl after watched

/-- The bytes that were not delivered yet. -/
def remains (watched : Watched) : Bytes := watched.state.1.peeked ++ watched.state.2.rest

end Watched

/-- Each byte of the data was delivered, is kept or is still to come, in this order. -/
structure Conserves (data : Bytes) (watched : Watched) : Prop where
  opened : watched.state.1.closed = false
  pieces : watched.state.2.most ≠ some 0
  split : data = watched.delivered ++ watched.state.1.peeked ++ watched.state.2.rest
  position : watched.state.2.position = (watched.delivered ++ watched.state.1.peeked).length
  narrow : watched.state.1.peeked.length ≤ watched.widest

namespace Conserves

variable {data : Bytes} {watched : Watched}

theorem start {source : Source} (pieces : source.most ≠ some 0) (fresh : source.position = 0) :
    Conserves source.rest (.start source) :=
  ⟨rfl, pieces, rfl, fresh, Nat.le_refl 0⟩

/-- **No call loses, repeats or reorders a byte.** -/
theorem after (conserves : Conserves data watched) (call : StreamCall) :
    Conserves data (watched.after call) := by
  obtain ⟨closed, ⟨more, passed, bytes⟩, kept⟩ := call.perform_moved watched.state
  have moved : (watched.after call).delivered ++ (watched.after call).state.1.peeked =
      watched.delivered ++ watched.state.1.peeked ++ more := by
    rw [List.append_assoc, bytes, ← List.append_assoc]
    rfl
  refine ⟨closed.trans conserves.opened, ?_, ?_, ?_, ?_⟩
  · rw [Watched.after, passed.most]
    exact conserves.pieces
  · rw [moved, conserves.split, passed.rest, ← List.append_assoc]
    rfl
  · rw [moved, List.length_append, ← conserves.position]
    exact passed.position
  · have narrow := conserves.narrow
    dsimp only [Watched.after]
    omega

theorem afterAll (conserves : Conserves data watched) (calls : List StreamCall) :
    Conserves data (watched.afterAll calls) := by
  induction calls generalizing watched with
  | nil => exact conserves
  | cons call calls ih => exact ih (conserves.after call)

theorem going (conserves : Conserves data watched) : ¬ watched.state.1.closed = true := by
  rw [conserves.opened]
  exact Bool.false_ne_true

/-- What was delivered and what is kept are the bytes up to the source's position. -/
theorem taken (conserves : Conserves data watched) :
    watched.delivered ++ watched.state.1.peeked = data.take watched.state.2.position := by
  rw [conserves.position, conserves.split, List.take_left]

/-- What remains are the bytes behind those that were delivered. -/
theorem remains_eq (conserves : Conserves data watched) :
    watched.remains = data.drop watched.delivered.length := by
  rw [conserves.split, List.append_assoc, List.drop_left]
  rfl

end Conserves

/-! ## What calls give -/

theorem prefix_upTo (index : Int) (bytes : Bytes) : upTo index bytes <+: bytes := by
  by_cases forwards : 0 ≤ index
  · rw [upTo, if_pos forwards]
    exact List.take_prefix ..
  · rw [upTo, if_neg forwards]
    exact List.take_prefix ..

/-- What calls give, told by the bytes that remain and those that are kept. -/
structure Faithful (watched : Watched) : Prop where
  /-- What is shown comes next. -/
  shows : ∀ (size : Option Int) (shown : Bytes) (after : Lookahead × Source),
    (StreamCall.peek size).perform watched.state = .ok shown after → shown <+: watched.remains
  /-- Looking ahead changes nothing about what remains, even if it fails. -/
  stays : ∀ size : Option Int, (watched.after (.peek size)).remains = watched.remains
  /-- As many bytes are shown as were asked for or as there are. -/
  full : ∀ (size : Nat) (shown : Bytes) (after : Lookahead × Source),
    (StreamCall.peek (some size)).perform watched.state = .ok shown after →
      shown = watched.remains.take size
  /-- A read that asks for bytes gives none only at the end. -/
  ends : ∀ (size : Option Int) (after : Lookahead × Source), size ≠ some 0 →
    (StreamCall.read size).perform watched.state = .ok [] after → watched.remains = []
  /-- As long as bytes are kept, reads of a given size succeed without the source. -/
  kept : ∀ size : Nat, watched.state.1.peeked ≠ [] →
    (StreamCall.read (some size)).perform watched.state =
      .ok (watched.state.1.peeked.take size)
        ({ watched.state.1 with peeked := watched.state.1.peeked.drop size }, watched.state.2)

namespace Conserves

variable {data : Bytes} {watched : Watched}

/-- Looking ahead changes nothing about what remains. -/
theorem remains_peek (conserves : Conserves data watched) (size : Option Int) :
    (watched.after (.peek size)).remains = watched.remains := by
  rw [(conserves.after (.peek size)).remains_eq, conserves.remains_eq]
  exact congrArg (fun delivered : Bytes => data.drop delivered.length) (List.append_nil _)

/-- What is shown was put into the lookahead, as much as was wanted or all that is left. -/
theorem filled_of_peek (conserves : Conserves data watched) {size : Option Int} {shown : Bytes}
    {after : Lookahead × Source}
    (peek : (StreamCall.peek size).perform watched.state = .ok shown after) :
    ∃ wanted, size = some wanted ∧ shown = upTo wanted after.1.peeked ∧
      after.1.peeked ++ after.2.rest = watched.remains ∧
        (wanted.toNat ≤ after.1.peeked.length ∨ after.2.rest = []) := by
  have stays := conserves.remains_peek size
  rw [Watched.remains, Watched.after, peek] at stays
  have pieces := conserves.pieces
  obtain ⟨⟨front, source⟩, delivered, widest⟩ := watched
  have going : ¬ front.closed = true := conserves.going
  cases size with
  | none =>
    simp only [StreamCall.perform, Lookahead.peek, if_neg going] at peek
    cases peek
  | some wanted =>
    simp only [StreamCall.perform, Lookahead.peek, if_neg going] at peek
    cases filled : Lookahead.fill Source.reader wanted.toNat front source with
    | error fault left =>
      rw [filled] at peek
      cases peek
    | ok value left =>
      rw [filled] at peek
      cases peek
      exact ⟨wanted, rfl, rfl, stays, Lookahead.rest_of_fill pieces filled⟩

/-- A read that asks for bytes gives none only at the end. -/
theorem remains_of_read (conserves : Conserves data watched) {size : Option Int}
    (asked : size ≠ some 0) {after : Lookahead × Source}
    (read : (StreamCall.read size).perform watched.state = .ok [] after) :
    watched.remains = [] := by
  have pieces := conserves.pieces
  obtain ⟨⟨front, source⟩, delivered, widest⟩ := watched
  have going : ¬ front.closed = true := conserves.going
  have wanted := sizeAsked_ne_zero asked
  simp only [StreamCall.perform, Lookahead.read, if_neg going] at read
  split at read
  · rename_i limit byte more some peeked
    injection read with nothing
    rcases List.take_eq_nil_iff.mp nothing with zero | empty
    · rw [some, zero] at wanted
      exact absurd rfl wanted
    · cases empty
  · cases below : Source.reader.read (sizeAsked size) source with
    | error fault left =>
      rw [below] at read
      cases read
    | ok given left =>
      rw [below] at read
      injection read with nothing
      obtain ⟨empty, none⟩ := List.append_eq_nil_iff.mp nothing
      rw [none] at below
      have last : source.rest = [] := Source.rest_eq_nil_of_read pieces wanted below
      rw [Watched.remains, last, List.append_nil]
      exact empty

/-- As long as bytes are kept, reads of a given size succeed without the source. -/
theorem read_kept (conserves : Conserves data watched) (size : Nat)
    (kept : watched.state.1.peeked ≠ []) :
    (StreamCall.read (some size)).perform watched.state =
      .ok (watched.state.1.peeked.take size)
        ({ watched.state.1 with peeked := watched.state.1.peeked.drop size }, watched.state.2) := by
  obtain ⟨⟨⟨peeked, closed⟩, source⟩, delivered, widest⟩ := watched
  have going : ¬ closed = true := conserves.going
  have asked : sizeAsked (some (size : Int)) = some size := by
    rw [sizeAsked, if_neg (Int.not_lt.mpr (Int.natCast_nonneg size)), Int.toNat_natCast]
  cases peeked with
  | nil => exact absurd rfl kept
  | cons byte more =>
    simp only [StreamCall.perform, Lookahead.read, if_neg going, asked]

theorem faithful (conserves : Conserves data watched) : Faithful watched where
  shows size shown after peek := by
    obtain ⟨wanted, -, rfl, remains, -⟩ := conserves.filled_of_peek peek
    rw [← remains]
    exact (prefix_upTo ..).trans (List.prefix_append ..)
  stays := conserves.remains_peek
  full size shown after peek := by
    obtain ⟨wanted, same, rfl, remains, enough⟩ := conserves.filled_of_peek peek
    cases same
    rw [upTo, if_pos (Int.natCast_nonneg size), ← remains]
    rcases enough with enough | last
    · exact (List.take_append_of_le_length enough).symm
    · rw [last, List.append_nil]
      rfl
  ends size after asked read := conserves.remains_of_read asked read
  kept := conserves.read_kept

end Conserves

/-- **Looking ahead and reading conserve the bytes of a source**, in whatever pieces they
arrive, wherever the source breaks off or is closed, and whatever is called. -/
theorem Watched.conserved {source : Source} (pieces : source.most ≠ some 0)
    (fresh : source.position = 0) (calls : List StreamCall) :
    let data := source.rest
    let watched := (Watched.start source).afterAll calls
    watched.delivered ++ watched.state.1.peeked = data.take watched.state.2.position ∧
      watched.remains = data.drop watched.delivered.length ∧
        watched.state.1.peeked.length ≤ watched.widest ∧ Faithful watched := by
  have conserves := (Conserves.start pieces fresh).afterAll calls
  exact ⟨conserves.taken, conserves.remains_eq, conserves.narrow, conserves.faithful⟩

/-- Six bytes that come in pieces of two and break off behind the fourth. -/
def torn : Source where
  rest := [1, 2, 3, 4, 5, 6]
  most := some 2
  failure := some ⟨4, .contentClosed⟩

/-- What was shown before the source broke off and was closed is given all the same. -/
theorem Watched.conserved_torn :
    let watched := (Watched.start torn).afterAll
      [.peek (some 3), .read (some 2), .peek (some 9), .closeSource, .read (some 5)]
    watched.delivered = [1, 2, 3, 4] ∧ watched.remains = [5, 6] ∧ Faithful watched := by
  intro watched
  have delivered : watched.delivered = [1, 2, 3, 4] := by decide +kernel
  obtain ⟨-, remains, -, faithful⟩ := conserved (show torn.most ≠ some 0 by decide) rfl
    [.peek (some 3), .read (some 2), .peek (some 9), .closeSource, .read (some 5)]
  refine ⟨delivered, ?_, faithful⟩
  rw [remains, delivered]
  rfl

end DiskStaging
