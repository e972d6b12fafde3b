import DiskStaging.Proofs.Serving
import DiskStaging.Stream.Lookahead

/-!
# How the bytes of a source arrive

A source gives its bytes piece by piece, up to the position where reading breaks
off, if there is one. Whatever the pieces are, it serves these bytes, and it is
steady (`Source.serves`, `Source.steady`). A closed source has nothing to give and
breaks off at once.

A lookahead in front of a reader serves the bytes that it keeps and, behind them,
those of the reader (`Lookahead.serves`). Looking at bytes changes nothing about
what is served, and what is shown are the next bytes, as many as asked for or as
there are (`Lookahead.peek_shown`). All of this comes from how a lookahead continues what
was given before (`Lookahead.continues`, `Lookahead.fill_continued`). A lookahead breaks
off where the reader does, and while it is filled it asks for no more than is wanted.
-/

set_option autoImplicit false

namespace DiskStaging

namespace Source

/-! ## Sources -/

/-- Whether a source gives all its bytes before reading breaks off. -/
def whole (source : Source) : Bool :=
  !source.closed && source.failure.all fun failure =>
    source.position + source.rest.length < failure.position

/-- The bytes that a source gives before its end or before reading breaks off. -/
def remaining (source : Source) : Bytes :=
  if source.closed then []
  else atMost (source.failure.map (·.position - source.position)) source.rest

/-- The source gives some piece at every read, and all pieces together are the bytes. -/
def Holds (whole : Bool) (source : Source) (bytes : Bytes) : Prop :=
  source.most ≠ some 0 ∧ source.whole = whole ∧ source.remaining = bytes

/-- A source that cannot be read has nothing left to give. -/
theorem remaining_of_fault {source : Source} {fault : Fault}
    (broken : source.fault? = some fault) : source.remaining = [] ∧ source.whole = false := by
  unfold fault? at broken
  by_cases shut : source.closed = true
  · simp [remaining, whole, shut]
  · rw [if_neg shut] at broken
    obtain ⟨failure, there, reached⟩ := Option.bind_eq_some_iff.mp broken
    split at reached
    · rename_i past
      have none : failure.position - source.position = 0 := Nat.sub_eq_zero_of_le past
      have short : ¬ source.position + source.rest.length < failure.position := by omega
      simp [remaining, whole, shut, there, none, short, atMost]
    · cases reached

theorem closed_of_no_fault {source : Source} (going : source.fault? = none) :
    source.closed = false := by
  unfold fault? at going
  split at going
  · cases going
  · rename_i opened
    simpa using opened

/-- The source after some more of its bytes were read, with what was asked of it by then. -/
def advance (source : Source) (count : Nat) (asked : List (Option Nat)) : Source :=
  { source with
    rest := source.rest.drop count
    position := source.position + count
    asked }

/-- A read that goes well takes the next piece off the source. -/
theorem read_ok {source after : Source} {size : Option Nat} {given : Bytes}
    (read : reader.read size source = .ok given after) :
    source.fault? = none ∧ given = source.piece size ∧
      after = source.advance given.length (size :: source.asked) := by
  cases broken : source.fault? with
  | some cause =>
    simp only [reader, Source.read, broken] at read
    cases read
  | none =>
    simp only [reader, Source.read, broken] at read
    cases read
    exact ⟨rfl, rfl, rfl⟩

/-- A read that does not go well raises the fault of the source. -/
theorem read_error {source after : Source} {size : Option Nat} {fault : Fault}
    (read : reader.read size source = .error fault after) :
    source.fault? = some fault ∧ after = source.advance 0 (size :: source.asked) := by
  cases broken : source.fault? with
  | some cause =>
    simp only [reader, Source.read, broken] at read
    cases read
    exact ⟨rfl, rfl⟩
  | none =>
    simp only [reader, Source.read, broken] at read
    cases read

/-- A read takes what comes next of the bytes that a source still gives. -/
theorem piece_eq {source : Source} (going : source.fault? = none) (size : Option Nat) :
    source.piece size = atMost size (atMost source.most source.remaining) := by
  rw [piece, remaining, closed_of_no_fault going]
  rfl

/-- A source that can be read and has nothing left to give is at the end of its data. -/
theorem whole_of_remaining_nil {source : Source} (going : source.fault? = none)
    (nothing : source.remaining = []) : source.whole = true := by
  have opened := closed_of_no_fault going
  rw [remaining, opened] at nothing
  rw [whole, opened]
  cases ahead : source.failure with
  | none => rfl
  | some failure =>
    have further : source.position < failure.position := by
      simp only [fault?, opened, ahead] at going
      simpa using going
    rw [ahead] at nothing
    rcases List.take_eq_nil_iff.mp nothing with reached | empty
    · exact absurd (Nat.le_of_sub_eq_zero reached) (Nat.not_le_of_lt further)
    · simpa [empty] using further

/-- What was read is taken off what a source still gives. -/
theorem remaining_advance {source : Source} (count : Nat) (asked : List (Option Nat)) :
    (source.advance count asked).remaining = source.remaining.drop count := by
  have closed : (source.advance count asked).closed = source.closed := rfl
  unfold remaining
  rw [closed]
  split
  · exact List.drop_nil.symm
  · rw [← atMost_drop]
    simp only [advance, Option.map_map]
    congr 2
    funext failure
    simp only [Function.comp_apply]
    omega

theorem whole_advance {source : Source} {count : Nat} (fits : count ≤ source.rest.length)
    (asked : List (Option Nat)) : (source.advance count asked).whole = source.whole := by
  have same : source.position + count + (source.rest.length - count) =
      source.position + source.rest.length := by omega
  have closed : (source.advance count asked).closed = source.closed := rfl
  unfold whole
  rw [closed]
  simp only [advance, List.length_drop, same]

/-- A source serves the bytes that it gives, in whatever pieces. -/
theorem serves (whole : Bool) : reader.Serves (Holds whole) whole := by
  rintro size source _ ⟨pieces, rfl, rfl⟩
  cases broken : source.fault? with
  | some fault =>
    simp only [reader, read, broken, Ending.Served]
    exact (remaining_of_fault broken).2
  | none =>
    have given := piece_eq broken size
    simp only [reader, read, broken, Ending.Served]
    refine ⟨?_, ?_, source.remaining.drop (source.piece size).length, ?_, pieces, ?_, ?_⟩
    · rintro limit rfl
      rw [given]
      exact length_atMost_le_limit _
    · intro nothing asked
      rw [given] at nothing
      have none := eq_nil_of_atMost_eq_nil pieces (eq_nil_of_atMost_eq_nil asked nothing)
      exact ⟨none, whole_of_remaining_nil broken none⟩
    · have first : source.piece size <+: source.remaining := by
        rw [given]
        exact (prefix_atMost ..).trans (prefix_atMost ..)
      rw [List.prefix_iff_eq_append.mp first]
    · exact whole_advance (source.length_piece_le size) _
    · exact remaining_advance _ _

/-- Reading a source breaks off only where all that it gives was given. -/
theorem steady (whole : Bool) : reader.Steady (Holds whole) := by
  rintro limit source _ fault after ⟨-, -, rfl⟩ read
  cases broken : source.fault? with
  | some fault => exact (remaining_of_fault broken).1
  | none =>
    simp only [reader, Source.read, broken] at read
    cases read

end Source

namespace Lookahead

/-! ## Looking ahead -/

variable {σ : Type} {below : Reader σ} {holds past : σ → Bytes → Prop} {whole : Bool}
  {ends : Bytes → Prop} {breaks : Option Nat → Prop} {broke : Prop}

/-- An open lookahead holds the bytes that it keeps and those behind it. -/
def Holds (holds : σ → Bytes → Prop) : Lookahead × σ → Bytes → Prop := fun (front, state) bytes =>
  front.closed = false ∧ ∃ rest, bytes = front.peeked ++ rest ∧ holds state rest

/-- An open lookahead was given the bytes that it keeps, and has not given them yet. -/
def Past (past : σ → Bytes → Prop) : Lookahead × σ → Bytes → Prop := fun (front, state) given =>
  front.closed = false ∧ past state (given ++ front.peeked)

theorem past_amid (holds : σ → Bytes → Prop) (all : Bytes) :
    Past (Amid holds all) = Amid (Holds holds) all := by
  funext ⟨front, state⟩ given
  refine propext ⟨?_, ?_⟩
  · rintro ⟨opened, rest, split, held⟩
    exact ⟨front.peeked ++ rest, by rw [split, List.append_assoc], opened, rest, rfl, held⟩
  · rintro ⟨_, split, opened, rest, rfl, held⟩
    exact ⟨opened, rest, by rw [split, List.append_assoc], held⟩

theorem continues (continued : below.Continues past ends breaks) :
    (reader below).Continues (Past past) ends breaks := by
  rintro size ⟨⟨peeked, closed⟩, state⟩ given ⟨rfl, held⟩
  have next := continued size state (given ++ peeked) held
  simp only [reader, read, Bool.false_eq_true, if_false]
  split
  · rename_i limit byte more
    refine continued_take ?_ ⟨rfl, ?_⟩
    · intro empty
      cases empty
    · rw [List.append_assoc, List.take_append_drop]
      exact held
  · rename_i unbuffered
    cases read : below.read size state with
    | error fault after =>
      rw [read] at next
      exact next
    | ok bytes after =>
      rw [read] at next
      obtain ⟨within, last, kept⟩ := next
      refine ⟨?_, ?_, rfl, ?_⟩
      · rintro limit ⟨⟩
        cases peeked with
        | nil => exact within limit rfl
        | cons byte more => exact (unbuffered limit byte more rfl rfl).elim
      · intro nothing asked
        obtain ⟨rfl, rfl⟩ := List.append_eq_nil_iff.mp nothing
        rw [List.append_nil] at last
        exact last rfl asked
      · rw [List.append_nil, ← List.append_assoc]
        exact kept

theorem serves (served : below.ServesUnless holds whole breaks) :
    (reader below).ServesUnless (Holds holds) whole breaks :=
  .of_continues fun all => past_amid holds all ▸ continues (served.continues all)

theorem steady (served : below.Steady holds) : (reader below).Steady (Holds holds) := by
  rintro limit ⟨⟨peeked, closed⟩, state⟩ _ fault after ⟨rfl, rest, rfl, held⟩ broken
  cases peeked with
  | cons byte more =>
    simp only [reader, read, Bool.false_eq_true, if_false] at broken
    cases broken
  | nil =>
    simp only [reader, read, Bool.false_eq_true, if_false] at broken
    cases read : below.read (some limit) state with
    | ok given after =>
      rw [read] at broken
      cases broken
    | error fault after => exact served _ _ _ _ _ held read

/-- A lookahead that was filled keeps as much as was wanted, or all that there may be. -/
def Filled (past : σ → Bytes → Prop) (ends : Bytes → Prop) (broke : Prop) (given : Bytes)
    (stock : Nat) : Ending (Lookahead × σ) Unit → Prop
  | .ok () (front, after) =>
    Past past (front, after) given ∧ front.peeked.length ≤ stock ∧
      (front.peeked.length < stock → ends (given ++ front.peeked))
  | .error _ _ => broke

/-- Filling a lookahead gives nothing away. What it asks for at a time is no more than what
is wanted. -/
theorem fill_continued (continued : below.Continues past ends breaks) {size : Nat}
    (leads : ∀ less ≤ size, breaks (some less) → broke) {front : Lookahead} {state : σ}
    {given : Bytes} (held : Past past (front, state) given) :
    Filled past ends broke given (max size front.peeked.length) (fill below size front state) := by
  obtain ⟨opened, kept⟩ := held
  fun_induction fill below size front state with
  | case1 front state short fault after read =>
    exact leads _ (Nat.sub_le ..) (continued.broken kept read)
  | case2 front state short after read =>
    have asked : some (size - front.peeked.length) ≠ some 0 := by
      intro none
      have zero := Option.some.inj none
      omega
    obtain ⟨all, last⟩ := continued.end_of_nil kept asked read
    exact ⟨⟨opened, last⟩, Nat.le_max_right .., fun _ => all⟩
  | case3 front state short byte more after read ih =>
    have within := continued.length_le kept read
    have next := continued.given_append kept read
    rw [List.append_assoc] at next
    have filled := ih opened next
    have same : max size (front.peeked ++ byte :: more).length = max size front.peeked.length := by
      rw [List.length_append]
      omega
    rwa [same] at filled
  | case4 front state enough =>
    refine ⟨⟨opened, kept⟩, Nat.le_max_right .., ?_⟩
    omega

/-- The bytes that a lookahead has in store are the next ones, and a reader that
gave fewer than were wanted is at the end of whole data. -/
def Stocked (holds : σ → Bytes → Prop) (whole : Bool) (broke : Prop) (bytes : Bytes)
    (size stock : Nat) : Ending (Lookahead × σ) Unit → Prop
  | .ok () (front, after) =>
    Holds holds (front, after) bytes ∧ front.peeked = bytes.take stock ∧
      (bytes.length < size → whole = true)
  | .error _ _ => broke

/-- Filling a lookahead changes nothing about the bytes that are served. -/
theorem fill_served (served : below.ServesUnless holds whole breaks) {size : Nat}
    (leads : ∀ less ≤ size, breaks (some less) → broke) {front : Lookahead} {state : σ}
    {bytes : Bytes} (held : Holds holds (front, state) bytes) :
    Stocked holds whole broke bytes size (max size front.peeked.length)
      (fill below size front state) := by
  have start : Past (Amid holds bytes) (front, state) [] := by
    rw [past_amid]
    exact ⟨bytes, rfl, held⟩
  have filled : Filled _ _ broke [] _ (fill below size front state) :=
    fill_continued (served.continues bytes) leads start
  have enough := Nat.le_max_left size front.peeked.length
  generalize max size front.peeked.length = stock at filled enough ⊢
  cases ended : fill below size front state with
  | error fault after =>
    rw [ended] at filled
    exact filled
  | ok value after =>
    obtain ⟨front, after⟩ := after
    rw [ended] at filled
    obtain ⟨⟨opened, rest, rfl, kept⟩, within, last⟩ := filled
    rw [List.nil_append] at last ⊢
    refine ⟨⟨opened, rest, rfl, kept⟩, ?_, ?_⟩
    · by_cases short : front.peeked.length < stock
      · rw [← (last short).1, List.take_of_length_le within]
      · rw [List.take_left' (Nat.le_antisymm within (Nat.le_of_not_lt short))]
    · intro few
      rw [List.length_append] at few
      exact (last (by omega)).2

/-- In front of a steady reader, filling breaks off only for want of bytes. -/
theorem length_lt_of_fill_error (served : below.Serves holds whole) (steady : below.Steady holds)
    {size : Nat} {front : Lookahead} {state : σ} {bytes : Bytes} {fault : Fault}
    {after : Lookahead × σ} (held : Holds holds (front, state) bytes)
    (broken : fill below size front state = .error fault after) : bytes.length < size := by
  obtain ⟨-, rest, rfl, kept⟩ := held
  fun_induction fill below size front state generalizing rest with
  | case1 front state short fault after read =>
    rw [steady _ _ _ _ _ kept read, List.append_nil]
    exact short
  | case2 => cases broken
  | case3 front state short byte more after read ih =>
    obtain ⟨rest, rfl, last⟩ := served.given_append kept read
    simpa only [List.append_assoc] using ih broken rest last
  | case4 => cases broken

/-- Looking ahead fills the lookahead, and shows of what it then keeps as much as asked for. -/
theorem peek_eq {front : Lookahead} (opened : front.closed = false) (size : Nat) (state : σ) :
    peek below (some size) (front, state) =
      match fill below size front state with
      | .error fault after => .error fault after
      | .ok () (front, after) => .ok (front.peeked.take size) (front, after) := by
  simp only [peek, opened, Bool.false_eq_true, if_false, Int.toNat_natCast]
  cases fill below size front state with
  | error fault after => rfl
  | ok value after =>
    dsimp only
    rw [upTo, if_pos (Int.natCast_nonneg size), Int.toNat_natCast]

/-- A lookahead that keeps nothing breaks off where the reader behind it refuses what is
wanted. -/
theorem peek_of_error {front : Lookahead} (opened : front.closed = false)
    (nothing : front.peeked = []) {size : Nat} (positive : 0 < size) {state after : σ}
    {fault : Fault} (broken : below.read (some size) state = .error fault after) :
    peek below (some size) (front, state) = .error fault (front, after) := by
  have short : front.peeked.length < size := by
    rwa [nothing]
  have read : below.read (some (size - front.peeked.length)) state = .error fault after := by
    rwa [nothing]
  rw [peek_eq opened]
  unfold fill
  rw [dif_pos short, read]

/-- What is shown is kept, and is all that there may be if it is less than what was asked for. -/
theorem filled_of_peek (continued : below.Continues past ends breaks) {size : Nat}
    {front kept : Lookahead} {state after : σ} {given shown : Bytes}
    (held : Past past (front, state) given)
    (peeked : peek below (some size) (front, state) = .ok shown (kept, after)) :
    shown = kept.peeked.take size ∧
      Filled past ends True given (max size front.peeked.length) (.ok () (kept, after)) := by
  have filled : Filled past ends True given (max size front.peeked.length)
      (fill below size front state) := fill_continued continued (fun _ _ _ => trivial) held
  rw [peek_eq held.1] at peeked
  cases ended : fill below size front state with
  | error fault after =>
    rw [ended] at peeked
    cases peeked
  | ok value after =>
    rw [ended] at peeked filled
    cases peeked
    exact ⟨rfl, filled⟩

/-- What is shown are the next bytes. -/
def Shown (holds : σ → Bytes → Prop) (whole : Bool) (broke : Prop) (bytes : Bytes)
    (size stock : Nat) : Ending (Lookahead × σ) Bytes → Prop
  | .ok shown (front, after) =>
    shown = bytes.take size ∧
      Stocked holds whole broke bytes size stock (.ok () (front, after))
  | .error _ _ => broke

theorem peek_shown (served : below.ServesUnless holds whole breaks) {size : Nat}
    (leads : ∀ less ≤ size, breaks (some less) → broke) {front : Lookahead} {state : σ}
    {bytes : Bytes} (held : Holds holds (front, state) bytes) :
    Shown holds whole broke bytes size (max size front.peeked.length)
      (peek below (some size) (front, state)) := by
  have stocked : Stocked holds whole broke bytes size (max size front.peeked.length)
      (fill below size front state) := fill_served served leads held
  rw [peek_eq held.1]
  cases filled : fill below size front state with
  | error fault after =>
    rw [filled] at stocked
    exact stocked
  | ok value after =>
    obtain ⟨front, after⟩ := after
    rw [filled] at stocked
    refine ⟨?_, stocked⟩
    rw [stocked.2.1, List.take_take, Nat.min_eq_left (Nat.le_max_left ..)]

/-- In front of a steady reader, looking ahead breaks off only for want of bytes. -/
theorem length_lt_of_peek_error (served : below.Serves holds whole) (steady : below.Steady holds)
    {size : Nat} {front : Lookahead} {state : σ} {bytes : Bytes} {fault : Fault}
    {after : Lookahead × σ} (held : Holds holds (front, state) bytes)
    (broken : peek below (some size) (front, state) = .error fault after) :
    bytes.length < size := by
  rw [peek_eq held.1] at broken
  cases filled : fill below size front state with
  | error fault after => exact length_lt_of_fill_error served steady held filled
  | ok value after =>
    rw [filled] at broken
    cases broken

end Lookahead

end DiskStaging
