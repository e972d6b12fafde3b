import DiskStaging.Proofs.Arrival

/-!
# Reading with one size after the other

Whoever reads to the end may ask for another number of bytes at every turn. If a reader goes on
to one end only, all that is read is the same whatever the sizes (`Reader.Continues.readAll`).

A lookahead gives what it has shown to whoever asks for more than fits, and asks the reader
behind it only when nothing of that is left. So a size that does not fit breaks the reading off
just where all that was shown is read (`Overasks`). Which turn that is can be told from the sizes
and from the number of bytes, since the reader behind gives as many as are asked for
(`Lookahead.readAll_of_fits`, `Lookahead.fits_of_readAll`).
-/

set_option autoImplicit false

namespace DiskStaging

variable {σ τ : Type}

namespace Reader

variable {reader : Reader σ} {sizes : Nat → Option Nat} {state after : σ}

/-- Reads with one size after the other until nothing comes. Gives all that came, or nothing if
the reading broke off. -/
def readAll (reader : Reader σ) (sizes : Nat → Option Nat) (state : σ) : Option Bytes :=
  match _read : reader.read (sizes 0) state with
  | .error _ _ => none
  | .ok [] _ => some []
  | .ok (byte :: more) after =>
    (reader.readAll (fun turn => sizes (turn + 1)) after).map (byte :: more ++ ·)
termination_by reader.left state
decreasing_by exact reader.left_lt_of_read _read

theorem readAll_of_error {fault : Fault} (read : reader.read (sizes 0) state = .error fault after) :
    reader.readAll sizes state = none := by
  unfold Reader.readAll
  split <;> rename_i ended <;> cases read.symm.trans ended
  rfl

theorem readAll_of_nil (read : reader.read (sizes 0) state = .ok [] after) :
    reader.readAll sizes state = some [] := by
  unfold Reader.readAll
  split <;> rename_i ended <;> cases read.symm.trans ended
  rfl

theorem readAll_of_cons {byte : UInt8} {more : Bytes}
    (read : reader.read (sizes 0) state = .ok (byte :: more) after) :
    reader.readAll sizes state =
      (reader.readAll (fun turn => sizes (turn + 1)) after).map (byte :: more ++ ·) := by
  rw [Reader.readAll.eq_def reader sizes state]
  split <;> rename_i ended <;> cases read.symm.trans ended
  rfl

/-- Reading from inside of larger states gives the same. -/
theorem readAll_inside {outer : Reader τ} (place : σ → τ)
    (same : ∀ size state,
      outer.read size (place state) = Ending.inside place (reader.read size state))
    (sizes : Nat → Option Nat) (state : σ) :
    outer.readAll sizes (place state) = reader.readAll sizes state := by
  fun_induction Reader.readAll reader sizes state with
  | case1 sizes state fault after read =>
    exact readAll_of_error ((same _ _).trans (congrArg _ read))
  | case2 sizes state after read =>
    exact readAll_of_nil ((same _ _).trans (congrArg _ read))
  | case3 sizes state byte more after read ih =>
    rw [readAll_of_cons ((same _ _).trans (congrArg _ read)), ih]

/-- Reading that does not break off goes on to the end, whatever the sizes. -/
theorem Continues.readAll {past : σ → Bytes → Prop} {ends : Bytes → Prop}
    {breaks : Option Nat → Prop} (continues : reader.Continues past ends breaks)
    (asked : ∀ turn, sizes turn ≠ some 0) {given all : Bytes} (held : past state given)
    (read : reader.readAll sizes state = some all) : ends (given ++ all) := by
  fun_induction Reader.readAll reader sizes state generalizing given all with
  | case1 sizes state fault after broken => cases read
  | case2 sizes state after last =>
    cases read
    rw [List.append_nil]
    exact (continues.end_of_nil held (asked 0) last).1
  | case3 sizes state byte more after next ih =>
    obtain ⟨rest, later, rfl⟩ := Option.map_eq_some_iff.mp read
    rw [← List.append_assoc]
    exact ih (fun turn => asked (turn + 1)) (continues.given_append held next) later

end Reader

/-! ## What is asked for behind what was shown -/

/-- The bytes that a read leaves, of those that were shown and of those behind them. Unless all
are asked for, what was shown is given alone. -/
def leftBy : Option Nat → Nat × Nat → Nat × Nat
  | none, _ => (0, 0)
  | some size, (0, hidden) => (0, hidden - size)
  | some size, (shown + 1, hidden) => (shown + 1 - size, hidden)

/-- Reading with one size after the other comes to a size that does not fit where all that was
shown is read. -/
inductive Overasks : (Nat → Option Nat) → Nat × Nat → Prop
  | now {sizes : Nat → Option Nat} {left : Nat × Nat} (unshown : left.1 = 0)
    (excessive : Excessive (sizes 0)) : Overasks sizes left
  | later {sizes : Nat → Option Nat} {left : Nat × Nat} (more : left ≠ (0, 0))
    (rest : Overasks (fun turn => sizes (turn + 1)) (leftBy (sizes 0) left)) : Overasks sizes left

/-- A read that asks for something leaves less. -/
theorem leftBy_lt {size : Option Nat} (asked : size ≠ some 0) {left : Nat × Nat}
    (more : left ≠ (0, 0)) : (leftBy size left).1 + (leftBy size left).2 < left.1 + left.2 := by
  obtain ⟨shown, hidden⟩ := left
  have some : ¬ (shown = 0 ∧ hidden = 0) := by
    rintro ⟨rfl, rfl⟩
    exact more rfl
  cases size with
  | none =>
    simp only [leftBy]
    omega
  | some size =>
    have positive : size ≠ 0 := fun zero => asked (congrArg _ zero)
    cases shown <;> simp only [leftBy] <;> omega

/-- No more than fits is asked for, if the sizes fit up to the turn where the end is sure to have
come. -/
theorem not_overasks {sizes : Nat → Option Nat} (asked : ∀ turn, sizes turn ≠ some 0)
    {left : Nat × Nat} (fit : ∀ turn ≤ left.1 + left.2, ¬ Excessive (sizes turn)) :
    ¬ Overasks sizes left := by
  intro overasks
  induction overasks with
  | now _ excessive => exact fit 0 (Nat.zero_le _) excessive
  | later more _ ih =>
    have less := leftBy_lt (asked 0) more
    exact ih (fun turn => asked (turn + 1)) fun turn within => fit (turn + 1) (by omega)

namespace Lookahead

variable {below : Reader σ} {front after : Lookahead} {state left : σ} {size : Option Nat}
  {next : Bytes}

/-- What a read gives comes from what was shown alone, or goes on behind it. -/
theorem read_cases (opened : front.closed = false)
    (read : (reader below).read size (front, state) = .ok next (after, left)) :
    (∃ limit, size = some limit ∧ front.peeked ≠ [] ∧ next = front.peeked.take limit ∧
      after = { front with peeked := front.peeked.drop limit } ∧ left = state) ∨
    ((∀ limit, size = some limit → front.peeked = []) ∧
      ∃ given, below.read size state = .ok given left ∧ next = front.peeked ++ given ∧
        after = { front with peeked := [] }) := by
  obtain ⟨peeked, closed⟩ := front
  obtain rfl : closed = false := opened
  simp only [reader, Lookahead.read, Bool.false_eq_true, if_false] at read
  split at read
  · rename_i limit byte more
    cases read
    exact .inl ⟨limit, rfl, List.cons_ne_nil _ _, rfl, rfl, rfl⟩
  · rename_i unshown
    cases ended : below.read size state with
    | error fault last =>
      rw [ended] at read
      cases read
    | ok given last =>
      rw [ended] at read
      cases read
      refine .inr ⟨?_, given, rfl, rfl, rfl⟩
      rintro limit rfl
      cases peeked with
      | nil => rfl
      | cons byte more => exact (unshown limit byte more rfl rfl).elim

/-- Reading breaks off only behind what was shown. -/
theorem read_error_cases (opened : front.closed = false) {fault : Fault}
    (read : (reader below).read size (front, state) = .error fault (after, left)) :
    (∀ limit, size = some limit → front.peeked = []) ∧
      below.read size state = .error fault left := by
  obtain ⟨peeked, closed⟩ := front
  obtain rfl : closed = false := opened
  simp only [reader, Lookahead.read, Bool.false_eq_true, if_false] at read
  split at read
  · cases read
  · rename_i unshown
    cases ended : below.read size state with
    | ok given last =>
      rw [ended] at read
      cases read
    | error fault last =>
      rw [ended] at read
      cases read
      refine ⟨?_, rfl⟩
      rintro limit rfl
      cases peeked with
      | nil => rfl
      | cons byte more => exact (unshown limit byte more rfl rfl).elim

/-- What was shown comes first of what is given and of what may come behind that. -/
theorem shown_of_read (opened : front.closed = false)
    (read : (reader below).read size (front, state) = .ok next (after, left)) (rest : Bytes) :
    ∃ behind, next ++ (after.peeked ++ rest) = front.peeked ++ behind := by
  rcases read_cases opened read with
    ⟨limit, rfl, -, rfl, rfl, rfl⟩ | ⟨-, given, -, rfl, rfl⟩
  · exact ⟨rest, by rw [← List.append_assoc, List.take_append_drop]⟩
  · exact ⟨given ++ rest, by rw [List.append_assoc]; rfl⟩

section Positions

variable {past : σ → Bytes → Prop} {ends : Bytes → Prop} {breaks : Option Nat → Prop}
  {given rest more : Bytes}

/-- How much a read leaves can be told from its size, if the reader behind gives as much as is
asked for and goes on to one end only. -/
theorem left_of_read (thorough : below.Thorough past ends breaks)
    (one : ∀ first second, ends first → ends second → first = second)
    (held : Past past (front, state) given) (reached : ends (given ++ front.peeked ++ rest))
    (read : (reader below).read size (front, state) = .ok next (after, left))
    (split : front.peeked ++ rest = next ++ (after.peeked ++ more)) :
    (after.peeked.length, more.length) = leftBy size (front.peeked.length, rest.length) := by
  rcases read_cases held.1 read with
    ⟨limit, rfl, shown, rfl, rfl, rfl⟩ | ⟨unshown, bytes, behind, rfl, rfl⟩
  · obtain rfl : rest = more := by
      rw [← List.append_assoc, List.take_append_drop] at split
      exact List.append_cancel_left split
    obtain ⟨byte, others, same⟩ := List.exists_cons_of_ne_nil shown
    rw [List.length_drop, same]
    rfl
  · have asked := thorough size state (given ++ front.peeked) held.2
    rw [behind] at asked
    obtain ⟨within, short, -⟩ := asked
    rw [List.append_assoc] at split
    obtain rfl : rest = bytes ++ more := List.append_cancel_left split
    -- A read that gives less than was asked for gives all there is.
    have last (less : ∀ limit ∈ size, bytes.length < limit) : more = [] :=
      List.append_right_eq_self.mp
        (List.append_cancel_left (one _ _ reached (short less)))
    cases size with
    | none =>
      obtain rfl : more = [] := last nofun
      rfl
    | some limit =>
      rw [unshown limit rfl, List.length_append]
      simp only [leftBy, List.length_nil]
      by_cases less : bytes.length < limit
      · obtain rfl : more = [] := last fun _ same => Option.some.inj same ▸ less
        have none : bytes.length + 0 - limit = 0 := by omega
        rw [List.length_nil, none]
      · have most := within limit rfl
        have rest : bytes.length + more.length - limit = more.length := by omega
        rw [rest]

/-- Reading that does not break off has asked for no more than fits behind what was shown. -/
theorem fits_of_readAll (thorough : below.Thorough past ends breaks)
    (one : ∀ first second, ends first → ends second → first = second)
    (refuses : ∀ size state, Excessive size → ∃ fault after,
      below.read size state = .error fault after)
    {sizes : Nat → Option Nat} (asked : ∀ turn, sizes turn ≠ some 0) {state : Lookahead × σ}
    {all : Bytes} (held : Past past state given)
    (read : (reader below).readAll sizes state = some all) :
    ∃ rest, all = state.1.peeked ++ rest ∧
      ¬ Overasks sizes (state.1.peeked.length, rest.length) := by
  have reached := (continues thorough.continues).readAll asked held read
  fun_induction Reader.readAll (reader below) sizes state generalizing given all with
  | case1 sizes state fault after broken => cases read
  | case2 sizes state after last =>
    cases read
    obtain ⟨front, state⟩ := state
    rcases read_cases held.1 last with
      ⟨limit, size, shown, nothing, -, -⟩ | ⟨-, bytes, ended, nothing, -⟩
    · rcases List.take_eq_nil_iff.mp nothing.symm with rfl | empty
      · exact absurd size (asked 0)
      · exact absurd empty shown
    · obtain ⟨empty, rfl⟩ := List.append_eq_nil_iff.mp nothing.symm
      refine ⟨[], by rw [empty]; rfl, ?_⟩
      rintro (⟨-, excessive⟩ | ⟨more, -⟩)
      · obtain ⟨fault, left, broken⟩ := refuses _ state excessive
        cases broken.symm.trans ended
      · rw [empty] at more
        exact more rfl
  | case3 sizes state byte more after next ih =>
    obtain ⟨later, rest, rfl⟩ := Option.map_eq_some_iff.mp read
    obtain ⟨front, state⟩ := state
    obtain ⟨last, left⟩ := after
    have kept := (continues thorough.continues).given_append held next
    have onward := reached
    rw [← List.append_assoc] at onward
    obtain ⟨hidden, rfl, fits⟩ := ih (fun turn => asked (turn + 1)) kept rest onward
    obtain ⟨behind, split⟩ := shown_of_read held.1 next hidden
    rw [split] at reached ⊢
    rw [← List.append_assoc] at reached
    refine ⟨behind, rfl, ?_⟩
    rintro (⟨unshown, excessive⟩ | ⟨-, overasks⟩)
    · rcases read_cases held.1 next with ⟨-, -, shown, -⟩ | ⟨-, given, ended, -⟩
      · exact shown (List.length_eq_zero_iff.mp unshown)
      · obtain ⟨fault, broken, refused⟩ := refuses _ state excessive
        cases refused.symm.trans ended
    · rw [← left_of_read thorough one held reached next split.symm] at overasks
      exact fits overasks

end Positions

/-- **Reading that asks for no more than fits behind what was shown gives all.** -/
theorem readAll_of_fits {holds : σ → Bytes → Prop} (serves : below.ServesFully holds true)
    {sizes : Nat → Option Nat} (asked : ∀ turn, sizes turn ≠ some 0) {state : Lookahead × σ}
    {rest : Bytes} (opened : state.1.closed = false) (held : holds state.2 rest)
    (fits : ¬ Overasks sizes (state.1.peeked.length, rest.length)) :
    (reader below).readAll sizes state = some (state.1.peeked ++ rest) := by
  have given := Lookahead.serves serves.fitting
  fun_induction Reader.readAll (reader below) sizes state generalizing rest with
  | case1 sizes state fault after broken =>
    obtain ⟨front, state⟩ := state
    obtain ⟨last, left⟩ := after
    obtain ⟨unshown, refused⟩ := read_error_cases opened broken
    rcases serves.fitting.broken held refused with cut | excessive
    · cases cut
    · obtain ⟨limit, size⟩ := excessive.eq_some
      exact absurd (.now (by rw [unshown limit size]; rfl) excessive) fits
  | case2 sizes state after last =>
    have holds : Holds holds state (state.1.peeked ++ rest) := ⟨opened, rest, rfl, held⟩
    rw [(given.end_of_nil holds (asked 0) last).1]
  | case3 sizes state byte more after next ih =>
    obtain ⟨front, state⟩ := state
    obtain ⟨last, left⟩ := after
    have holds : Holds holds (front, state) (front.peeked ++ rest) := ⟨opened, rest, rfl, held⟩
    obtain ⟨_, split, going, hidden, rfl, behind⟩ := given.given_append holds next
    have amid : Past (Amid _ (front.peeked ++ rest)) (front, state) [] := ⟨opened, rest, rfl, held⟩
    have same := left_of_read (serves (front.peeked ++ rest))
      (fun _ _ first second => first.1.trans second.1.symm) amid ⟨rfl, rfl⟩ next split
    rw [split, ih (fun turn => asked (turn + 1)) going behind]
    · rfl
    · intro overasks
      rw [same] at overasks
      refine fits (.later ?_ overasks)
      intro nothing
      have none := congrArg List.length split
      simp only [List.length_append, List.length_cons, Prod.mk.injEq] at none nothing
      omega

end Lookahead

end DiskStaging
