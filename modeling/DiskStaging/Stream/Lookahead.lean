import DiskStaging.Stream.Reader

/-!
# Looking ahead

A lookahead stands in front of a reader and can show the bytes that come next
without consuming them: it keeps what it has shown and gives it out again when
it is read. While it keeps bytes, a read of a given size takes from these alone.
-/

set_option autoImplicit false

namespace DiskStaging

/-- The front of a stream. -/
structure Lookahead where
  /-- The bytes that were shown and not read yet. -/
  peeked : Bytes := []
  closed : Bool := false
  deriving Repr, Inhabited

/-- The bytes in front of the given index; a negative index counts from the end. -/
def upTo (index : Int) (bytes : Bytes) : Bytes :=
  if 0 ≤ index then bytes.take index.toNat else bytes.take (bytes.length - (-index).toNat)

namespace Lookahead

variable {σ : Type}

/-- Reads until `size` bytes are there to be shown, or there are no more. -/
def fill (below : Reader σ) (size : Nat) (front : Lookahead) (state : σ) :
    Ending (Lookahead × σ) Unit :=
  if _short : front.peeked.length < size then
    match below.read (some (size - front.peeked.length)) state with
    | .error fault after => .error fault (front, after)
    | .ok [] after => .ok () (front, after)
    | .ok (byte :: more) after =>
      fill below size { front with peeked := front.peeked ++ byte :: more } after
  else .ok () (front, state)
termination_by size - front.peeked.length
decreasing_by
  simp only [List.length_append, List.length_cons]
  omega

/-- Shows the next bytes, as many as a size says, or fewer at the end. -/
def peek (below : Reader σ) (size : Option Int) : Act (Lookahead × σ) Bytes :=
  fun (front, state) =>
    if front.closed then .error .streamClosed (front, state)
    else match size with
      | none => .error .noSize (front, state)
      | some size =>
        match fill below size.toNat front state with
        | .error fault after => .error fault after
        | .ok () (front, after) => .ok (upTo size front.peeked) (front, after)

/-- Reads the next bytes. -/
def read (below : Reader σ) (size : Option Nat) : Act (Lookahead × σ) Bytes :=
  fun (front, state) =>
    if front.closed then .error .streamClosed (front, state)
    else match size, front.peeked with
      | some size, byte :: more =>
        .ok ((byte :: more).take size) ({ front with peeked := (byte :: more).drop size }, state)
      | size, peeked =>
        match below.read size state with
        | .error fault after => .error fault (front, after)
        | .ok given after => .ok (peeked ++ given) ({ front with peeked := [] }, after)

/-- A bound on the bytes that can still be given. -/
def left (below : Reader σ) (state : Lookahead × σ) : Nat :=
  state.1.peeked.length + below.left state.2

theorem read_thrifty (below : Reader σ) (size : Option Nat) :
    Thrifty (left below) List.length (read below size) := by
  rintro ⟨⟨peeked, closed⟩, state⟩
  have spent := below.thrifty size state
  have taken (given : Bytes) (after : σ) : below.read size state = .ok given after →
      (peeked ++ given).length + below.left after ≤ peeked.length + below.left state := by
    intro ended
    rw [ended] at spent
    simp only [Ending.Within, List.length_append] at spent ⊢
    omega
  unfold read
  dsimp only
  split
  · exact Nat.le_refl _
  · split
    · simp only [Ending.Within, left, List.length_take, List.length_drop]
      omega
    · split <;> rename_i ended
      · rw [ended] at spent
        exact Nat.add_le_add_left spent _
      · simpa [Ending.Within, left] using taken _ _ ended

/-- The bytes behind a lookahead, with those that it keeps in front. -/
def reader (below : Reader σ) : Reader (Lookahead × σ) where
  read := read below
  left := left below
  thrifty := read_thrifty below

end Lookahead

end DiskStaging
