import DiskStaging.Fault

/-!
# Reading bytes

An action works on a state and ends with a value or a fault; either way it leaves
a state behind. A reader is a way to get the next bytes out of a state. It comes
with a bound on what it can still give, and no read gives more than it takes off
that bound. So whoever reads until nothing comes is sure to get there.

The size that a reader is asked for may be any number. What gives all the bytes of a
size in one piece cannot do that for sizes that do not fit (`Excessive`).

What holds of the reads of a reader often holds of all that is put together from them.
Then it is a `Congruence`, and what is proved of congruences holds of it.
-/

set_option autoImplicit false

namespace DiskStaging

/-- An action on a state: it ends with a value or with a fault. -/
abbrev Act (σ α : Type) := EStateM Fault σ α

/-- How an action ended. -/
abbrev Ending (σ α : Type) := EStateM.Result Fault σ α

/-- The state that an action left. -/
def Ending.state {σ α : Type} : Ending σ α → σ
  | .ok _ state => state
  | .error _ state => state

/-- The same ending, with the states placed inside larger ones. -/
def Ending.inside {σ τ α : Type} (place : σ → τ) : Ending σ α → Ending τ α
  | .ok value state => .ok value (place state)
  | .error fault state => .error fault (place state)

/-! ## Actions within a budget -/

/-- The ending keeps within some funds: the cost of its value and the budget of the
state that it left are covered by them. -/
def Ending.Within {σ α : Type} (budget : σ → Nat) (cost : α → Nat) (funds : Nat) :
    Ending σ α → Prop
  | .ok value after => cost value + budget after ≤ funds
  | .error _ after => budget after ≤ funds

/-- An action that spends no more than it has: what its value costs, it takes off
the budget of the state. -/
def Thrifty {σ α : Type} (budget : σ → Nat) (cost : α → Nat) (act : Act σ α) : Prop :=
  ∀ state, Ending.Within budget cost (budget state) (act state)

theorem Ending.Within.mono {σ α : Type} {budget : σ → Nat} {cost : α → Nat} {funds more : Nat}
    {ending : Ending σ α} (within : ending.Within budget cost funds) (le : funds ≤ more) :
    ending.Within budget cost more := by
  cases ending <;> exact Nat.le_trans within le

theorem Ending.Within.inside {σ τ α : Type} {budget : σ → Nat} {outer : τ → Nat} {cost : α → Nat}
    {funds : Nat} {ending : Ending σ α} (within : Ending.Within budget cost funds ending)
    (place : σ → τ) (same : ∀ state, outer (place state) = budget state) :
    Ending.Within outer cost funds (Ending.inside place ending) := by
  cases ending <;> simpa only [Ending.inside, Ending.Within, same] using within

namespace Thrifty

variable {σ α β : Type} {budget : σ → Nat}

theorem pure (value : α) : Thrifty budget (fun _ => 0) (Pure.pure value : Act σ α) :=
  fun state => by simp [Pure.pure, EStateM.pure, Ending.Within]

theorem throw (cost : α → Nat) (fault : Fault) :
    Thrifty budget cost (MonadExcept.throw fault : Act σ α) :=
  fun _ => Nat.le_refl _

/-- The next action may spend what the value before it cost. -/
theorem spend {first : Act σ α} {next : α → Act σ β} {price : α → Nat} {cost : β → Nat}
    (thrifty : Thrifty budget price first)
    (rest : ∀ value state,
      Ending.Within budget cost (price value + budget state) (next value state)) :
    Thrifty budget cost (first >>= next) := by
  intro state
  have spent := thrifty state
  simp only [Bind.bind, EStateM.bind]
  cases ended : first state with
  | ok value after =>
    rw [ended] at spent
    exact (rest value after).mono spent
  | error fault after =>
    rw [ended] at spent
    exact spent

/-- After an action that costs nothing, the whole budget is there for the next one. -/
theorem bind {first : Act σ α} {next : α → Act σ β} {cost : β → Nat}
    (free : Thrifty budget (fun _ => 0) first) (rest : ∀ value, Thrifty budget cost (next value)) :
    Thrifty budget cost (first >>= next) :=
  free.spend fun value state => (rest value state).mono (Nat.le_add_left _ _)

/-- An action whose value costs something also costs nothing. -/
theorem free {cost : α → Nat} {act : Act σ α} (thrifty : Thrifty budget cost act) :
    Thrifty budget (fun _ => 0) act := by
  intro state
  have spent := thrifty state
  cases ended : act state <;> rw [ended] at spent <;> simp only [Ending.Within] at spent ⊢ <;> omega

end Thrifty

/-- What a turn costs that either gives bytes or has to be followed by another turn. -/
def turnCost : Option Bytes → Nat
  | none => 1
  | some given => given.length

/-- Takes turns until one gives bytes. -/
def untilGiven {σ : Type} {budget : σ → Nat} (turn : Act σ (Option Bytes))
    (thrifty : Thrifty budget turnCost turn) (state : σ) : Ending σ Bytes :=
  match _taken : turn state with
  | .error fault after => .error fault after
  | .ok (some given) after => .ok given after
  | .ok none after => untilGiven turn thrifty after
termination_by budget state
decreasing_by
  have spent := thrifty state
  rw [_taken] at spent
  simp only [Ending.Within, turnCost] at spent
  omega

theorem untilGiven_thrifty {σ : Type} {budget : σ → Nat} {turn : Act σ (Option Bytes)}
    (thrifty : Thrifty budget turnCost turn) :
    Thrifty budget List.length (untilGiven turn thrifty) := by
  intro state
  fun_induction untilGiven turn thrifty state with
  | case1 state fault after taken | case2 state given after taken =>
    have spent := thrifty state
    rw [taken] at spent
    exact spent
  | case3 state after taken ih =>
    have spent := thrifty state
    rw [taken] at spent
    exact ih.mono (Nat.le_of_add_left_le spent)

/-! ## Readers -/

/-- A way to read bytes out of a state. -/
structure Reader (σ : Type) where
  /-- Reads the next bytes, at most as many as asked for, or as many as there are
  if no number is given. No bytes mean the end. -/
  read : Option Nat → Act σ Bytes
  /-- A bound on the bytes that reads can still give. -/
  left : σ → Nat
  thrifty : ∀ size, Thrifty left List.length (read size)

/-- The number of bytes that a size asks for: a negative one asks for all. -/
def sizeAsked : Option Int → Option Nat
  | none => none
  | some size => if size < 0 then none else some size.toNat

/-- The size of the blocks in which data are read. -/
def blockSize : Nat := 8192

/-- The most bytes that a piece may have. What holds a piece counts as well. -/
def largestPiece : Nat := largestCount - 33

/-- More bytes are asked for than fit into one piece. Whoever asks for all that there are
does not say how many. -/
def Excessive : Option Nat → Prop
  | none => False
  | some size => largestPiece < size

instance : DecidablePred Excessive
  | none => inferInstanceAs (Decidable False)
  | some size => inferInstanceAs (Decidable (largestPiece < size))

namespace Reader

variable {σ : Type}

theorem left_lt_of_read {reader : Reader σ} {size : Option Nat} {state after : σ}
    {byte : UInt8} {more : Bytes} (read : reader.read size state = .ok (byte :: more) after) :
    reader.left after < reader.left state := by
  have spent := reader.thrifty size state
  rw [read] at spent
  simp only [Ending.Within, List.length_cons] at spent
  omega

/-- What came of reading until nothing came. -/
structure Poured (σ : Type) where
  content : Array UInt8
  /-- What broke the reading off, if it did not come to the end. -/
  fault : Option Fault
  state : σ

/-- Reads until nothing comes, and appends it all to `gathered`. -/
def pour (reader : Reader σ) (size : Option Nat) (gathered : Array UInt8) (state : σ) : Poured σ :=
  match _read : reader.read size state with
  | .error fault after => ⟨gathered, some fault, after⟩
  | .ok [] after => ⟨gathered, none, after⟩
  | .ok (byte :: more) after => pour reader size (gathered ++ byte :: more) after
termination_by reader.left state
decreasing_by exact reader.left_lt_of_read _read

/-- Reads until nothing comes, and gives it all behind `gathered`. -/
def drain (reader : Reader σ) (size : Option Nat) (gathered : Array UInt8) : Act σ (Array UInt8) :=
  fun state =>
    match reader.pour size gathered state with
    | ⟨_, some fault, after⟩ => .error fault after
    | ⟨content, none, after⟩ => .ok content after

theorem size_append (bytes : Array UInt8) (more : Bytes) :
    (bytes ++ more).size = bytes.size + more.length := by
  rw [← Array.length_toList, Array.toList_appendList, List.length_append, Array.length_toList]

/-- What is read is taken off what is left. -/
theorem left_pour (reader : Reader σ) (size : Option Nat) (gathered : Array UInt8) (state : σ) :
    (reader.pour size gathered state).content.size +
        reader.left (reader.pour size gathered state).state ≤
      gathered.size + reader.left state := by
  fun_induction pour reader size gathered state with
  | case1 gathered state fault after read | case2 gathered state after read =>
    have spent := reader.thrifty size state
    rw [read] at spent
    simp only [Ending.Within, List.length_nil] at spent ⊢
    omega
  | case3 gathered state byte more after read ih =>
    have spent := reader.thrifty size state
    rw [read] at spent
    rw [size_append, List.length_cons] at ih
    simp only [Ending.Within, List.length_cons] at spent
    omega

theorem drain_within (reader : Reader σ) (size : Option Nat) (gathered : Array UInt8)
    (state : σ) : Ending.Within reader.left Array.size (gathered.size + reader.left state)
      (reader.drain size gathered state) := by
  have spent := reader.left_pour size gathered state
  rcases poured : reader.pour size gathered state with ⟨content, _ | fault, after⟩ <;>
    rw [poured] at spent <;> simp only [drain, poured, Ending.Within] at spent ⊢ <;> omega

/-- Reads on until `size` bytes are gathered, and reports data that ends before. -/
def complete (reader : Reader σ) (size : Nat) (gathered : Bytes) (state : σ) : Ending σ Bytes :=
  if _short : gathered.length < size then
    match reader.read (some (size - gathered.length)) state with
    | .error fault after => .error fault after
    | .ok [] after => .error .cutShort after
    | .ok (byte :: more) after => complete reader size (gathered ++ byte :: more) after
  else .ok gathered state
termination_by size - gathered.length
decreasing_by
  simp only [List.length_append, List.length_cons]
  omega

/-- Reads exactly `size` bytes. -/
def exactly (reader : Reader σ) (size : Nat) : Act σ Bytes := do
  let first ← reader.read (some size)
  complete reader size first

/-- Reads single bytes up to the first one that is wanted, which is given; at the
end of the data none is. -/
def skipTo (reader : Reader σ) (wanted : UInt8 → Bool) (state : σ) : Ending σ (Option UInt8) :=
  match _read : reader.read (some 1) state with
  | .error fault after => .error fault after
  | .ok [] after => .ok none after
  | .ok (byte :: _) after =>
    if wanted byte then .ok (some byte) after else skipTo reader wanted after
termination_by reader.left state
decreasing_by exact reader.left_lt_of_read _read

theorem complete_within (reader : Reader σ) (size : Nat) (gathered : Bytes) (state : σ) :
    (reader.complete size gathered state).Within reader.left (fun bytes => max size bytes.length)
      (gathered.length + reader.left state) := by
  fun_induction complete reader size gathered state with
  | case1 gathered state short fault after read | case2 gathered state short after read =>
    have spent := reader.thrifty (some (size - gathered.length)) state
    rw [read] at spent
    simp only [Ending.Within, List.length_nil] at spent ⊢
    omega
  | case3 gathered state short byte more after read ih =>
    have spent := reader.thrifty (some (size - gathered.length)) state
    rw [read] at spent
    simp only [Ending.Within, List.length_cons] at spent
    refine ih.mono ?_
    simp only [List.length_append, List.length_cons]
    omega
  | case4 gathered state enough =>
    simp only [Ending.Within]
    omega

/-- Reading exactly some bytes takes these off what is left. -/
theorem exactly_thrifty (reader : Reader σ) (size : Nat) :
    Thrifty reader.left (fun _ => size) (reader.exactly size) := by
  intro state
  have spent := reader.thrifty (some size) state
  simp only [exactly, Bind.bind, EStateM.bind]
  cases read : reader.read (some size) state with
  | error fault after =>
    rw [read] at spent
    exact spent
  | ok first after =>
    rw [read] at spent
    have later := (reader.complete_within size first after).mono spent
    dsimp only
    cases ended : reader.complete size first after <;> rw [ended] at later
    · simp only [Ending.Within] at later ⊢
      omega
    · exact later

theorem skipTo_thrifty (reader : Reader σ) (wanted : UInt8 → Bool) :
    Thrifty reader.left (·.toList.length) (reader.skipTo wanted) := by
  intro state
  fun_induction skipTo reader wanted state with
  | case1 state fault after read | case2 state after read =>
    have spent := reader.thrifty (some 1) state
    rw [read] at spent
    exact spent
  | case3 state byte more after read found =>
    have spent := reader.left_lt_of_read read
    simp only [Ending.Within, Option.toList_some, List.length_singleton]
    omega
  | case4 state byte more after read other ih =>
    exact ih.mono (Nat.le_of_lt (reader.left_lt_of_read read))

/-! ## Relating what is put together -/

/-- A relation between actions on two readers that holds of what is put together from
related actions. Of a single reader, it may be a property of actions. -/
structure Congruence {τ : Type} (first : Reader σ) (second : Reader τ)
    (related : (α : Type) → Act σ α → Act τ α → Prop) : Prop where
  pure : ∀ {α : Type} (value : α), related α (Pure.pure value) (Pure.pure value)
  throw : ∀ {α : Type} (fault : Fault),
    related α (MonadExcept.throw fault) (MonadExcept.throw fault)
  bind : ∀ {α β : Type} {act : Act σ α} {other : Act τ α} {next : α → Act σ β}
    {following : α → Act τ β}, related α act other →
      (∀ value, related β (next value) (following value)) →
        related β (act >>= next) (other >>= following)
  exactly : ∀ size, related Bytes (first.exactly size) (second.exactly size)
  skipTo : ∀ wanted, related (Option UInt8) (first.skipTo wanted) (second.skipTo wanted)

/-- What is put together from reads gives back nothing that it has taken. -/
theorem thrifty_congruence (reader : Reader σ) :
    Congruence reader reader fun _ act _ => Thrifty reader.left (fun _ => 0) act where
  pure := .pure
  throw := .throw _
  bind := .bind
  exactly size := (reader.exactly_thrifty size).free
  skipTo wanted := (reader.skipTo_thrifty wanted).free

end Reader

end DiskStaging
