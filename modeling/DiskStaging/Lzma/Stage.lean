import DiskStaging.Lzma.Branch
import DiskStaging.Lzma.Delta

/-!
# Filters behind the chunks of a block

Data may have gone through several filters before it was packed, and each of
them is undone by a stage. The first stage takes the unpacked bytes, every other
one what the stage before it hands on, and bytes that the last one hands on are
the content. A stage may hold some bytes back; at the end of the data it hands
them on as they are.
-/

set_option autoImplicit false

namespace DiskStaging.Lzma

/-- A filter that data may go through before it is packed: differences of bytes a
fixed distance apart, or absolute targets of branches in code that starts at a
given position. -/
inductive Filter where
  | delta (distance : Nat)
  | branch (set : InstructionSet) (position : Nat)
  deriving DecidableEq, Repr

/-- Whether the filter can be undone: code has to start where an instruction may. -/
def Filter.isUsable : Filter → Bool
  | .delta _ => true
  | .branch set position => position % set.stride = 0

/-- A filter that is being undone. -/
inductive Stage where
  | delta (coding : Delta)
  | branch (code : Branch)

namespace Stage

/-- The stage that undoes a filter, before any data. -/
def undo : Filter → Stage
  | .delta distance => .delta (.start distance)
  | .branch set position => .branch (.start set (UInt32.ofNat position))

/-- The bytes that a stage holds back. -/
def held : Stage → Bytes
  | .delta _ => []
  | .branch code => code.held

/-- What a stage hands on for one more byte. -/
def step : Stage → UInt8 → Bytes × Stage
  | .delta coding, byte =>
    let (byte, coding) := coding.decode byte
    ([byte], .delta coding)
  | .branch code, byte =>
    let (decoded, code) := code.step byte
    (decoded, .branch code)

/-- What a stage hands on for several bytes. -/
def feed : Stage → Bytes → Bytes × Stage
  | stage, [] => ([], stage)
  | stage, byte :: rest =>
    let (first, stage) := stage.step byte
    let (later, stage) := feed stage rest
    (first ++ later, stage)

/-- What the last of several stages hands on. -/
def feedAll : List Stage → Bytes → Bytes × List Stage
  | [], bytes => (bytes, [])
  | stage :: rest, bytes =>
    let (bytes, stage) := stage.feed bytes
    let (bytes, rest) := feedAll rest bytes
    (bytes, stage :: rest)

/-- What the last of several stages hands on at the end of the data, given what
the first one still takes. -/
def finishAll : List Stage → Bytes → Bytes
  | [], bytes => bytes
  | stage :: rest, bytes =>
    let (bytes, stage) := stage.feed bytes
    finishAll rest (bytes ++ stage.held)

/-- How many bytes several stages hold back. -/
def heldByAll : List Stage → Nat
  | [] => 0
  | stage :: rest => stage.held.length + heldByAll rest

/-! ## Stages keep the number of bytes -/

@[simp] theorem heldByAll_undo (filters : List Filter) : heldByAll (filters.map undo) = 0 := by
  induction filters with
  | nil => rfl
  | cons filter rest ih => cases filter <;> simpa [heldByAll, held, undo, Branch.start] using ih

theorem length_step (stage : Stage) (byte : UInt8) :
    (stage.step byte).1.length + (stage.step byte).2.held.length = stage.held.length + 1 := by
  cases stage with
  | delta coding => simp [step, held]
  | branch code => exact code.length_step byte

theorem length_feed (stage : Stage) (bytes : Bytes) :
    (stage.feed bytes).1.length + (stage.feed bytes).2.held.length =
      stage.held.length + bytes.length := by
  induction bytes generalizing stage with
  | nil => simp [feed]
  | cons byte rest ih =>
    have first := stage.length_step byte
    have later := ih (stage.step byte).2
    simp only [feed, List.length_append, List.length_cons]
    omega

theorem length_feedAll (stages : List Stage) (bytes : Bytes) :
    (feedAll stages bytes).1.length + heldByAll (feedAll stages bytes).2 =
      heldByAll stages + bytes.length := by
  induction stages generalizing bytes with
  | nil => simp [feedAll, heldByAll]
  | cons stage rest ih =>
    have first := stage.length_feed bytes
    have later := ih (stage.feed bytes).1
    simp only [feedAll, heldByAll]
    omega

/-- At the end nothing stays behind. -/
theorem length_finishAll (stages : List Stage) (bytes : Bytes) :
    (finishAll stages bytes).length = heldByAll stages + bytes.length := by
  induction stages generalizing bytes with
  | nil => simp [finishAll, heldByAll]
  | cons stage rest ih =>
    have first := stage.length_feed bytes
    simp only [finishAll, heldByAll, ih, List.length_append]
    omega

end Stage

end DiskStaging.Lzma
