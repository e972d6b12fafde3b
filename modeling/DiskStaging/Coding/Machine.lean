/-!
# Decoding machines

A decoder reads a byte stream that arrives in pieces and hands its output out
in pieces. It is described here one move at a time: in every state it asks for
a byte, puts a byte, goes on silently, or halts. Nothing in a machine depends
on where a piece of input ends or how much room there is for output; that is
the business of `run`, which makes moves until the input is used up, the room
is used up, or the machine halts.

A machine comes with a credit. Silent moves and output spend credit, and a
byte of input earns at most a fixed gain. So every run ends, and the number of
bytes a run can put is bounded by the credit and the length of the input.
-/

set_option autoImplicit false

namespace DiskStaging.Coding

/-- What a decoder does next. -/
inductive Move (ε σ : Type) where
  /-- Takes one byte of input. -/
  | ask (next : UInt8 → σ)
  /-- Puts one byte of output. -/
  | put (byte : UInt8) (next : σ)
  /-- Goes on without input or output. -/
  | think (next : σ)
  /-- Goes on silently, but only while there is room for output. -/
  | pause (next : σ)
  /-- The encoded data is complete. -/
  | stop (last : σ)
  /-- The encoded data is broken. -/
  | fail (why : ε)

/-- The same move of a machine that `f` embeds into another one. -/
@[inline] def Move.map {ε σ τ : Type} (f : σ → τ) : Move ε σ → Move ε τ
  | .ask next => .ask fun byte => f (next byte)
  | .put byte next => .put byte (f next)
  | .think next => .think (f next)
  | .pause next => .pause (f next)
  | .stop last => .stop (f last)
  | .fail why => .fail why

/-- A move that respects the credit `paid` of the state it is made in: going on
silently and putting a byte cost credit, and taking a byte adds less than `gain`. -/
def Move.Sound {ε σ : Type} (credit : σ → Nat) (gain paid : Nat) : Move ε σ → Prop
  | .ask next => ∀ byte, credit (next byte) < paid + gain
  | .put _ next | .think next | .pause next => credit next < paid
  | .stop last => credit last ≤ paid
  | .fail _ => True

/-- A decoder with states `σ` and faults `ε`, whose moves are paid for by a credit. -/
class Machine (ε : outParam Type) (σ : Type) where
  /-- The move the machine makes in a state. -/
  move : σ → Move ε σ
  /-- Bounds the moves that the machine makes before it next asks for a byte. -/
  credit : σ → Nat
  /-- Bounds what one byte of input adds to the credit. -/
  gain : Nat
  sound : ∀ state, (move state).Sound credit gain (credit state)

/-- A machine between two pieces of input: the move that it is about to make,
and the credit of the state it makes it in. -/
structure Pending (ε σ : Type) [Machine ε σ] where
  paid : Nat
  next : Move ε σ
  sound : next.Sound Machine.credit (Machine.gain σ) paid

/-- The machine in the given state. -/
@[noinline] def Pending.of {ε σ : Type} [Machine ε σ] (state : σ) : Pending ε σ :=
  ⟨Machine.credit state, Machine.move state, Machine.sound state⟩

/-- Why a run came to its end. -/
inductive Halt (ε : Type) where
  /-- The machine asks for a byte and there is none left. -/
  | starved
  /-- The machine waits for room to put a byte. -/
  | full
  /-- The encoded data is complete. -/
  | stopped
  /-- The encoded data is broken. -/
  | failed (why : ε)
  deriving DecidableEq, Repr

/-- What broke a run off. -/
def Halt.fault? {ε : Type} : Halt ε → Option ε
  | .failed why => some why
  | _ => none

/-- Where a run left the machine, the input and the output. -/
structure Run (ε σ : Type) [Machine ε σ] where
  /-- All bytes put so far. -/
  written : Array UInt8
  /-- The input that was not taken. -/
  rest : List UInt8
  machine : Pending ε σ
  halt : Halt ε

variable {ε σ : Type} [Machine ε σ]

/-- Runs a machine on the given input, with room for that many bytes, and
appends what it puts to `written`. -/
@[specialize] def run (machine : Pending ε σ) (input : List UInt8) (room : Nat)
    (written : Array UInt8) : Run ε σ :=
  match machine with
  | ⟨paid, .ask next, sound⟩ =>
    match input with
    | [] => ⟨written, [], ⟨paid, .ask next, sound⟩, .starved⟩
    | byte :: rest => run (.of (next byte)) rest room written
  | ⟨paid, .put byte next, sound⟩ =>
    if room = 0 then ⟨written, input, ⟨paid, .put byte next, sound⟩, .full⟩
    else run (.of next) input (room - 1) (written.push byte)
  | ⟨_, .think next, _sound⟩ => run (.of next) input room written
  | ⟨paid, .pause next, sound⟩ =>
    if room = 0 then ⟨written, input, ⟨paid, .pause next, sound⟩, .full⟩
    else run (.of next) input room written
  | ⟨paid, .stop last, sound⟩ => ⟨written, input, ⟨paid, .stop last, sound⟩, .stopped⟩
  | ⟨paid, .fail why, sound⟩ => ⟨written, input, ⟨paid, .fail why, sound⟩, .failed why⟩
termination_by Machine.gain σ * input.length + machine.paid
decreasing_by
  all_goals simp only [Pending.of, Move.Sound, List.length_cons, Nat.mul_succ] at *
  · have := sound byte
    omega
  all_goals omega

/-- Whether a machine has come to the end of its data. -/
def Pending.stopped (machine : Pending ε σ) : Bool :=
  match machine.next with
  | .stop _ => true
  | _ => false

/-! ## What a run costs -/

/-- A bound on the bytes that a machine can still put, given how many bytes of
input are left. -/
def Pending.potential (machine : Pending ε σ) (input : Nat) : Nat :=
  Machine.gain σ * input + machine.paid

/-- What a run puts is paid for, and a run takes bytes from the front of its input. -/
theorem run_potential (machine : Pending ε σ) (input : List UInt8) (room : Nat)
    (written : Array UInt8) :
    (run machine input room written).rest.length ≤ input.length ∧
      (run machine input room written).written.size +
          (run machine input room written).machine.potential
            (run machine input room written).rest.length ≤
        written.size + machine.potential input.length := by
  fun_induction run machine input room written with
  | case1 | case3 | case6 | case8 | case9 => simp [Pending.potential]
  | case2 room written paid next sound byte rest ih =>
    have gained := sound byte
    simp only [Pending.potential, Pending.of, List.length_cons, Nat.mul_succ] at ih ⊢
    omega
  | case4 input room written paid byte next sound space ih =>
    simp only [Move.Sound] at sound
    simp only [Pending.potential, Pending.of, Array.size_push] at ih ⊢
    omega
  | case5 input room written paid next sound ih
  | case7 input room written paid next sound space ih =>
    simp only [Move.Sound] at sound
    simp only [Pending.potential, Pending.of] at ih ⊢
    omega

/-- A run only adds to what was written before. -/
theorem size_le_run (machine : Pending ε σ) (input : List UInt8) (room : Nat)
    (written : Array UInt8) : written.size ≤ (run machine input room written).written.size := by
  fun_induction run machine input room written with
  | case1 | case3 | case6 | case8 | case9 => simp
  | case2 room written paid next sound byte rest ih => exact ih
  | case4 input room written paid byte next sound space ih =>
    exact Nat.le_trans (by simp) ih
  | case5 input room written paid next sound ih => exact ih
  | case7 input room written paid next sound space ih => exact ih

/-- A run that has input and room and does not find the data at its end or broken
puts something or brings the machine closer to its end. -/
theorem run_advances (machine : Pending ε σ) (byte : UInt8) (rest : List UInt8) (room : Nat)
    (written : Array UInt8) (space : 0 < room) (going : machine.stopped = false)
    (sane : (run machine (byte :: rest) room written).halt.fault? = none) :
    written.size < (run machine (byte :: rest) room written).written.size ∨
      (run machine (byte :: rest) room written).machine.potential
          (run machine (byte :: rest) room written).rest.length <
        machine.potential (byte :: rest).length := by
  obtain ⟨paid, next, sound⟩ := machine
  cases next with
  | ask next =>
    have later := (run_potential (.of (next byte)) rest room written).2
    have kept := size_le_run (.of (next byte)) rest room written
    have gained := sound byte
    rw [run.eq_def]
    simp only [Pending.potential, Pending.of, List.length_cons, Nat.mul_succ] at later kept ⊢
    omega
  | put output next =>
    have kept := size_le_run (.of next) (byte :: rest) (room - 1) (written.push output)
    rw [run.eq_def]
    simp only [Nat.ne_of_gt space, if_false]
    simp only [Array.size_push] at kept
    exact .inl kept
  | think next =>
    have later := (run_potential (.of next) (byte :: rest) room written).2
    have kept := size_le_run (.of next) (byte :: rest) room written
    simp only [Move.Sound] at sound
    rw [run.eq_def]
    simp only [Pending.potential, Pending.of] at later kept ⊢
    omega
  | pause next =>
    have later := (run_potential (.of next) (byte :: rest) room written).2
    have kept := size_le_run (.of next) (byte :: rest) room written
    simp only [Move.Sound] at sound
    rw [run.eq_def]
    simp only [Nat.ne_of_gt space, if_false]
    simp only [Pending.potential, Pending.of] at later kept ⊢
    omega
  | stop last => simp [Pending.stopped] at going
  | fail why => simp [run, Halt.fault?] at sane

end DiskStaging.Coding
