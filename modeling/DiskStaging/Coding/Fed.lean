import DiskStaging.Bytes
import DiskStaging.Coding.Machine

/-!
# Machines that are fed in blocks

A fed machine keeps the input that it did not take, and knows whether it can do
anything without more of it: it may if input is left, and also if it stopped
because there was no more room for output.
-/

set_option autoImplicit false

namespace DiskStaging.Coding

/-- A machine that is fed in blocks. -/
structure Fed (ε σ : Type) [Machine ε σ] where
  machine : Pending ε σ
  /-- The input that was not taken. -/
  held : Bytes
  /-- Whether the machine can do nothing without more input. -/
  hungry : Bool

namespace Fed

variable {ε σ : Type} [Machine ε σ]

/-- A machine that was given no input yet. -/
def fresh (state : σ) : Fed ε σ := ⟨.of state, [], true⟩

/-- A machine that failed and cannot go on. -/
def broken (stale : ε) : Pending ε σ := ⟨0, .fail stale, trivial⟩

/-- What input was decoded to, and what the machine is then. -/
structure Decoded (ε σ : Type) [Machine ε σ] where
  feed : Fed ε σ
  given : Bytes
  fault : Option ε

/-- What came of a run of a machine. -/
def ofRun (stale : ε) (hungry : Bool) (room : Nat) (ran : Run ε σ) : Decoded ε σ :=
  match ran.halt.fault? with
  | some why => ⟨⟨broken stale, [], hungry⟩, [], some why⟩
  | none =>
    let hungry := ran.rest.isEmpty && ran.written.size < room
    ⟨⟨ran.machine, ran.rest, hungry⟩, ran.written.toList, none⟩

/-- Decodes a block of input, behind what is held, into at most `room` bytes. After
a fault, every attempt to decode is met with the fault `stale`. -/
@[specialize] def decode (stale : ε) (feed : Fed ε σ) (block : Bytes) (room : Nat) :
    Decoded ε σ :=
  match feed with
  | ⟨machine, held, hungry⟩ => ofRun stale hungry room (run machine (held ++ block) room #[])

/-! ## What decoding costs -/

/-- A bound on what a machine can still give with that much input. A machine that
may go on without input counts for more than one that waits for it. -/
def bound (feed : Fed ε σ) (input : Nat) : Nat :=
  2 * feed.machine.potential input + (!feed.machine.stopped && !feed.hungry).toNat

theorem bound_mono (feed : Fed ε σ) {few many : Nat} (le : few ≤ many) :
    feed.bound few ≤ feed.bound many := by
  have worth := Nat.mul_le_mul_left (Machine.gain σ) le
  simp only [bound, Pending.potential]
  omega

/-- A fresh machine that is given the input of another one can give no more than that. -/
theorem bound_fresh_le {state : σ} (free : Machine.credit state = 0) (feed : Fed ε σ)
    (input : Nat) : (fresh state).bound input ≤ feed.bound input := by
  simp [bound, fresh, Pending.potential, Pending.of, free]
  omega

/-- A machine that failed can give no more than before. -/
theorem decode_bound_of_fault (stale : ε) (feed : Fed ε σ) (block : Bytes) (room more : Nat)
    (going : feed.machine.stopped = false) {why : ε}
    (failed : (decode stale feed block room).fault = some why) :
    (decode stale feed block room).feed.bound
        ((decode stale feed block room).feed.held.length + more) ≤
      feed.bound ((feed.held ++ block).length + more) := by
  obtain ⟨machine, held, hungry⟩ := feed
  have worth := Nat.mul_le_mul_left (Machine.gain σ) (Nat.le_add_left more (held ++ block).length)
  rw [decode] at failed ⊢
  generalize run machine (held ++ block) room #[] = ran at failed ⊢
  unfold ofRun at failed ⊢
  split at failed
  · simp only [bound, going]
    simp only [Pending.potential, Pending.stopped, broken, List.length_nil, Nat.zero_add]
    omega
  · cases failed

/-- What is decoded is paid for by the input. If nothing is, the bound decreases. -/
theorem decode_bound (stale : ε) (feed : Fed ε σ) (block : Bytes) {room : Nat}
    (space : 0 < room) (more : Nat) (going : feed.machine.stopped = false)
    (fed : feed.hungry = true → feed.held ++ block ≠ [])
    (sane : (decode stale feed block room).fault = none) :
    max 1 (decode stale feed block room).given.length +
        (decode stale feed block room).feed.bound
          ((decode stale feed block room).feed.held.length + more) ≤
      feed.bound ((feed.held ++ block).length + more) := by
  obtain ⟨machine, held, hungry⟩ := feed
  obtain ⟨shorter, paid⟩ := run_potential machine (held ++ block) room #[]
  have advances (byte : UInt8) (rest : Bytes) := run_advances machine byte rest room #[] space going
  rw [decode] at sane ⊢
  dsimp only at going fed
  generalize held ++ block = input at *
  have advance : input ≠ [] → (run machine input room #[]).halt.fault? = none →
      0 < (run machine input room #[]).written.size ∨
        (run machine input room #[]).machine.potential (run machine input room #[]).rest.length <
          machine.potential input.length := by
    intro some unbroken
    obtain ⟨byte, tail, rfl⟩ := List.exists_cons_of_ne_nil some
    exact advances byte tail unbroken
  clear advances
  generalize run machine input room #[] = ran at *
  obtain ⟨written, rest, after, halt⟩ := ran
  unfold ofRun at sane ⊢
  dsimp only at shorter paid advance sane ⊢
  split at sane
  · cases sane
  · rename_i unbroken
    simp only [Pending.potential, List.size_toArray, List.length_nil, Nat.zero_add] at paid
    simp only [bound, Pending.potential, going, Nat.mul_add, Array.length_toList]
    by_cases empty : input = []
    · subst empty
      obtain rfl : rest = [] := by simpa using shorter
      obtain rfl : hungry = false := by simpa using fed
      have room :
          (!after.stopped && !(([] : Bytes).isEmpty && decide (written.size < room))).toNat ≤
            written.size := by
        by_cases some : written.size < room
        · simp [some]
        · exact Nat.le_trans (Bool.toNat_le _) (by omega)
      simp only [List.length_nil, Nat.mul_zero, Nat.zero_add, Bool.not_false, Bool.and_self,
        Bool.toNat_true] at paid room ⊢
      omega
    · have ahead := advance empty unbroken
      have slack := Bool.toNat_le
        (!after.stopped && !(rest.isEmpty && decide (written.size < room)))
      simp only [Pending.potential] at ahead
      omega

end Fed

end DiskStaging.Coding
