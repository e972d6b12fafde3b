import DiskStaging.Coding.Machine

/-!
# Runs without interruption

A machine that is given all its input at once, and room for whatever it puts, runs
until the input is used up or it comes to its end. A run that is interrupted, for
want of input or of room, and later goes on does the same: what it put so far comes
in front of what an uninterrupted run puts from where it is (`finish_run`). So it
makes no difference how often a run is interrupted.
-/

set_option autoImplicit false

namespace DiskStaging.Coding

variable {ε σ : Type} [Machine ε σ]

/-- Where an uninterrupted run left the machine and the input, and what it put. -/
structure Finished (ε σ : Type) [Machine ε σ] where
  written : List UInt8
  /-- The input that was not taken. -/
  rest : List UInt8
  machine : Pending ε σ

/-- The same run with more in front of what it put. -/
def Finished.behind (given : List UInt8) (finished : Finished ε σ) : Finished ε σ :=
  { finished with written := given ++ finished.written }

theorem Finished.behind_behind (first second : List UInt8) (finished : Finished ε σ) :
    (finished.behind second).behind first = finished.behind (first ++ second) := by
  simp only [behind, List.append_assoc]

/-- Runs a machine on all its input, with room for all its output. -/
def finish (machine : Pending ε σ) (input : List UInt8) : Finished ε σ :=
  match machine with
  | ⟨paid, .ask next, sound⟩ =>
    match input with
    | [] => ⟨[], [], ⟨paid, .ask next, sound⟩⟩
    | byte :: rest => finish (.of (next byte)) rest
  | ⟨_, .put byte next, _sound⟩ => (finish (.of next) input).behind [byte]
  | ⟨_, .think next, _sound⟩ => finish (.of next) input
  | ⟨_, .pause next, _sound⟩ => finish (.of next) input
  | ⟨paid, .stop last, sound⟩ => ⟨[], input, ⟨paid, .stop last, sound⟩⟩
  | ⟨paid, .fail why, sound⟩ => ⟨[], input, ⟨paid, .fail why, sound⟩⟩
termination_by Machine.gain σ * input.length + machine.paid
decreasing_by
  all_goals simp only [Pending.of, Move.Sound, List.length_cons, Nat.mul_succ] at *
  · have gained := sound byte
    omega
  all_goals omega

/-! ## Single moves -/

section Moves

variable {state next : σ} (input : List UInt8)

/-- How a run goes on is told by the first move of the machine. -/
theorem finish_of (state : σ) :
    finish (.of state) input =
      match Machine.move state with
      | .ask next =>
        match input with
        | [] => ⟨[], [], .of state⟩
        | byte :: rest => finish (.of (next byte)) rest
      | .put byte next => (finish (.of next) input).behind [byte]
      | .think next | .pause next => finish (.of next) input
      | .stop _ | .fail _ => ⟨[], input, .of state⟩ := by
  unfold Pending.of
  generalize Machine.sound state = sound
  generalize Machine.move state = move at sound
  cases move with
  | ask next =>
    cases input with
    | nil => rw [finish]
    | cons byte rest => rw [finish]; rfl
  | put byte next | think next | pause next => rw [finish]; rfl
  | stop last | fail why => rw [finish]

theorem finish_think (moves : Machine.move state = .think next) :
    finish (.of state) input = finish (.of next) input := by
  rw [finish_of, moves]

theorem finish_put {byte : UInt8} (moves : Machine.move state = .put byte next) :
    finish (.of state) input = (finish (.of next) input).behind [byte] := by
  rw [finish_of, moves]

theorem finish_ask {asked : UInt8 → σ} (moves : Machine.move state = .ask asked) (byte : UInt8) :
    finish (.of state) (byte :: input) = finish (.of (asked byte)) input := by
  rw [finish_of, moves]

theorem stopped_of {last : σ} (moves : Machine.move state = .stop last) :
    (Pending.of state).stopped = true := by
  simp only [Pending.stopped, Pending.of, moves]

end Moves

/-! ## Runs -/

/-- What is not taken is the end of the input. -/
theorem finish_rest_suffix (machine : Pending ε σ) (input : List UInt8) :
    (finish machine input).rest <:+ input := by
  fun_induction finish machine input with
  | case1 => exact List.suffix_rfl
  | case2 paid next sound byte rest ih => exact ih.trans (List.suffix_cons byte rest)
  | case3 input paid byte next sound ih => exact ih
  | case4 input paid next sound ih => exact ih
  | case5 input paid next sound ih => exact ih
  | case6 => exact List.suffix_rfl
  | case7 => exact List.suffix_rfl

/-- A machine that has come to its end takes no input. -/
theorem finish_stopped {machine : Pending ε σ} (stopped : machine.stopped = true)
    (input : List UInt8) : finish machine input = ⟨[], input, machine⟩ := by
  obtain ⟨paid, next, sound⟩ := machine
  cases next with
  | stop last => rw [finish]
  | ask | put | think | pause | fail => cases stopped

/-- A run on more input goes on from where it was on the first part of it. -/
theorem finish_append (machine : Pending ε σ) (input more : List UInt8) :
    finish machine (input ++ more) =
      (finish (finish machine input).machine ((finish machine input).rest ++ more)).behind
        (finish machine input).written := by
  fun_induction finish machine input with
  | case1 | case6 | case7 => rfl
  | case2 paid next sound byte rest ih =>
    rw [List.cons_append, finish]
    exact ih
  | case3 input paid byte next sound ih =>
    rw [finish, ih, Finished.behind_behind]
    rfl
  | case4 input paid next sound ih | case5 input paid next sound ih =>
    rw [finish]
    exact ih

/-- What a run puts comes first of what a run on more input puts. -/
theorem finish_written_prefix (machine : Pending ε σ) (input more : List UInt8) :
    (finish machine input).written <+: (finish machine (input ++ more)).written := by
  rw [finish_append]
  exact List.prefix_append ..

/-- **An interrupted run goes on as if it had not been interrupted.** -/
theorem finish_run (machine : Pending ε σ) (input more : List UInt8) (room : Nat)
    (written : Array UInt8) :
    ∃ given, (run machine input room written).written.toList = written.toList ++ given ∧
      finish machine (input ++ more) =
        (finish (run machine input room written).machine
          ((run machine input room written).rest ++ more)).behind given := by
  fun_induction run machine input room written with
  | case1 | case3 | case6 | case8 | case9 => exact ⟨[], (List.append_nil _).symm, rfl⟩
  | case2 room written paid next sound byte rest ih =>
    obtain ⟨given, content, same⟩ := ih
    refine ⟨given, content, ?_⟩
    rw [List.cons_append, finish]
    exact same
  | case4 input room written paid byte next sound space ih =>
    obtain ⟨given, content, same⟩ := ih
    refine ⟨byte :: given, ?_, ?_⟩
    · rw [content, Array.toList_push, List.append_assoc, List.singleton_append]
    · rw [finish, same, Finished.behind_behind, List.singleton_append]
  | case5 input room written paid next sound ih =>
    obtain ⟨given, content, same⟩ := ih
    refine ⟨given, content, ?_⟩
    rw [finish]
    exact same
  | case7 input room written paid next sound space ih =>
    obtain ⟨given, content, same⟩ := ih
    refine ⟨given, content, ?_⟩
    rw [finish]
    exact same

/-- A run puts no more than there is room for. -/
theorem size_run_le (machine : Pending ε σ) (input : List UInt8) (room : Nat)
    (written : Array UInt8) :
    (run machine input room written).written.size ≤ written.size + room := by
  fun_induction run machine input room written with
  | case1 | case3 | case6 | case8 | case9 => exact Nat.le_add_right ..
  | case2 room written paid next sound byte rest ih => exact ih
  | case4 input room written paid byte next sound space ih =>
    rw [Array.size_push] at ih
    omega
  | case5 input room written paid next sound ih => exact ih
  | case7 input room written paid next sound space ih => exact ih

/-- What a machine has found wrong with its data. -/
def Pending.fault? (machine : Pending ε σ) : Option ε :=
  match machine.next with
  | .fail why => some why
  | _ => none

theorem Pending.going_of_fault {machine : Pending ε σ} {why : ε}
    (broken : machine.fault? = some why) : machine.stopped = false := by
  obtain ⟨paid, next, sound⟩ := machine
  cases next with
  | fail => rfl
  | ask | put | think | pause | stop => cases broken

/-- A machine that has found its data broken does nothing more. -/
theorem finish_broken {machine : Pending ε σ} {why : ε} (broken : machine.fault? = some why)
    (input : List UInt8) : finish machine input = ⟨[], input, machine⟩ := by
  obtain ⟨paid, next, sound⟩ := machine
  cases next with
  | fail => rw [finish]
  | ask | put | think | pause | stop => cases broken

/-- A run that finds the data broken leaves a machine that knows. -/
theorem fault?_run {machine : Pending ε σ} {input : List UInt8} {room : Nat}
    {written : Array UInt8} {why : ε}
    (failed : (run machine input room written).halt.fault? = some why) :
    (run machine input room written).machine.fault? = some why := by
  fun_induction run machine input room written with
  | case1 | case3 | case6 | case8 => cases failed
  | case2 room written paid next sound byte rest ih => exact ih failed
  | case4 input room written paid byte next sound space ih => exact ih failed
  | case5 input room written paid next sound ih => exact ih failed
  | case7 input room written paid next sound space ih => exact ih failed
  | case9 => exact failed

/-- A machine that has found its data broken never comes to their end. -/
theorem finish_failed {machine : Pending ε σ} {input : List UInt8} {room : Nat}
    {written : Array UInt8} {why : ε}
    (failed : (run machine input room written).halt.fault? = some why) (more : List UInt8) :
    (finish (run machine input room written).machine more).machine.stopped = false := by
  rw [finish_broken (fault?_run failed)]
  exact Pending.going_of_fault (fault?_run failed)

/-- A run that has room left and still goes on does nothing more without input. -/
theorem finish_starved {machine : Pending ε σ} {input : List UInt8} {room : Nat}
    {written : Array UInt8}
    (spare : (run machine input room written).written.size < written.size + room)
    (sane : (run machine input room written).halt.fault? = none)
    (going : (run machine input room written).machine.stopped = false) :
    (finish (run machine input room written).machine []).machine.stopped = false := by
  fun_induction run machine input room written with
  | case1 => rw [finish]; rfl
  | case2 room written paid next sound byte rest ih => exact ih spare sane going
  | case3 => exact absurd spare (Nat.lt_irrefl _)
  | case4 input room written paid byte next sound space ih =>
    refine ih ?_ sane going
    rw [Array.size_push]
    omega
  | case5 input room written paid next sound ih => exact ih spare sane going
  | case6 => exact absurd spare (Nat.lt_irrefl _)
  | case7 input room written paid next sound space ih => exact ih spare sane going
  | case8 => cases going
  | case9 => cases sane

end DiskStaging.Coding
