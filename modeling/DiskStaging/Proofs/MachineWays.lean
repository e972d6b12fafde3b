import DiskStaging.Proofs.WholeRuns

/-!
# Ways of machines

A way leads a machine from one state to another, and says what input it takes and what output
it puts in between. An uninterrupted run on input that begins so goes this way (`Way.finish`).
Ways are put together one after the other (`Way.trans`), and the ways of a machine are ways of
every machine that it is a part of (`Way.inside`). So what a format decodes to can be told part
by part.
-/

set_option autoImplicit false

namespace DiskStaging.Coding

variable {ε σ τ : Type} [Machine ε σ] [Machine ε τ]

/-- A machine gets from one state to another while it takes some input and puts some output. It
waits for room only where it goes on to put something. -/
inductive Way : σ → List UInt8 → List UInt8 → σ → Prop
  | here (state : σ) : Way state [] [] state
  | ask {state last : σ} {asked : UInt8 → σ} {byte : UInt8} {input output : List UInt8}
    (moves : Machine.move state = .ask asked) (on : Way (asked byte) input output last) :
    Way state (byte :: input) output last
  | put {state next last : σ} {byte : UInt8} {input output : List UInt8}
    (moves : Machine.move state = .put byte next) (on : Way next input output last) :
    Way state input (byte :: output) last
  | think {state next last : σ} {input output : List UInt8}
    (moves : Machine.move state = .think next) (on : Way next input output last) :
    Way state input output last
  | pause {state next last : σ} {input output : List UInt8}
    (moves : Machine.move state = .pause next) (some : output ≠ [])
    (on : Way next input output last) : Way state input output last

namespace Way

variable {state middle last : σ} {input more output others : List UInt8}

/-- One way goes on where another one ends. -/
theorem trans (way : Way state input output middle) (on : Way middle more others last) :
    Way state (input ++ more) (output ++ others) last := by
  induction way with
  | here => exact on
  | ask moves _ ih => exact .ask moves (ih on)
  | put moves _ ih => exact .put moves (ih on)
  | think moves _ ih => exact .think moves (ih on)
  | pause moves some _ ih => exact .pause moves (List.append_ne_nil_of_left_ne_nil some _) (ih on)

/-- A way that puts nothing can stand in front of any other one. -/
theorem first (way : Way state input [] middle) (on : Way middle more output last) :
    Way state (input ++ more) output last :=
  way.trans on

/-- **An uninterrupted run goes the way that its input leads.** -/
theorem finish (way : Way state input output last) (rest : List UInt8) :
    Coding.finish (.of state) (input ++ rest) =
      (Coding.finish (.of last) rest).behind output := by
  induction way with
  | here => rfl
  | @ask state last asked byte input output moves _ ih =>
    rw [List.cons_append, finish_ask _ moves, ih]
  | put moves _ ih => rw [finish_put _ moves, ih, Finished.behind_behind, List.singleton_append]
  | think moves _ ih => rw [finish_think _ moves, ih]
  | pause moves _ _ ih =>
    rw [finish_of, moves]
    exact ih

/-- A way to the end of the data leaves what is behind them. -/
theorem finish_stop (way : Way state input output last) (stops : Machine.move last = .stop last)
    (rest : List UInt8) : Coding.finish (.of state) (input ++ rest) = ⟨output, rest, .of last⟩ := by
  rw [way.finish, finish_stopped (stopped_of stops), Finished.behind, List.append_nil]

/-- **The ways of a part are ways of the whole**, if the whole moves as its part does until that
comes to its end. -/
theorem inside (way : Way state input output last) (place : σ → τ)
    (same : ∀ state : σ, (∀ last, Machine.move state ≠ .stop last) →
      Machine.move (place state) = (Machine.move state).map place) :
    Way (place state) input output (place last) := by
  induction way with
  | here => exact .here _
  | @ask state _ _ _ _ _ moves _ ih =>
    have placed := same state (by rw [moves]; nofun)
    rw [moves] at placed
    exact .ask placed ih
  | @put state _ _ _ _ _ moves _ ih =>
    have placed := same state (by rw [moves]; nofun)
    rw [moves] at placed
    exact .put placed ih
  | @think state _ _ _ _ moves _ ih =>
    have placed := same state (by rw [moves]; nofun)
    rw [moves] at placed
    exact .think placed ih
  | @pause state _ _ _ _ moves some _ ih =>
    have placed := same state (by rw [moves]; nofun)
    rw [moves] at placed
    exact .pause placed some ih

/-- A machine that gathers bytes, last byte first, until none is missing. -/
theorem gather (gathering : Nat → List UInt8 → σ) (done : List UInt8 → σ)
    (moves : ∀ missing gathered, Machine.move (gathering missing gathered) =
      .ask fun byte => if missing > 1 then gathering (missing - 1) (byte :: gathered)
        else done (byte :: gathered))
    {bytes : List UInt8} (some : bytes ≠ []) (gathered : List UInt8) :
    Way (gathering bytes.length gathered) bytes [] (done (gathered.reverse ++ bytes).reverse) := by
  induction bytes generalizing gathered with
  | nil => exact absurd rfl some
  | cons byte rest ih =>
    refine .ask (moves _ _) ?_
    cases rest with
    | nil =>
      rw [List.reverse_append, List.reverse_reverse]
      exact .here _
    | cons next more =>
      have on := ih (List.cons_ne_nil _ _) (byte :: gathered)
      rw [List.reverse_cons, List.append_assoc, List.singleton_append] at on
      rw [if_pos (by simp)]
      exact on

end Way

end DiskStaging.Coding
