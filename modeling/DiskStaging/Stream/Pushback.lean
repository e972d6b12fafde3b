import DiskStaging.Stream.Reader

/-!
# Putting bytes back

A decoder that is fed in blocks may find that it needed only the front of a block.
It puts the rest back, and the next reads take that rest before anything else.
-/

set_option autoImplicit false

namespace DiskStaging.Pushback

variable {σ : Type}

/-- Reads the next bytes, those that were put back first. A read that is covered
by them does not touch the reader below. -/
def read (below : Reader σ) (size : Option Nat) : Act (Option Bytes × σ) Bytes :=
  fun (kept, state) =>
    match kept with
    | none => Ending.inside (none, ·) (below.read size state)
    | some bytes =>
      if size.any (· ≤ bytes.length) then
        let count := size.getD 0
        .ok (bytes.take count) (some (bytes.drop count), state)
      else
        match below.read (size.map (· - bytes.length)) state with
        | .error fault after => .error fault (none, after)
        | .ok given after => .ok (bytes ++ given) (none, after)

/-- Puts bytes back in front of all others. -/
def putBack (bytes : Bytes) : Act (Option Bytes × σ) Unit := fun (kept, state) =>
  .ok () (some (bytes ++ kept.getD []), state)

/-- The bytes of a reader, with those that were put back in front. -/
def reader (below : Reader σ) : Reader (Option Bytes × σ) where
  read := read below
  left state := (state.1.getD []).length + below.left state.2
  thrifty size := by
    rintro ⟨kept, state⟩
    cases kept with
    | none =>
      have spent := below.thrifty size state
      simp only [read]
      cases ended : below.read size state <;> rw [ended] at spent <;>
        simpa [Ending.Within, Ending.inside] using spent
    | some bytes =>
      simp only [read]
      split
      · simp only [Ending.Within, Option.getD_some, List.length_take, List.length_drop]
        omega
      · have spent := below.thrifty (size.map (· - bytes.length)) state
        cases ended : below.read (size.map (· - bytes.length)) state <;> rw [ended] at spent <;>
          simp only [Ending.Within, Option.getD_some, Option.getD_none, List.length_nil,
            List.length_append] at spent ⊢ <;> omega

/-- What is put back can be read again. -/
theorem left_putBack (below : Reader σ) (bytes : Bytes) (state : Option Bytes × σ) :
    (reader below).left (Ending.state (putBack bytes state)) =
      bytes.length + (reader below).left state := by
  simp [reader, putBack, Ending.state, Nat.add_assoc]

theorem putBack_within (below : Reader σ) (bytes : Bytes) (state : Option Bytes × σ) :
    Ending.Within (reader below).left (fun _ => 0) (bytes.length + (reader below).left state)
      (putBack bytes state) := by
  simp [reader, putBack, Ending.Within, Nat.add_assoc]

end DiskStaging.Pushback
