import DiskStaging.Stream.Reader

/-!
# Buffered reading

A raw reader gives what it has, be it less than was asked for. Behind a buffer,
a read gives as many bytes as asked for unless the end comes first. Whole blocks
go past the buffer; what is left to read is read into the buffer, which is filled
up to one block. When the raw reader breaks off, the bytes that were gathered for
this read are lost.

The bytes of a read are gathered in one piece, which is set aside before anything is
read. So a size that does not fit is refused, whatever there is to be read. Of sizes
that fit, there is taken to be memory enough.
-/

set_option autoImplicit false

namespace DiskStaging.Buffered

variable {ρ : Type}

/-- Reads whole blocks as long as the number of bytes still wanted covers one.
Gives what was gathered and how many bytes are still wanted, none at the end. -/
def blocks (raw : Reader ρ) (wanted : Nat) (gathered : Array UInt8) (state : ρ) :
    Ending ρ (Array UInt8 × Option Nat) :=
  if wanted < blockSize then .ok (gathered, some wanted) state
  else
    match _read : raw.read (some (wanted / blockSize * blockSize)) state with
    | .error fault after => .error fault after
    | .ok [] after => .ok (gathered, none) after
    | .ok (byte :: more) after =>
      blocks raw (wanted - (byte :: more).length) (gathered ++ byte :: more) after
termination_by raw.left state
decreasing_by exact raw.left_lt_of_read _read

/-- Reads into the buffer, which holds `filled` bytes already, until it has the
bytes still wanted, and takes these out. -/
def top (raw : Reader ρ) (wanted filled : Nat) (gathered : Array UInt8) (state : ρ) :
    Ending (Bytes × ρ) Bytes :=
  if wanted = 0 then .ok gathered.toList ([], state)
  else
    match _read : raw.read (some (blockSize - filled)) state with
    | .error fault after => .error fault ([], after)
    | .ok [] after => .ok gathered.toList ([], after)
    | .ok (byte :: more) after =>
      let given := byte :: more
      if wanted ≤ given.length then
        .ok (gathered ++ given.take wanted).toList (given.drop wanted, after)
      else top raw (wanted - given.length) (filled + given.length) (gathered ++ given) after
termination_by raw.left state
decreasing_by exact raw.left_lt_of_read _read

/-- Takes as many bytes as asked for, or all, out of the buffer and the raw reader. -/
def take (raw : Reader ρ) (size : Option Nat) : Act (Bytes × ρ) Bytes := fun (kept, state) =>
  match size with
  | none =>
    match raw.drain none kept.toArray state with
    | .error fault after => .error fault ([], after)
    | .ok all after => .ok all.toList ([], after)
  | some size =>
    if size ≤ kept.length then .ok (kept.take size) (kept.drop size, state)
    else
      match blocks raw (size - kept.length) kept.toArray state with
      | .error fault after => .error fault ([], after)
      | .ok (gathered, none) after => .ok gathered.toList ([], after)
      | .ok (gathered, some wanted) after => top raw wanted 0 gathered after

/-- Reads as many bytes as asked for, or all, if they fit into one piece. The buffer never
keeps more than a block, so it does not spare a size that does not fit. -/
def read (raw : Reader ρ) (size : Option Nat) : Act (Bytes × ρ) Bytes :=
  if Excessive size then throw (.tooLarge (size.getD 0)) else take raw size

theorem blocks_within (raw : Reader ρ) (wanted : Nat) (gathered : Array UInt8) (state : ρ) :
    (blocks raw wanted gathered state).Within raw.left (·.1.size)
      (gathered.size + raw.left state) := by
  fun_induction blocks raw wanted gathered state with
  | case1 => exact Nat.le_refl _
  | case2 wanted gathered state big fault after read =>
    have spent := raw.thrifty (some (wanted / blockSize * blockSize)) state
    rw [read] at spent
    exact Nat.le_add_left_of_le spent
  | case3 wanted gathered state big after read =>
    have spent := raw.thrifty (some (wanted / blockSize * blockSize)) state
    rw [read] at spent
    simpa [Ending.Within] using spent
  | case4 wanted gathered state big byte more after read ih =>
    have spent := raw.thrifty (some (wanted / blockSize * blockSize)) state
    rw [read] at spent
    simp only [Ending.Within, List.length_cons] at spent
    refine ih.mono ?_
    rw [Reader.size_append, List.length_cons]
    omega

theorem top_within (raw : Reader ρ) (wanted filled : Nat) (gathered : Array UInt8) (state : ρ) :
    (top raw wanted filled gathered state).Within (fun after => after.1.length + raw.left after.2)
      List.length (gathered.size + raw.left state) := by
  fun_induction top raw wanted filled gathered state with
  | case1 => simp [Ending.Within]
  | case2 wanted filled gathered state some fault after read =>
    have spent := raw.thrifty (.some (blockSize - filled)) state
    rw [read] at spent
    simp only [Ending.Within, List.length_nil] at spent ⊢
    omega
  | case3 wanted filled gathered state some after read =>
    have spent := raw.thrifty (.some (blockSize - filled)) state
    rw [read] at spent
    simpa [Ending.Within] using spent
  | case4 wanted filled gathered state some byte more after read given enough =>
    have spent := raw.thrifty (.some (blockSize - filled)) state
    rw [read] at spent
    change given.length + _ ≤ _ at spent
    simp only [Ending.Within, Array.length_toList, Reader.size_append, List.length_take,
      List.length_drop]
    omega
  | case5 wanted filled gathered state some byte more after read given few ih =>
    have spent := raw.thrifty (.some (blockSize - filled)) state
    rw [read] at spent
    change given.length + _ ≤ _ at spent
    refine ih.mono ?_
    rw [Reader.size_append]
    omega

/-- A bound on the bytes that can still be given. -/
def left (raw : Reader ρ) (state : Bytes × ρ) : Nat := state.1.length + raw.left state.2

theorem take_thrifty (raw : Reader ρ) (size : Option Nat) :
    Thrifty (left raw) List.length (take raw size) := by
  rintro ⟨kept, state⟩
  cases size with
  | none =>
    have spent := raw.drain_within none kept.toArray state
    simp only [take]
    cases ended : raw.drain none kept.toArray state <;> rw [ended] at spent <;>
      simpa [Ending.Within, left] using spent
  | some size =>
    unfold take
    dsimp only
    split
    · simp only [Ending.Within, left, List.length_take, List.length_drop]
      omega
    · have spent := blocks_within raw (size - kept.length) kept.toArray state
      cases ended : blocks raw (size - kept.length) kept.toArray state with
      | error fault after =>
        rw [ended] at spent
        simpa [Ending.Within, left] using spent
      | ok value after =>
        rw [ended] at spent
        obtain ⟨gathered, _ | wanted⟩ := value
        · simpa [Ending.Within, left] using spent
        · exact (top_within raw wanted 0 gathered after).mono spent

/-- The bytes of a raw reader, with those in the buffer in front. -/
def reader (raw : Reader ρ) : Reader (Bytes × ρ) where
  read := read raw
  left := left raw
  thrifty size := by
    unfold read
    split
    · exact .throw _ _
    · exact take_thrifty raw size

end DiskStaging.Buffered
