import DiskStaging.Proofs.Serving
import DiskStaging.Stream.Buffered
import DiskStaging.Stream.Pushback

/-!
# Buffers serve what is behind them

Bytes that were put back, and bytes that a buffer keeps, come in front of those of
the reader behind. With these in front, the bytes of the reader are served on
(`Pushback.serves`, `Buffered.serves`). A buffer that breaks off loses what it had
gathered, so that neither of the two is steady. What a buffer is given may also depend on
how it asks: it goes on from what it gave where the reader behind it does
(`Buffered.thorough`). In any case it gives as many bytes as are asked for, or all.

A buffer refuses sizes that do not fit, and then everything stays as it is
(`Buffered.read_excessive`). So it serves what fits, and nothing else.
-/

set_option autoImplicit false

namespace DiskStaging

variable {σ : Type} {holds : σ → Bytes → Prop} {whole : Bool}

namespace Pushback

/-! ## Bytes that were put back -/

/-- What was put back comes in front of what the state below holds. -/
def Holds (holds : σ → Bytes → Prop) : Option Bytes × σ → Bytes → Prop := fun (kept, state) bytes =>
  ∃ rest, bytes = kept.getD [] ++ rest ∧ holds state rest

theorem serves {below : Reader σ} (served : below.Serves holds whole) :
    (reader below).Serves (Holds holds) whole := by
  rintro size ⟨kept, state⟩ _ ⟨rest, rfl, held⟩
  cases kept with
  | none =>
    refine (served size state rest held).inside (none, ·) ?_
    intro after more kept
    exact ⟨more, rfl, kept⟩
  | some bytes =>
    simp only [reader, read]
    split
    · rename_i covered
      obtain ⟨count, rfl, fits⟩ := (Option.any_eq_true ..).mp covered
      refine served_take ?_ ⟨rest, rfl, held⟩
      rintro rfl
      exact Nat.le_zero.mp (of_decide_eq_true fits)
    · rename_i uncovered
      have given := served (size.map (· - bytes.length)) state rest held
      cases read : below.read (size.map (· - bytes.length)) state with
      | error fault after =>
        rw [read] at given
        exact given
      | ok more after =>
        rw [read] at given
        obtain ⟨within, last, further, rfl, kept⟩ := given
        refine ⟨?_, ?_, further, (List.append_assoc ..).symm, further, rfl, kept⟩
        · rintro limit ⟨⟩
          have part := within (limit - bytes.length) rfl
          have short : bytes.length < limit := by simpa using uncovered
          rw [List.length_append]
          omega
        · intro nothing asked
          obtain ⟨rfl, rfl⟩ := List.append_eq_nil_iff.mp nothing
          exact last rfl (by simpa using asked)

end Pushback

namespace Buffered

/-! ## Buffered reading -/

variable {raw : Reader σ} {past : σ → Bytes → Prop} {ends : Bytes → Prop} {breaks : Prop}

theorem read_fitting {size : Option Nat} (fits : ¬ Excessive size) (state : Bytes × σ) :
    (reader raw).read size state = take raw size state := by
  simp only [reader, read, if_neg fits]

/-- What does not fit is refused, whatever is there. -/
theorem read_excessive {size : Option Nat} (excessive : Excessive size) (state : Bytes × σ) :
    (reader raw).read size state = .error (.tooLarge (size.getD 0)) state := by
  simp only [reader, read, if_pos excessive]
  rfl

/-- What the buffer keeps comes in front of what the state behind it holds. -/
def Holds (holds : σ → Bytes → Prop) : Bytes × σ → Bytes → Prop := fun (kept, state) bytes =>
  ∃ rest, bytes = kept ++ rest ∧ holds state rest

/-- What the buffer keeps was given to it, and has not been given yet. -/
def Past (past : σ → Bytes → Prop) : Bytes × σ → Bytes → Prop := fun (kept, state) given =>
  past state (given ++ kept)

theorem past_amid (holds : σ → Bytes → Prop) (all : Bytes) :
    Past (Amid holds all) = Amid (Holds holds) all := by
  funext ⟨kept, state⟩ given
  refine propext ⟨?_, ?_⟩
  · rintro ⟨rest, split, held⟩
    exact ⟨kept ++ rest, by rw [split, List.append_assoc], rest, rfl, held⟩
  · rintro ⟨_, split, rest, rfl, held⟩
    exact ⟨rest, by rw [split, List.append_assoc], held⟩

/-- What reading whole blocks gathers: what comes next until less than a block is
wanted, or all there may be. -/
def Gathered (past : σ → Bytes → Prop) (ends : Bytes → Prop) (breaks : Prop) (given : Bytes)
    (wanted : Nat) : Ending σ (Array UInt8 × Option Nat) → Prop
  | .ok (all, none) after =>
    all.size ≤ wanted ∧ ends (given ++ all.toList) ∧ past after (given ++ all.toList)
  | .ok (all, some more) after =>
    more < blockSize ∧ all.size + more = wanted ∧ past after (given ++ all.toList)
  | .error _ _ => breaks

theorem blocks_gathered (continued : raw.Continues past ends fun _ => breaks) (wanted : Nat)
    (gathered : Array UInt8) {state : σ} {given : Bytes}
    (held : past state (given ++ gathered.toList)) :
    Gathered past ends breaks given (gathered.size + wanted)
      (blocks raw wanted gathered state) := by
  fun_induction blocks raw wanted gathered state with
  | case1 wanted gathered state few => exact ⟨few, rfl, held⟩
  | case2 wanted gathered state many fault after read => exact continued.broken held read
  | case3 wanted gathered state many after read =>
    have asked : some (wanted / blockSize * blockSize) ≠ some 0 := by
      intro none
      have zero := Option.some.inj none
      have block : 0 < wanted / blockSize :=
        Nat.div_pos (Nat.le_of_not_lt many) (by decide)
      exact absurd zero (Nat.ne_of_gt (Nat.mul_pos block (by decide)))
    exact ⟨Nat.le_add_right .., continued.end_of_nil held asked read⟩
  | case4 wanted gathered state many byte more after read ih =>
    have within := continued.length_le held read
    have fits := Nat.div_mul_le_self wanted blockSize
    have next := continued.given_append held read
    rw [List.append_assoc] at next
    have same : (gathered ++ byte :: more).size + (wanted - (byte :: more).length) =
        gathered.size + wanted := by
      rw [Reader.size_append]
      omega
    have later := ih (by rwa [Array.toList_appendList])
    rwa [same] at later

/-- Reading through the buffer gives what is wanted and keeps what comes behind that. -/
theorem top_thorough (continued : raw.Continues past ends fun _ => breaks) (wanted filled : Nat)
    (gathered : Array UInt8) (state : σ) (room : filled + wanted < blockSize) {given : Bytes} :
    past state (given ++ gathered.toList) →
      Ending.Thorough (Past past) ends breaks (some (gathered.size + wanted)) given
        (top raw wanted filled gathered state) := by
  fun_induction top raw wanted filled gathered state with
  | case1 filled gathered state =>
    intro held
    refine ⟨?_, ?_, ?_⟩
    · rintro _ ⟨⟩
      exact Nat.le_refl _
    · intro short
      exact absurd (short _ rfl) (Nat.lt_irrefl _)
    · rwa [Past, List.append_nil]
  | case2 wanted filled gathered state some fault after read =>
    intro held
    exact continued.broken held read
  | case3 wanted filled gathered state some after read =>
    intro held
    have asked : Option.some (blockSize - filled) ≠ Option.some 0 := by
      intro none
      have zero := Option.some.inj none
      omega
    obtain ⟨all, kept⟩ := continued.end_of_nil held asked read
    refine ⟨?_, fun _ => all, ?_⟩
    · rintro _ ⟨⟩
      rw [Array.length_toList]
      exact Nat.le_add_right ..
    · rwa [Past, List.append_nil]
  | case4 wanted filled gathered state some byte more after read next enough =>
    intro held
    have kept := continued.given_append held read
    have count : (gathered ++ next.take wanted).toList.length = gathered.size + wanted := by
      rw [Array.toList_appendList, List.length_append, Array.length_toList,
        List.length_take_of_le enough]
    refine ⟨?_, ?_, ?_⟩
    · rintro _ ⟨⟩
      exact Nat.le_of_eq count
    · intro short
      exact absurd (short _ rfl) (Nat.not_lt_of_ge (Nat.le_of_eq count.symm))
    · rwa [Past, Array.toList_appendList, List.append_assoc, List.append_assoc,
        List.take_append_drop, ← List.append_assoc]
  | case5 wanted filled gathered state some byte more after read next few ih =>
    intro held
    have kept := continued.given_append held read
    rw [List.append_assoc] at kept
    have within := ih (by omega) (by rwa [Array.toList_appendList])
    have same : (gathered ++ next).size + (wanted - next.length) = gathered.size + wanted := by
      rw [Reader.size_append]
      omega
    rwa [same] at within

/-- As many bytes as are asked for are taken out of the buffer and the reader behind it. -/
theorem take_thorough (continued : raw.Continues past ends fun _ => breaks) (size : Option Nat)
    {state : Bytes × σ} {given : Bytes} (held : Past past state given) :
    Ending.Thorough (Past past) ends breaks size given (take raw size state) := by
  obtain ⟨kept, state⟩ := state
  cases size with
  | none =>
    have asked : (none : Option Nat) ≠ some 0 := by
      intro zero
      cases zero
    have all := continued.pour asked kept.toArray held
    simp only [take, Reader.drain]
    rcases poured : raw.pour none kept.toArray state with ⟨content, _ | fault, after⟩ <;>
      rw [poured] at all
    · obtain ⟨every, last⟩ := all
      refine ⟨?_, fun _ => every, ?_⟩
      · rintro _ ⟨⟩
      · rwa [Past, List.append_nil]
    · exact all
  | some size =>
    simp only [take]
    split
    · rename_i covered
      have count : (kept.take size).length = size := List.length_take_of_le covered
      refine ⟨?_, ?_, ?_⟩
      · rintro _ ⟨⟩
        exact Nat.le_of_eq count
      · intro short
        exact absurd (short _ rfl) (Nat.not_lt_of_ge (Nat.le_of_eq count.symm))
      · rwa [Past, List.append_assoc, List.take_append_drop]
    · rename_i uncovered
      have total : kept.toArray.size + (size - kept.length) = size := by
        rw [List.size_toArray]
        omega
      have gathers : Gathered _ _ _ given _ (blocks raw (size - kept.length) kept.toArray state) :=
        blocks_gathered continued _ _ held
      rw [total] at gathers
      cases ended : blocks raw (size - kept.length) kept.toArray state with
      | error fault after =>
        rw [ended] at gathers
        exact gathers
      | ok value after =>
        rw [ended] at gathers
        obtain ⟨all, _ | wanted⟩ := value
        · obtain ⟨count, every, last⟩ := gathers
          refine ⟨?_, fun _ => every, ?_⟩
          · rintro _ ⟨⟩
            rwa [Array.length_toList]
          · rwa [Past, List.append_nil]
        · obtain ⟨few, count, last⟩ := gathers
          have through := top_thorough continued wanted 0 all after (by omega) last
          rwa [count] at through

theorem thorough (continued : raw.Continues past ends fun _ => breaks) :
    (reader raw).Thorough (Past past) ends fun size => breaks ∨ Excessive size := by
  intro size state given held
  by_cases excessive : Excessive size
  · rw [read_excessive excessive]
    exact .inr excessive
  · rw [read_fitting excessive]
    exact (take_thorough continued size held).mono .inl

theorem serves (served : raw.Serves holds whole) : (reader raw).ServesFully (Holds holds) whole :=
  fun all => past_amid holds all ▸ thorough (served.continues all)

end Buffered

end DiskStaging
