import DiskStaging.Proofs.Buffering
import DiskStaging.Proofs.GzipContents

/-!
# Reading gzip data serves their contents

However the data arrive and however they are asked for, reading them gives what they
decode to, and comes to an end only where the data are complete and whole
(`Gzip.serves`).

One thing depends on how bytes arrive: the magic of a member is asked for once, and
fewer bytes than asked for are taken for a wrong magic. Between two members the first
byte of the magic was put back and the second one is still to come, so the answer is
prompt there (`Prompt`); at the start, it is what was looked at before.
-/

set_option autoImplicit false

namespace DiskStaging.Gzip

open Coding Deflate

variable {σ φ : Type} {holds : φ → Bytes → Prop} {whole : Bool} {input : Reader φ}

/-! ## Headers and trailers -/

/-- A state in which a read of two bytes gives both, if there are so many. -/
def Prompt (input : Reader φ) (state : φ) (bytes : Bytes) : Prop :=
  ∀ given after, input.read (some 2) state = .ok given after → given = bytes.take 2

/-- At the end of the data, every answer is prompt. -/
theorem prompt_nil (serves : input.Serves holds whole) {state : φ} (held : holds state []) :
    Prompt input state [] := by
  intro given after read
  obtain ⟨rest, split, -⟩ := serves.given_append held read
  exact (List.append_eq_nil_iff.mp split.symm).1

/-- Where the answer is prompt, reading a header does not depend on how bytes arrive. -/
theorem readHeader_matches (serves : input.Serves holds whole) {state : φ} {bytes : Bytes}
    (held : holds state bytes) (prompt : Prompt input state bytes) :
    Ending.Matches holds whole (readHeader input state) (readHeader Reader.plain bytes) := by
  have magic : Ending.Matches holds whole (input.read (some 2) state)
      (Reader.plain.read (some 2) bytes) := by
    rw [Reader.plain_read]
    cases read : input.read (some 2) state with
    | error fault after => exact serves.broken held read
    | ok given after =>
      obtain ⟨rest, split, kept⟩ := serves.given_append held read
      have first := prompt given after read
      have last : rest = bytes.drop 2 := by
        have both := split.symm.trans (List.take_append_drop 2 bytes).symm
        rw [first] at both
        exact List.append_cancel_left both
      exact ⟨first, last ▸ kept⟩
  rw [readHeader, readHeader]
  refine magic.bind fun magic => ?_
  split
  · exact .pure false
  · split
    · exact .throw _
    · exact readFixed_congr serves.congruence

/-- Behind its magic, a header is complete or faulty. -/
theorem found_of_readFixed {state after : φ} {found : Bool}
    (fixed : readFixed input state = .ok found after) : found = true := by
  obtain ⟨field, middle, -, rest⟩ := bind_eq_ok fixed
  split at rest
  · cases rest
  · obtain ⟨-, last, -, done⟩ := bind_eq_ok rest
    cases done
    rfl

/-- Only whole data end where a header may come. -/
theorem whole_of_readHeader (serves : input.Serves holds whole) {state after : φ} {bytes : Bytes}
    (held : holds state bytes) (header : readHeader input state = .ok false after) :
    bytes = [] ∧ whole = true ∧ holds after [] := by
  rw [readHeader] at header
  obtain ⟨magic, middle, read, rest⟩ := bind_eq_ok header
  split at rest
  · rename_i none
    obtain rfl : magic = [] := List.isEmpty_iff.mp none
    cases rest
    exact serves.end_of_nil held (by simp) read
  · split at rest
    · cases rest
    · exact absurd (found_of_readFixed rest) Bool.false_ne_true

/-! ## The end of a member -/

variable {below : Reader σ} {behind : σ → Bytes → Prop}

theorem skipped_eq (wanted : UInt8 → Bool) (bytes : Bytes) :
    Reader.skipped wanted bytes =
      match bytes.dropWhile (!wanted ·) with
      | [] => .ok none []
      | byte :: rest => .ok (some byte) rest := by
  induction bytes with
  | nil => rfl
  | cons byte rest ih =>
    cases found : wanted byte with
    | true => simp [Reader.skipped, found]
    | false => simpa [Reader.skipped, found] using ih

/-- Behind a byte that was put back, the answer is prompt. -/
theorem prompt_putBack (serves : below.Serves behind whole) {byte : UInt8} {kept : Option Bytes}
    {state : σ} {bytes : Bytes} (held : Pushback.Holds behind (kept, state) bytes) :
    Prompt (Pushback.reader below) (some (byte :: kept.getD []), state) (byte :: bytes) := by
  intro given after read
  obtain ⟨rest, rfl, last⟩ := held
  generalize kept.getD [] = front at read ⊢
  simp only [Pushback.reader, Pushback.read] at read
  split at read
  · rename_i covered
    cases read
    have enough : 2 ≤ (byte :: front).length := by simpa using covered
    rw [← List.cons_append, List.take_append_of_le_length enough]
    rfl
  · rename_i uncovered
    have few : ¬ 2 ≤ (byte :: front).length := by simpa using uncovered
    obtain rfl : front = [] := by
      cases front with
      | nil => rfl
      | cons second more => exact absurd (Nat.le_add_left 2 _) few
    cases further : below.read (some 1) state with
    | error fault last =>
      rw [show (some 2).map (· - [byte].length) = some 1 from rfl, further] at read
      cases read
    | ok more last =>
      rw [show (some 2).map (· - [byte].length) = some 1 from rfl, further] at read
      cases read
      cases more with
      | nil =>
        obtain ⟨rfl, -⟩ := serves.end_of_nil ‹behind state rest› (by simp) further
        rfl
      | cons second others =>
        obtain rfl := serves.nil_of_single ‹behind state rest› further
        obtain ⟨rest, rfl, -⟩ := serves.given_append ‹behind state _› further
        rfl

/-- Reading the end of a member leaves what comes behind it. -/
theorem readEnd_leaves (serves : below.Serves behind whole) (check : UInt32) (size : Nat)
    {state : Option Bytes × σ} {bytes : Bytes} (held : Pushback.Holds behind state bytes) :
    match readEnd below check size state with
    | .ok () after => ∃ rest, behind? check size bytes = some rest ∧
        Pushback.Holds behind after rest ∧ Prompt (Pushback.reader below) after rest
    | .error _ _ => whole = false ∨ behind? check size bytes = none := by
  have through := Pushback.serves serves
  have trailer := readTrailer_congr through.congruence check size state bytes held
  simp only [readEnd, Bind.bind, EStateM.bind, behind?]
  cases read : readTrailer (Pushback.reader below) check size state with
  | error fault after =>
    cases expected : readTrailer Reader.plain check size bytes with
    | ok value rest =>
      rw [read, expected] at trailer
      exact .inl trailer
    | error why rest => exact .inr rfl
  | ok value after =>
    cases expected : readTrailer Reader.plain check size bytes with
    | error why rest =>
      rw [read, expected] at trailer
      exact trailer.elim
    | ok value rest =>
      rw [read, expected] at trailer
      have padding := through.skipTo_matches (· ≠ 0) after rest trailer.2
      have zeros : (fun byte : UInt8 => !decide (byte ≠ 0)) = fun byte => decide (byte = 0) := by
        funext byte
        simp
      rw [skipped_eq, zeros] at padding
      dsimp only
      cases skip : (Pushback.reader below).skipTo (· ≠ 0) after with
      | error fault last =>
        rw [skip] at padding
        left
        split at padding
        · exact padding
        · exact padding
      | ok found last =>
        rw [skip] at padding
        split at padding
        · rename_i none
          obtain ⟨rfl, kept⟩ := padding
          exact ⟨_, rfl, none ▸ kept, none ▸ prompt_nil through kept⟩
        · rename_i byte further some
          obtain ⟨rfl, kept⟩ := padding
          refine ⟨_, rfl, ?_, ?_⟩
          · rw [some]
            obtain ⟨more, rfl, held⟩ := kept
            exact ⟨more, rfl, held⟩
          · rw [some]
            exact prompt_putBack serves kept

/-! ## Turns -/

/-- What is still to be given, from the present state of reading on. -/
def ahead (gzip : Gzip) (bytes : Bytes) : Contents :=
  if gzip.between then contents bytes
  else contentsOf (member gzip.inflate gzip.check gzip.size bytes)

/-- The state holds the content that what it was given below decodes to. It is all of
the content only if the data are complete and whole. -/
def Holds (below : Reader σ) (behind : σ → Bytes → Prop) (whole complete : Bool) :
    Gzip × (Option Bytes × σ) → Bytes → Prop := fun (gzip, input) content =>
  ∃ bytes, Pushback.Holds behind input bytes ∧ (gzip.ahead bytes).given = content ∧
    ((gzip.ahead bytes).complete && whole) = complete ∧
      (gzip.between = true →
        gzip.inflate = fresh ∧ Prompt (Pushback.reader below) input bytes)

section Turns

variable {complete : Bool} {state : Gzip × (Option Bytes × σ)} {content : Bytes}

/-- Ending a member changes nothing about what is still to be given. -/
theorem endMember_holds (serves : below.Serves behind whole)
    (held : Holds below behind whole complete state content) :
    match endMember below state with
    | .ok () after => Holds below behind whole complete after content
    | .error _ _ => complete = false := by
  obtain ⟨gzip, input⟩ := state
  obtain ⟨bytes, kept, rfl, rfl, start⟩ := held
  unfold endMember
  dsimp only
  by_cases stopped : gzip.inflate.stopped = true
  · have inside : gzip.between = false := by
      refine Bool.eq_false_iff.mpr fun between => ?_
      rw [(start between).1] at stopped
      cases stopped
    have same : gzip.ahead bytes =
        contentsOf ⟨[], behind? gzip.check gzip.size bytes⟩ := by
      rw [ahead, inside, if_neg Bool.false_ne_true, member_stopped stopped]
    have leaves := readEnd_leaves serves gzip.check gzip.size kept
    rw [if_pos stopped]
    cases ended : readEnd below gzip.check gzip.size input with
    | error fault after =>
      rw [ended] at leaves
      rcases leaves with cut | broken
      · rw [cut, Bool.and_false]
      · rw [same, broken]
        rfl
    | ok value after =>
      rw [ended] at leaves
      obtain ⟨rest, found, held, prompt⟩ := leaves
      have next : ({} : Gzip).ahead rest = gzip.ahead bytes := by
        rw [same, found]
        rfl
      exact ⟨rest, held, congrArg Contents.given next,
        congrArg (fun contents => contents.complete && whole) next, fun _ => ⟨rfl, prompt⟩⟩
  · rw [if_neg stopped]
    exact ⟨bytes, kept, rfl, rfl, start⟩

/-- Beginning a member changes nothing about what is still to be given, and finds no
member only where nothing is. -/
theorem beginMember_holds (serves : below.Serves behind whole)
    (held : Holds below behind whole complete state content) :
    match beginMember below state with
    | .ok true after => Holds below behind whole complete after content ∧ after.1.between = false
    | .ok false after =>
      Holds below behind whole complete after content ∧ content = [] ∧ complete = true
    | .error _ _ => complete = false := by
  obtain ⟨gzip, input⟩ := state
  obtain ⟨bytes, kept, rfl, rfl, start⟩ := held
  unfold beginMember
  dsimp only
  by_cases between : gzip.between = true
  · obtain ⟨new, prompt⟩ := start between
    have through := Pushback.serves serves
    have header := readHeader_matches through kept prompt
    have same : gzip.ahead bytes = contents bytes := by rw [ahead, if_pos between]
    rw [if_pos between, same, contents_eq]
    cases read : readHeader (Pushback.reader below) input with
    | error fault after =>
      rw [read] at header
      cases expected : readHeader Reader.plain bytes with
      | ok found rest =>
        rw [expected] at header
        dsimp only
        rw [show whole = false from header, Bool.and_false]
      | error why rest => rfl
    | ok found after =>
      rw [read] at header
      cases expected : readHeader Reader.plain bytes with
      | error why rest =>
        rw [expected] at header
        exact header.elim
      | ok wanted rest =>
        rw [expected] at header
        obtain ⟨rfl, held⟩ := header
        cases found with
        | false =>
          obtain ⟨-, all, last⟩ := whole_of_readHeader through kept read
          refine ⟨⟨[], last, ?_, ?_, fun _ => ⟨new, prompt_nil through last⟩⟩, rfl, ?_⟩
          · rw [ahead, if_pos between, contents_nil]
          · rw [ahead, if_pos between, contents_nil]
          · rw [all]
            rfl
        | true =>
          refine ⟨⟨rest, held, ?_, ?_, nofun⟩, rfl⟩
          · rw [ahead, if_neg Bool.false_ne_true, new]
          · rw [ahead, if_neg Bool.false_ne_true, new]
  · rw [if_neg between]
    exact ⟨⟨bytes, kept, rfl, rfl, start⟩, by simpa using between⟩

theorem putBack_holds {rest more : Bytes} {input : Option Bytes × σ}
    (held : Pushback.Holds behind input more) :
    Pushback.Holds behind (putBack rest input) (rest ++ more) := by
  obtain ⟨left, rfl, kept⟩ := held
  unfold putBack
  split
  · rename_i none
    rw [List.isEmpty_iff.mp none]
    exact ⟨left, rfl, kept⟩
  · exact ⟨left, (List.append_assoc ..).symm, kept⟩

/-- Decoding a block gives the next of the content, or leaves it all to be given. -/
theorem decodeBlock_turned (serves : below.Serves behind whole) {room : Nat} {size : Option Nat}
    (limit : ∀ most ∈ size, room ≤ most)
    (held : Holds below behind whole complete state content) (inside : state.1.between = false) :
    Ending.Turned (Holds below behind whole complete) complete size content
      (decodeBlock below room state) := by
  obtain ⟨gzip, input⟩ := state
  obtain ⟨bytes, kept, rfl, rfl, -⟩ := held
  have through := Pushback.serves serves
  have outside : gzip.between ≠ true := by simpa using inside
  unfold decodeBlock
  dsimp only
  cases read : (Pushback.reader below).read (some blockSize) input with
  | error fault after =>
    change (_ && whole) = false
    rw [through.broken kept read, Bool.and_false]
  | ok block after =>
    obtain ⟨more, split, last⟩ := through.given_append kept read
    have same := member_decode gzip block more room
    have faulty := fun why (failed : (decode gzip block room).fault = some why) =>
      member_of_fault failed more
    have fits := length_decode_le gzip block room
    have kind : (decode gzip block room).gzip.between = gzip.between := rfl
    have now : gzip.ahead bytes =
        contentsOf (member gzip.inflate gzip.check gzip.size (block ++ more)) := by
      rw [ahead, if_neg outside, split]
    rcases shape : decode gzip block room with ⟨next, given, rest, fault⟩
    simp only [shape] at same faulty fits kind
    have later : next.ahead (rest ++ more) =
        contentsOf (member next.inflate next.check next.size (rest ++ more)) := by
      rw [ahead, if_neg (kind ▸ outside)]
    have rests : gzip.ahead bytes = (next.ahead (rest ++ more)).behind given := by
      rw [now, same, contentsOf_behind, ← later]
    have going : Holds below behind whole ((gzip.ahead bytes).complete && whole)
        (next, putBack rest after) (next.ahead (rest ++ more)).given := by
      refine ⟨rest ++ more, putBack_holds last, rfl, ?_, ?_⟩
      · rw [rests]
        rfl
      · intro between
        exact absurd (kind ▸ between) outside
    cases fault with
    | some why =>
      simp only [shape]
      change (_ && whole) = false
      rw [now, complete_contentsOf (faulty why rfl), Bool.false_and]
    | none =>
      simp only [shape]
      by_cases nothing : given = []
      · subst nothing
        by_cases starved : block = []
        · subst starved
          obtain ⟨none, -, -⟩ := through.end_of_nil kept (by decide) read
          have empty : [] ++ more = ([] : Bytes) := split.symm.trans none
          change (_ && whole) = false
          rw [now, empty, complete_contentsOf (member_nil ..), Bool.false_and]
        · rw [if_neg (by simp), if_neg (by simpa using starved)]
          rw [rests] at going ⊢
          exact going
      · rw [if_pos (by simpa using nothing)]
        refine ⟨?_, fun empty => absurd empty nothing, _, ?_, going⟩
        · intro most asked
          exact Nat.le_trans fits (limit most asked)
        · rw [rests]
          rfl

/-- A turn gives the next of the content, or leaves it all to be given. -/
theorem turn_turned (serves : below.Serves behind whole) {room : Nat} {size : Option Nat}
    (limit : ∀ most ∈ size, room ≤ most)
    (held : Holds below behind whole complete state content) :
    Ending.Turned (Holds below behind whole complete) complete size content
      (turn below room state) := by
  have first := endMember_holds serves held
  simp only [turn, Bind.bind, EStateM.bind]
  cases ended : endMember below state with
  | error fault after =>
    rw [ended] at first
    exact first
  | ok value after =>
    rw [ended] at first
    have second := beginMember_holds serves first
    dsimp only
    cases begun : beginMember below after with
    | error fault last =>
      rw [begun] at second
      exact second
    | ok found last =>
      rw [begun] at second
      cases found with
      | true => exact decodeBlock_turned serves limit second.1 second.2
      | false =>
        obtain ⟨kept, rfl, all⟩ := second
        exact ⟨fun _ _ => Nat.zero_le _, fun _ _ => ⟨rfl, all⟩, [], rfl, kept⟩

end Turns

/-- **Reading gzip data gives what they decode to, however the data arrive.** -/
theorem serves (serves : below.Serves behind whole) (complete : Bool) :
    (reader below).Serves (Holds below behind whole complete) complete := by
  intro size state content held
  simp only [reader, read]
  split
  · rename_i space
    refine untilGiven_served (turn_thrifty below space) (fun state content held => ?_) held
    refine turn_turned serves ?_ held
    rintro most rfl
    exact Nat.le_refl _
  · rename_i nothing
    cases size with
    | none => exact absurd (by decide) nothing
    | some most =>
      obtain rfl : most = 0 := Nat.eq_zero_of_not_pos nothing
      exact served_nothing held

end DiskStaging.Gzip
