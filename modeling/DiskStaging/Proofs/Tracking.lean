import DiskStaging.Proofs.Serving

/-!
# Reading pieces as reading at once

An action on a reader tracks an action on plain bytes when, from a state that holds
these bytes, both end with the same value and what is left is the same. They may
fail differently, and where the bytes are not the whole of the data, the reader may
fail where the plain bytes do not.

Reading a number of bytes and skipping to a byte track themselves on plain bytes
(`Serves.exactly_tracks`, `Serves.skipTo_tracks`), and tracking is kept by putting
actions one after the other (`Ending.Matches.bind`). So what is put together from
these does not depend on how the bytes arrive (`Serves.congruence`).
-/

set_option autoImplicit false

namespace DiskStaging

variable {σ α β : Type} {holds : σ → Bytes → Prop} {whole : Bool}

/-- An action that ends well behind another one lets both end well. -/
theorem bind_eq_ok {act : Act σ α} {next : α → Act σ β} {state after : σ} {value : β}
    (ended : (act >>= next) state = .ok value after) :
    ∃ first between, act state = .ok first between ∧ next first between = .ok value after := by
  simp only [Bind.bind, EStateM.bind] at ended
  cases begun : act state with
  | ok first between =>
    rw [begun] at ended
    exact ⟨first, between, rfl, ended⟩
  | error fault between =>
    rw [begun] at ended
    cases ended

/-- An ending with the same value, and a state that holds what is left. -/
def Ending.Matches (holds : σ → Bytes → Prop) (whole : Bool) : Ending σ α → Ending Bytes α → Prop
  | .ok value after, .ok expected rest => value = expected ∧ holds after rest
  | .ok _ _, .error _ _ => False
  | .error _ _, .ok _ _ => whole = false
  | .error _ _, .error _ _ => True

/-- An action that does to what a state holds what another one does to plain bytes. -/
def Tracks (holds : σ → Bytes → Prop) (whole : Bool) (act : Act σ α) (plain : Act Bytes α) : Prop :=
  ∀ state bytes, holds state bytes → Ending.Matches holds whole (act state) (plain bytes)

/-- Where the bytes are not the whole of the data, breaking off matches anything. -/
theorem Ending.Matches.broken (cut : whole = false) (fault : Fault) (after : σ)
    (plain : Ending Bytes α) : Ending.Matches holds whole (.error fault after) plain := by
  cases plain with
  | ok value rest => exact cut
  | error why rest => trivial

/-- Two endings that match the same one on plain bytes, one of them on plain bytes
itself, match each other. -/
theorem Ending.Matches.trans_plain {ending : Ending σ α} {common plain : Ending Bytes α}
    (first : Ending.Matches holds whole ending common)
    (second : Ending.Matches Eq true plain common) : Ending.Matches holds whole ending plain := by
  cases common with
  | ok value rest =>
    cases plain with
    | error why left => cases second
    | ok expected left =>
      obtain ⟨rfl, rfl⟩ := second
      exact first
  | error why rest =>
    cases plain with
    | ok expected left => exact second.elim
    | error why left =>
      cases ending with
      | ok value after => exact first.elim
      | error fault after => trivial

/-- On plain bytes, matching an ending that is well is being the same. -/
theorem Ending.Matches.eq_ok {ending : Ending Bytes α} {value : α} {rest : Bytes}
    (matched : Ending.Matches Eq true ending (.ok value rest)) : ending = .ok value rest := by
  cases ending with
  | ok given left =>
    obtain ⟨rfl, rfl⟩ := matched
    rfl
  | error fault left => cases matched

/-! ## Putting actions together -/

theorem Ending.Matches.bind {act : Act σ α} {plain : Act Bytes α} {next : α → Act σ β}
    {plainNext : α → Act Bytes β} {state : σ} {bytes : Bytes}
    (first : Ending.Matches holds whole (act state) (plain bytes))
    (rest : ∀ value, Tracks holds whole (next value) (plainNext value)) :
    Ending.Matches holds whole ((act >>= next) state) ((plain >>= plainNext) bytes) := by
  simp only [Bind.bind, EStateM.bind]
  cases ended : act state with
  | ok value after =>
    cases expected : plain bytes with
    | ok wanted left =>
      rw [ended, expected] at first
      obtain ⟨rfl, held⟩ := first
      exact rest value after left held
    | error why left =>
      rw [ended, expected] at first
      exact first.elim
  | error fault after =>
    cases expected : plain bytes with
    | ok wanted left =>
      rw [ended, expected] at first
      exact .broken first fault after _
    | error why left => trivial

namespace Tracks

theorem bind {act : Act σ α} {plain : Act Bytes α} {next : α → Act σ β}
    {plainNext : α → Act Bytes β} (first : Tracks holds whole act plain)
    (rest : ∀ value, Tracks holds whole (next value) (plainNext value)) :
    Tracks holds whole (act >>= next) (plain >>= plainNext) :=
  fun state bytes held => Ending.Matches.bind (first state bytes held) rest

theorem pure (value : α) :
    Tracks holds whole (Pure.pure value : Act σ α) (Pure.pure value : Act Bytes α) :=
  fun _ _ held => ⟨rfl, held⟩

theorem throw (fault : Fault) :
    Tracks holds whole (MonadExcept.throw fault : Act σ α)
      (MonadExcept.throw fault : Act Bytes α) :=
  fun _ _ _ => True.intro

end Tracks

namespace Reader

/-! ## Plain bytes -/

/-- Bytes that are all there. -/
def plain : Reader Bytes where
  read size := fun bytes => .ok (atMost size bytes) (bytes.drop (atMost size bytes).length)
  left := List.length
  thrifty size bytes := by
    have fits := length_atMost_le size bytes
    simp only [Ending.Within, List.length_drop]
    omega

theorem plain_read (limit : Nat) (bytes : Bytes) :
    plain.read (some limit) bytes = .ok (bytes.take limit) (bytes.drop limit) := by
  have same : bytes.drop (bytes.take limit).length = bytes.drop limit := by
    rw [List.length_take]
    rcases Nat.le_total limit bytes.length with few | many
    · rw [Nat.min_eq_left few]
    · rw [Nat.min_eq_right many, List.drop_length, List.drop_of_length_le many]
  simp only [plain, atMost, same]

/-- Plain bytes serve themselves. -/
theorem plain_serves : plain.Serves Eq true := by
  rintro size bytes _ rfl
  refine ⟨?_, ?_, bytes.drop (atMost size bytes).length, ?_, rfl⟩
  · rintro limit rfl
    exact length_atMost_le_limit bytes
  · intro nothing asked
    exact ⟨eq_nil_of_atMost_eq_nil asked nothing, rfl⟩
  · rw [List.prefix_iff_eq_append.mp (prefix_atMost size bytes)]

/-! ## Reading a number of bytes -/

/-- The next bytes of a given number behind those gathered, if there are so many. -/
def completed (size : Nat) (gathered bytes : Bytes) : Ending Bytes Bytes :=
  if size ≤ gathered.length + bytes.length then
    .ok (gathered ++ bytes.take (size - gathered.length)) (bytes.drop (size - gathered.length))
  else .error .cutShort []

theorem completed_append (size : Nat) (gathered given rest : Bytes)
    (within : given.length ≤ size - gathered.length) :
    completed size (gathered ++ given) rest = completed size gathered (given ++ rest) := by
  simp only [completed, List.length_append, Nat.add_assoc, List.append_assoc, Nat.sub_add_eq,
    List.take_append, List.drop_append, List.take_of_length_le within,
    List.drop_of_length_le within, List.nil_append]

namespace Serves

variable {reader : Reader σ}

theorem complete_matches (serves : reader.Serves holds whole) (size : Nat) (gathered : Bytes)
    {state : σ} {bytes : Bytes} (held : holds state bytes) :
    Ending.Matches holds whole (reader.complete size gathered state)
      (completed size gathered bytes) := by
  fun_induction Reader.complete reader size gathered state generalizing bytes with
  | case1 gathered state short fault after read =>
    exact .broken (serves.broken held read) fault after _
  | case2 gathered state short after read =>
    have asked : some (size - gathered.length) ≠ some 0 := by
      intro none
      have zero := Option.some.inj none
      omega
    obtain ⟨rfl, -, -⟩ := serves.end_of_nil held asked read
    rw [completed, if_neg]
    · trivial
    · simpa using short
  | case3 gathered state short byte more after read ih =>
    have within := serves.length_le held read
    obtain ⟨rest, rfl, kept⟩ := serves.given_append held read
    rw [← completed_append size gathered _ rest within]
    exact ih kept
  | case4 gathered state enough =>
    have none : size - gathered.length = 0 := by omega
    rw [completed, if_pos (by omega), none]
    exact ⟨(List.append_nil _).symm, held⟩

/-- Reading exactly some bytes gives the next ones, if there are so many. -/
theorem exactly_matches (serves : reader.Serves holds whole) (size : Nat) :
    Tracks holds whole (reader.exactly size) (completed size []) := by
  intro state bytes held
  simp only [exactly, Bind.bind, EStateM.bind]
  cases read : reader.read (some size) state with
  | error fault after => exact .broken (serves.broken held read) fault after _
  | ok given after =>
    have within := serves.length_le held read
    obtain ⟨rest, rfl, kept⟩ := serves.given_append held read
    rw [← completed_append size [] given rest (by simpa using within)]
    exact serves.complete_matches size given kept

theorem exactly_tracks (serves : reader.Serves holds whole) (size : Nat) :
    Tracks holds whole (reader.exactly size) (plain.exactly size) :=
  fun state bytes held => (serves.exactly_matches size state bytes held).trans_plain
    (plain_serves.exactly_matches size bytes bytes rfl)

end Serves

/-- Plain bytes are read up to the number that is asked for. -/
theorem plain_exactly {size : Nat} {bytes : Bytes} (length : bytes.length = size) (rest : Bytes) :
    plain.exactly size (bytes ++ rest) = .ok bytes rest := by
  have matched := plain_serves.exactly_matches size _ (bytes ++ rest) rfl
  rw [completed, if_pos (by simp [length]), List.length_nil, Nat.sub_zero, List.nil_append,
    List.take_left' length, List.drop_left' length] at matched
  exact matched.eq_ok

/-- What was read of plain bytes are the first ones. -/
theorem of_plain_exactly {size : Nat} {bytes given rest : Bytes}
    (read : plain.exactly size bytes = .ok given rest) :
    bytes = given ++ rest ∧ given.length = size := by
  have matched := plain_serves.exactly_matches size _ bytes rfl
  rw [read, completed] at matched
  split at matched
  · rename_i enough
    obtain ⟨rfl, rfl⟩ := matched
    simp only [List.length_nil, Nat.zero_add, Nat.sub_zero, List.nil_append] at enough ⊢
    exact ⟨(List.take_append_drop size bytes).symm, List.length_take_of_le enough⟩
  · exact matched.elim

/-- Too few plain bytes cannot be read. -/
theorem plain_exactly_of_short {size : Nat} {bytes : Bytes} (short : bytes.length < size) :
    ∃ fault rest, plain.exactly size bytes = .error fault rest := by
  have matched := plain_serves.exactly_matches size bytes bytes rfl
  rw [completed, if_neg (by simpa using short)] at matched
  cases read : plain.exactly size bytes with
  | ok given rest =>
    rw [read] at matched
    exact matched.elim
  | error fault rest => exact ⟨fault, rest, rfl⟩

/-! ## Skipping bytes -/

/-- The first byte that is wanted, and what is behind it. -/
def skipped (wanted : UInt8 → Bool) : Bytes → Ending Bytes (Option UInt8)
  | [] => .ok none []
  | byte :: rest => if wanted byte then .ok (some byte) rest else skipped wanted rest

namespace Serves

variable {reader : Reader σ}

theorem nil_of_single (serves : reader.Serves holds whole) {state after : σ} {bytes more : Bytes}
    {byte : UInt8} (held : holds state bytes)
    (read : reader.read (some 1) state = .ok (byte :: more) after) : more = [] :=
  List.length_eq_zero_iff.mp (Nat.le_zero.mp (Nat.le_of_succ_le_succ (serves.length_le held read)))

theorem skipTo_matches (serves : reader.Serves holds whole) (wanted : UInt8 → Bool) :
    Tracks holds whole (reader.skipTo wanted) (skipped wanted) := by
  intro state bytes held
  fun_induction Reader.skipTo reader wanted state generalizing bytes with
  | case1 state fault after read => exact .broken (serves.broken held read) fault after _
  | case2 state after read =>
    obtain ⟨rfl, -, kept⟩ := serves.end_of_nil held (by simp) read
    exact ⟨rfl, kept⟩
  | case3 state byte more after read found =>
    obtain rfl := serves.nil_of_single held read
    obtain ⟨rest, rfl, kept⟩ := serves.given_append held read
    rw [List.singleton_append, skipped, if_pos found]
    exact ⟨rfl, kept⟩
  | case4 state byte more after read other ih =>
    obtain rfl := serves.nil_of_single held read
    obtain ⟨rest, rfl, kept⟩ := serves.given_append held read
    rw [List.singleton_append, skipped, if_neg other]
    exact ih rest kept

theorem skipTo_tracks (serves : reader.Serves holds whole) (wanted : UInt8 → Bool) :
    Tracks holds whole (reader.skipTo wanted) (plain.skipTo wanted) :=
  fun state bytes held => (serves.skipTo_matches wanted state bytes held).trans_plain
    (plain_serves.skipTo_matches wanted bytes bytes rfl)

/-- What is put together from reads tracks the same put together on plain bytes. -/
theorem congruence (serves : reader.Serves holds whole) :
    Congruence reader plain fun _ => Tracks holds whole where
  pure := .pure
  throw := .throw
  bind := .bind
  exactly := serves.exactly_tracks
  skipTo := serves.skipTo_tracks

end Serves

/-- Skipping plain bytes ends well, whether or not there is one that is wanted. -/
theorem skipped_ok (wanted : UInt8 → Bool) (bytes : Bytes) :
    ∃ found rest, skipped wanted bytes = .ok found rest := by
  fun_induction skipped wanted bytes with
  | case1 | case2 => exact ⟨_, _, rfl⟩
  | case3 byte more other ih => exact ih

theorem plain_skipTo (wanted : UInt8 → Bool) (bytes : Bytes) :
    plain.skipTo wanted bytes = skipped wanted bytes := by
  have matched := plain_serves.skipTo_matches wanted _ bytes rfl
  obtain ⟨found, rest, ended⟩ := skipped_ok wanted bytes
  rw [ended] at matched ⊢
  exact matched.eq_ok

/-- Bytes are skipped up to the first one that is wanted. -/
theorem skipped_found {wanted : UInt8 → Bool} {front : Bytes} {byte : UInt8}
    (others : ∀ other ∈ front, wanted other = false) (found : wanted byte = true) (rest : Bytes) :
    skipped wanted (front ++ byte :: rest) = .ok (some byte) rest := by
  induction front with
  | nil => rw [List.nil_append, skipped, if_pos found]
  | cons other more ih =>
    rw [List.cons_append, skipped, if_neg (by simp [others other])]
    exact ih fun later there => others later (List.mem_cons_of_mem _ there)

end Reader

end DiskStaging
