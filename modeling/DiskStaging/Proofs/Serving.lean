import DiskStaging.Stream.Source

/-!
# Readers that serve given bytes

A reader serves the bytes that its states are said to hold when every read gives
the next ones of them, says that there are no more only when there are none, and
breaks off only if the bytes are not the whole of the data. How many bytes a read
gives is left open, so what is proved from this holds however the bytes arrive.

Bytes that are not the whole of the data may be said to be more than will ever be
given (`Serves.loosen`): a reader that breaks off serves all data that begin with
what it still gives.

A reader may also break off for other reasons, which depend on the size that it is asked
for (`Reader.ServesUnless`). The one such reason is a size that does not fit: a reader
that serves whatever fits (`Reader.ServesFitting`) need not serve what does not.

Whoever reads until nothing comes gets a prefix of the bytes, and all of them if
the reading does not break off (`ServesUnless.pour`). A reader that breaks off only after
it has given all bytes is steady, and then the prefix is all of them in any case
(`Serves.pour_steady`).

What is still to come may depend on how it is asked for. Then it is told from the bytes
that were given before: a reader continues these if it says that there are no more only
where they may be all (`Reader.Continues`). To serve bytes is to continue every front of
them (`Reader.ServesUnless.of_continues`).

Some readers do not leave open how many bytes a read gives: it gives as many as are asked
for, unless they all end before (`Reader.Thorough`).
-/

set_option autoImplicit false

namespace DiskStaging

variable {σ τ : Type}

/-! ## Bytes up to a limit -/

theorem prefix_atMost (limit : Option Nat) (bytes : Bytes) : atMost limit bytes <+: bytes := by
  cases limit with
  | none => exact List.prefix_rfl
  | some most => exact List.take_prefix most bytes

theorem length_atMost_le_limit {limit : Nat} (bytes : Bytes) :
    (atMost (some limit) bytes).length ≤ limit :=
  List.length_take_le limit bytes

/-- Only a limit of nothing takes nothing off the front of some bytes. -/
theorem eq_nil_of_atMost_eq_nil {limit : Option Nat} {bytes : Bytes} (some : limit ≠ some 0)
    (nothing : atMost limit bytes = []) : bytes = [] := by
  cases limit with
  | none => exact nothing
  | some most =>
    rcases List.take_eq_nil_iff.mp nothing with zero | empty
    · exact absurd (congrArg Option.some zero) some
    · exact empty

/-- Only a size of nothing asks for nothing. -/
theorem sizeAsked_ne_zero {size : Option Int} (some : size ≠ .some 0) :
    sizeAsked size ≠ .some 0 := by
  cases size with
  | none =>
    intro nothing
    cases nothing
  | some size =>
    intro nothing
    by_cases negative : size < 0
    · rw [sizeAsked, if_pos negative] at nothing
      cases nothing
    · rw [sizeAsked, if_neg negative] at nothing
      have zero := Option.some.inj nothing
      exact some (congrArg Option.some (by omega))

/-- Only who says how many bytes are wanted can want too many. -/
theorem Excessive.eq_some {size : Option Nat} (excessive : Excessive size) :
    ∃ limit, size = some limit := by
  cases size with
  | none => exact excessive.elim
  | some limit => exact ⟨limit, rfl⟩

/-- What fits into a piece fits if it is less. -/
theorem fits_of_le {less size : Nat} (fits : ¬ Excessive (some size)) (le : less ≤ size) :
    ¬ Excessive (some less) :=
  fun excessive => fits (Nat.lt_of_lt_of_le excessive le)

/-- Bytes that are taken off the front after a limit was set leave less of the limit. -/
theorem atMost_drop (limit : Option Nat) (count : Nat) (bytes : Bytes) :
    atMost (limit.map (· - count)) (bytes.drop count) = (atMost limit bytes).drop count := by
  cases limit with
  | none => rfl
  | some most => exact (List.drop_take ..).symm

/-! ## Serving -/

/-- An ending that gives the next of some bytes. No bytes are given only at the end
of whole data, unless none were asked for. -/
def Ending.Served (holds : σ → Bytes → Prop) (whole : Bool) (breaks : Prop) (size : Option Nat)
    (bytes : Bytes) : Ending σ Bytes → Prop
  | .ok given after =>
    (∀ limit ∈ size, given.length ≤ limit) ∧
      (given = [] → size ≠ some 0 → bytes = [] ∧ whole = true) ∧
        ∃ rest, bytes = given ++ rest ∧ holds after rest
  | .error _ _ => breaks

theorem Ending.Served.inside {holds : σ → Bytes → Prop} {outer : τ → Bytes → Prop} {whole : Bool}
    {breaks : Prop} {size : Option Nat} {bytes : Bytes} {ending : Ending σ Bytes}
    (served : ending.Served holds whole breaks size bytes) (place : σ → τ)
    (same : ∀ state rest, holds state rest → outer (place state) rest) :
    (Ending.inside place ending).Served outer whole breaks size bytes := by
  cases ending with
  | ok given after =>
    obtain ⟨within, last, rest, split, held⟩ := served
    exact ⟨within, last, rest, split, same after rest held⟩
  | error fault after => exact served

theorem Ending.Served.mono {holds : σ → Bytes → Prop} {whole : Bool} {breaks further : Prop}
    {size : Option Nat} {bytes : Bytes} {ending : Ending σ Bytes}
    (served : ending.Served holds whole breaks size bytes) (leads : breaks → further) :
    ending.Served holds whole further size bytes := by
  cases ending with
  | ok given after => exact served
  | error fault after => exact leads served

/-- Bytes that are kept in front of others can be given from the front. -/
theorem served_take {holds : σ → Bytes → Prop} {whole : Bool} {breaks : Prop} {kept rest : Bytes}
    {size : Nat} {after : σ} (enough : kept = [] → size = 0)
    (held : holds after (kept.drop size ++ rest)) :
    Ending.Served holds whole breaks (some size) (kept ++ rest) (.ok (kept.take size) after) := by
  refine ⟨?_, ?_, kept.drop size ++ rest, ?_, held⟩
  · rintro _ ⟨⟩
    exact List.length_take_le ..
  · intro nothing asked
    rcases List.take_eq_nil_iff.mp nothing with zero | empty
    · exact absurd (congrArg some zero) asked
    · exact absurd (congrArg some (enough empty)) asked
  · rw [← List.append_assoc, List.take_append_drop]

/-- Who asks for nothing gets nothing, and everything stays. -/
theorem served_nothing {holds : σ → Bytes → Prop} {whole : Bool} {breaks : Prop} {bytes : Bytes}
    {state : σ} (held : holds state bytes) :
    Ending.Served holds whole breaks (some 0) bytes (.ok [] state) :=
  ⟨fun _ _ => Nat.zero_le _, fun _ asked => absurd rfl asked, bytes, rfl, held⟩

namespace Reader

/-- Every read gives the next of the bytes that the state holds, unless it breaks off as
reads of its size may. -/
def ServesUnless (reader : Reader σ) (holds : σ → Bytes → Prop) (whole : Bool)
    (breaks : Option Nat → Prop) : Prop :=
  ∀ size state bytes,
    holds state bytes → Ending.Served holds whole (breaks size) size bytes (reader.read size state)

/-- Every read gives the next of the bytes that the state holds, and only data that are
not whole break off. -/
abbrev Serves (reader : Reader σ) (holds : σ → Bytes → Prop) (whole : Bool) : Prop :=
  reader.ServesUnless holds whole fun _ => whole = false

/-- Every read of a size that fits gives the next of the bytes that the state holds. -/
abbrev ServesFitting (reader : Reader σ) (holds : σ → Bytes → Prop) (whole : Bool) : Prop :=
  reader.ServesUnless holds whole fun size => whole = false ∨ Excessive size

theorem pour_of_error {reader : Reader σ} {size : Option Nat} {state after : σ} {fault : Fault}
    (read : reader.read size state = .error fault after) (gathered : Array UInt8) :
    reader.pour size gathered state = ⟨gathered, some fault, after⟩ := by
  unfold Reader.pour
  split <;> rename_i ended <;> cases read.symm.trans ended
  rfl

theorem pour_of_ok {reader : Reader σ} {size : Option Nat} {state after : σ} {byte : UInt8}
    {more : Bytes} (read : reader.read size state = .ok (byte :: more) after)
    (gathered : Array UInt8) :
    reader.pour size gathered state = reader.pour size (gathered ++ byte :: more) after := by
  rw [Reader.pour.eq_def reader size gathered state]
  split <;> rename_i ended <;> cases read.symm.trans ended
  rfl

/-- Reads of a given size break off only after all bytes were given. -/
def Steady (reader : Reader σ) (holds : σ → Bytes → Prop) : Prop :=
  ∀ limit state bytes fault after, holds state bytes →
    reader.read (some limit) state = .error fault after → bytes = []

namespace ServesUnless

variable {reader : Reader σ} {holds : σ → Bytes → Prop} {whole : Bool}
  {breaks : Option Nat → Prop} {size : Option Nat} {state after : σ} {bytes given : Bytes}
  {fault : Fault}

/-- What a read gives comes first of what the state holds. -/
theorem given_append (serves : reader.ServesUnless holds whole breaks) (held : holds state bytes)
    (read : reader.read size state = .ok given after) :
    ∃ rest, bytes = given ++ rest ∧ holds after rest := by
  have served := serves size state bytes held
  rw [read] at served
  exact served.2.2

theorem length_le (serves : reader.ServesUnless holds whole breaks) (held : holds state bytes)
    {limit : Nat} (read : reader.read (some limit) state = .ok given after) :
    given.length ≤ limit := by
  have served := serves (some limit) state bytes held
  rw [read] at served
  exact served.1 limit rfl

/-- A read that gives nothing has found the end. -/
theorem end_of_nil (serves : reader.ServesUnless holds whole breaks) (held : holds state bytes)
    (asked : size ≠ some 0) (read : reader.read size state = .ok [] after) :
    bytes = [] ∧ whole = true ∧ holds after [] := by
  have served := serves size state bytes held
  rw [read] at served
  obtain ⟨-, last, rest, split, kept⟩ := served
  obtain ⟨none, all⟩ := last rfl asked
  rw [none] at split
  rw [← List.nil_append rest, ← split] at kept
  exact ⟨none, all, kept⟩

theorem broken (serves : reader.ServesUnless holds whole breaks) (held : holds state bytes)
    (read : reader.read size state = .error fault after) : breaks size := by
  have served := serves size state bytes held
  rw [read] at served
  exact served

theorem mono (serves : reader.ServesUnless holds whole breaks) {further : Option Nat → Prop}
    (leads : ∀ size, breaks size → further size) : reader.ServesUnless holds whole further :=
  fun size state bytes held => (serves size state bytes held).mono (leads size)

/-! ## Reading until nothing comes -/

/-- Reading until nothing comes gives bytes from the front, and all of them if it
does not break off. -/
theorem pour (serves : reader.ServesUnless holds whole breaks) (asked : size ≠ some 0)
    (gathered : Array UInt8) (held : holds state bytes) :
    ∃ given rest, bytes = given ++ rest ∧
      (reader.pour size gathered state).content.toList = gathered.toList ++ given ∧
        match (reader.pour size gathered state).fault with
        | none => rest = [] ∧ whole = true ∧ holds (reader.pour size gathered state).state []
        | some _ => breaks size := by
  fun_induction Reader.pour reader size gathered state generalizing bytes with
  | case1 gathered state fault after read =>
    exact ⟨[], bytes, rfl, (List.append_nil _).symm, serves.broken held read⟩
  | case2 gathered state after read =>
    obtain ⟨rfl, all, kept⟩ := serves.end_of_nil held asked read
    exact ⟨[], [], rfl, (List.append_nil _).symm, rfl, all, kept⟩
  | case3 gathered state byte more after read ih =>
    obtain ⟨rest, rfl, kept⟩ := serves.given_append held read
    obtain ⟨given, last, rfl, content, ended⟩ := ih kept
    refine ⟨byte :: more ++ given, last, (List.append_assoc ..).symm, ?_, ended⟩
    rw [content, Array.toList_appendList, List.append_assoc]

/-- Reading data until nothing comes gives all of them, if nothing lets it break off. -/
theorem pour_whole (serves : reader.ServesUnless holds whole breaks) (asked : size ≠ some 0)
    (going : ¬ breaks size) (gathered : Array UInt8) (held : holds state bytes) :
    (reader.pour size gathered state).content.toList = gathered.toList ++ bytes ∧
      (reader.pour size gathered state).fault = none := by
  obtain ⟨given, rest, rfl, content, ended⟩ := serves.pour asked gathered held
  cases broken : (reader.pour size gathered state).fault with
  | none =>
    rw [broken] at ended
    rw [content, ended.1, List.append_nil]
    exact ⟨rfl, rfl⟩
  | some fault =>
    rw [broken] at ended
    exact absurd ended going

end ServesUnless

namespace Serves

variable {reader : Reader σ} {holds : σ → Bytes → Prop} {whole : Bool} {state : σ} {bytes : Bytes}

/-- Who serves whatever the size serves what fits. -/
theorem fitting (serves : reader.Serves holds whole) : reader.ServesFitting holds whole :=
  serves.mono fun _ cut => .inl cut

/-- A reader that breaks off serves all data that begin with what it gives. -/
theorem loosen (serves : reader.Serves holds false) :
    reader.Serves (fun state bytes => ∃ less, holds state less ∧ less <+: bytes) false := by
  rintro size state _ ⟨less, held, more, rfl⟩
  have served := serves size state less held
  cases read : reader.read size state with
  | error fault after => rfl
  | ok given after =>
    rw [read] at served
    obtain ⟨within, last, rest, rfl, kept⟩ := served
    refine ⟨within, ?_, rest ++ more, List.append_assoc .., rest, kept, List.prefix_append ..⟩
    intro nothing asked
    exact absurd (last nothing asked).2 Bool.false_ne_true

/-- A steady reader gives all bytes before it breaks off. -/
theorem pour_steady (serves : reader.Serves holds whole) (steady : reader.Steady holds)
    {limit : Nat} (positive : 0 < limit) (gathered : Array UInt8) (held : holds state bytes) :
    (reader.pour (some limit) gathered state).content.toList = gathered.toList ++ bytes ∧
      ((reader.pour (some limit) gathered state).fault = none ↔ whole = true) := by
  have asked : some limit ≠ some 0 := by
    intro zero
    cases zero
    exact absurd positive (Nat.lt_irrefl 0)
  fun_induction Reader.pour reader (some limit) gathered state generalizing bytes with
  | case1 gathered state fault after read =>
    have cut := serves.broken held read
    simp [steady _ _ _ _ _ held read, cut]
  | case2 gathered state after read =>
    obtain ⟨rfl, all, -⟩ := serves.end_of_nil held asked read
    simp [all]
  | case3 gathered state byte more after read ih =>
    obtain ⟨rest, rfl, kept⟩ := serves.given_append held read
    obtain ⟨content, ended⟩ := ih kept
    refine ⟨?_, ended⟩
    rw [content, Array.toList_appendList, List.append_assoc]

end Serves

end Reader

/-! ## Continuing -/

/-- An ending that goes on from bytes that were given before. No more are given only where
these may be all, unless none were asked for. -/
def Ending.Continued (past : σ → Bytes → Prop) (ends : Bytes → Prop) (breaks : Prop)
    (size : Option Nat) (given : Bytes) : Ending σ Bytes → Prop
  | .ok next after =>
    (∀ limit ∈ size, next.length ≤ limit) ∧ (next = [] → size ≠ some 0 → ends given) ∧
      past after (given ++ next)
  | .error _ _ => breaks

theorem Ending.Continued.inside {past : σ → Bytes → Prop} {outer : τ → Bytes → Prop}
    {ends : Bytes → Prop} {breaks : Prop} {size : Option Nat} {given : Bytes}
    {ending : Ending σ Bytes} (continued : ending.Continued past ends breaks size given)
    (place : σ → τ) (same : ∀ state given, past state given → outer (place state) given) :
    (Ending.inside place ending).Continued outer ends breaks size given := by
  cases ending with
  | ok next after =>
    obtain ⟨within, last, kept⟩ := continued
    exact ⟨within, last, same after _ kept⟩
  | error fault after => exact continued

/-- Bytes that are kept in front of others can be given from the front. -/
theorem continued_take {past : σ → Bytes → Prop} {ends : Bytes → Prop} {breaks : Prop}
    {given kept : Bytes} {size : Nat} {after : σ} (enough : kept = [] → size = 0)
    (held : past after (given ++ kept.take size)) :
    Ending.Continued past ends breaks (some size) given (.ok (kept.take size) after) := by
  refine ⟨?_, ?_, held⟩
  · rintro _ ⟨⟩
    exact List.length_take_le ..
  · intro nothing asked
    rcases List.take_eq_nil_iff.mp nothing with zero | empty
    · exact absurd (congrArg some zero) asked
    · exact absurd (congrArg some (enough empty)) asked

/-- Who asks for nothing gets nothing, and everything stays. -/
theorem continued_nothing {past : σ → Bytes → Prop} {ends : Bytes → Prop} {breaks : Prop}
    {given : Bytes} {state : σ} (held : past state given) :
    Ending.Continued past ends breaks (some 0) given (.ok [] state) := by
  refine ⟨fun _ _ => Nat.zero_le _, fun _ asked => absurd rfl asked, ?_⟩
  rwa [List.append_nil]

/-- States in which some bytes were given, and the rest of all is held. -/
def Amid (holds : σ → Bytes → Prop) (all : Bytes) : σ → Bytes → Prop := fun state given =>
  ∃ rest, all = given ++ rest ∧ holds state rest

namespace Reader

variable {reader : Reader σ} {holds : σ → Bytes → Prop} {whole : Bool}
  {breaks : Option Nat → Prop}

/-- Every read goes on from the bytes that were given before, unless it breaks off as reads
of its size may. -/
def Continues (reader : Reader σ) (past : σ → Bytes → Prop) (ends : Bytes → Prop)
    (breaks : Option Nat → Prop) : Prop :=
  ∀ size state given, past state given →
    Ending.Continued past ends (breaks size) size given (reader.read size state)

/-- A reader that serves bytes continues every front of them. -/
theorem ServesUnless.continues (serves : reader.ServesUnless holds whole breaks) (all : Bytes) :
    reader.Continues (Amid holds all) (fun given => given = all ∧ whole = true) breaks := by
  rintro size state given ⟨rest, rfl, held⟩
  have served := serves size state rest held
  cases read : reader.read size state with
  | error fault after =>
    rw [read] at served
    exact served
  | ok next after =>
    rw [read] at served
    obtain ⟨within, last, more, rfl, kept⟩ := served
    refine ⟨within, ?_, more, (List.append_assoc ..).symm, kept⟩
    intro nothing asked
    obtain ⟨none, all⟩ := last nothing asked
    exact ⟨by rw [none, List.append_nil], all⟩

/-- A reader that continues every front of what its states hold serves that. -/
theorem ServesUnless.of_continues (continues : ∀ all, reader.Continues (Amid holds all)
    (fun given => given = all ∧ whole = true) breaks) :
    reader.ServesUnless holds whole breaks := by
  intro size state bytes held
  have continued := continues bytes size state [] ⟨bytes, rfl, held⟩
  cases read : reader.read size state with
  | error fault after =>
    rw [read] at continued
    exact continued
  | ok next after =>
    rw [read] at continued
    obtain ⟨within, last, rest, split, kept⟩ := continued
    refine ⟨within, ?_, rest, split, kept⟩
    intro nothing asked
    obtain ⟨none, all⟩ := last nothing asked
    exact ⟨none.symm, all⟩

namespace Continues

variable {past : σ → Bytes → Prop} {ends : Bytes → Prop} {size : Option Nat} {state after : σ}
  {given next : Bytes} {fault : Fault}

theorem given_append (continues : reader.Continues past ends breaks) (held : past state given)
    (read : reader.read size state = .ok next after) : past after (given ++ next) := by
  have continued := continues size state given held
  rw [read] at continued
  exact continued.2.2

theorem length_le (continues : reader.Continues past ends breaks) (held : past state given)
    {limit : Nat} (read : reader.read (some limit) state = .ok next after) :
    next.length ≤ limit := by
  have continued := continues (some limit) state given held
  rw [read] at continued
  exact continued.1 limit rfl

/-- A read that gives nothing has found the end. -/
theorem end_of_nil (continues : reader.Continues past ends breaks) (held : past state given)
    (asked : size ≠ some 0) (read : reader.read size state = .ok [] after) :
    ends given ∧ past after given := by
  have continued := continues size state given held
  rw [read] at continued
  obtain ⟨-, last, kept⟩ := continued
  rw [List.append_nil] at kept
  exact ⟨last rfl asked, kept⟩

theorem broken (continues : reader.Continues past ends breaks) (held : past state given)
    (read : reader.read size state = .error fault after) : breaks size := by
  have continued := continues size state given held
  rw [read] at continued
  exact continued

theorem mono (continues : reader.Continues past ends breaks) {further : Bytes → Prop}
    (reaches : ∀ given, ends given → further given) : reader.Continues past further breaks := by
  intro size state given held
  have continued := continues size state given held
  cases read : reader.read size state with
  | error fault after =>
    rw [read] at continued
    exact continued
  | ok next after =>
    rw [read] at continued
    obtain ⟨within, last, kept⟩ := continued
    exact ⟨within, fun nothing asked => reaches given (last nothing asked), kept⟩

/-- What was given stays in front of what is given later. -/
theorem beyond (continues : reader.Continues past ends breaks) (front : Bytes) :
    reader.Continues (fun state given => past state given ∧ front <+: given)
      (fun given => ends given ∧ front <+: given) breaks := by
  rintro size state given ⟨held, leading⟩
  cases read : reader.read size state with
  | error fault after => exact continues.broken held read
  | ok next after =>
    have continued := continues size state given held
    rw [read] at continued
    obtain ⟨within, last, kept⟩ := continued
    exact ⟨within, fun nothing asked => ⟨last nothing asked, leading⟩, kept,
      leading.trans (List.prefix_append ..)⟩

/-- Reading until nothing comes goes on to the end, if it does not break off. -/
theorem pour (continues : reader.Continues past ends breaks) (asked : size ≠ some 0)
    (gathered : Array UInt8) (held : past state (given ++ gathered.toList)) :
    match (reader.pour size gathered state).fault with
    | none => ends (given ++ (reader.pour size gathered state).content.toList) ∧
        past (reader.pour size gathered state).state
          (given ++ (reader.pour size gathered state).content.toList)
    | some _ => breaks size := by
  fun_induction Reader.pour reader size gathered state with
  | case1 gathered state fault after read => exact continues.broken held read
  | case2 gathered state after read => exact continues.end_of_nil held asked read
  | case3 gathered state byte more after read ih =>
    refine ih ?_
    rw [Array.toList_appendList, ← List.append_assoc]
    exact continues.given_append held read

end Continues

end Reader

/-! ## Giving all that is asked for -/

/-- An ending that goes on from bytes that were given before, with as many as are asked for
unless all of them end before. -/
def Ending.Thorough (past : σ → Bytes → Prop) (ends : Bytes → Prop) (breaks : Prop)
    (size : Option Nat) (given : Bytes) : Ending σ Bytes → Prop
  | .ok next after =>
    (∀ limit ∈ size, next.length ≤ limit) ∧
      ((∀ limit ∈ size, next.length < limit) → ends (given ++ next)) ∧ past after (given ++ next)
  | .error _ _ => breaks

namespace Ending.Thorough

variable {past : σ → Bytes → Prop} {ends : Bytes → Prop} {breaks : Prop} {size : Option Nat}
  {given : Bytes} {ending : Ending σ Bytes}

theorem inside {outer : τ → Bytes → Prop} (thorough : ending.Thorough past ends breaks size given)
    (place : σ → τ) (same : ∀ state given, past state given → outer (place state) given) :
    (Ending.inside place ending).Thorough outer ends breaks size given := by
  cases ending with
  | ok next after =>
    obtain ⟨within, short, kept⟩ := thorough
    exact ⟨within, short, same after _ kept⟩
  | error fault after => exact thorough

theorem mono (thorough : ending.Thorough past ends breaks size given) {further : Prop}
    (leads : breaks → further) : ending.Thorough past ends further size given := by
  cases ending with
  | ok next after => exact thorough
  | error fault after => exact leads thorough

theorem continued (thorough : ending.Thorough past ends breaks size given) :
    ending.Continued past ends breaks size given := by
  cases ending with
  | error fault after => exact thorough
  | ok next after =>
    obtain ⟨within, short, kept⟩ := thorough
    refine ⟨within, ?_, kept⟩
    rintro rfl asked
    rw [List.append_nil] at short
    refine short ?_
    rintro limit rfl
    exact Nat.pos_of_ne_zero fun zero => asked (congrArg some zero)

end Ending.Thorough

namespace Reader

variable {reader : Reader σ} {holds : σ → Bytes → Prop} {whole : Bool}

/-- Every read gives as many bytes as are asked for, unless all of them end before. -/
def Thorough (reader : Reader σ) (past : σ → Bytes → Prop) (ends : Bytes → Prop)
    (breaks : Option Nat → Prop) : Prop :=
  ∀ size state given, past state given →
    Ending.Thorough past ends (breaks size) size given (reader.read size state)

theorem Thorough.continues {past : σ → Bytes → Prop} {ends : Bytes → Prop}
    {breaks : Option Nat → Prop} (thorough : reader.Thorough past ends breaks) :
    reader.Continues past ends breaks :=
  fun size state given held => (thorough size state given held).continued

/-- Every read of a size that fits gives as many as are asked for of the bytes that the state
holds, or all. -/
def ServesFully (reader : Reader σ) (holds : σ → Bytes → Prop) (whole : Bool) : Prop :=
  ∀ all, reader.Thorough (Amid holds all) (fun given => given = all ∧ whole = true)
    fun size => whole = false ∨ Excessive size

theorem ServesFully.fitting (serves : reader.ServesFully holds whole) :
    reader.ServesFitting holds whole :=
  .of_continues fun all => (serves all).continues

end Reader

/-! ## Taking turns -/

/-- The ending of a turn that gives bytes or has to be followed by another turn. -/
def Ending.Taken (still : σ → Prop) (done : Ending σ Bytes → Prop) :
    Ending σ (Option Bytes) → Prop
  | .ok (some given) after => done (.ok given after)
  | .ok none after => still after
  | .error fault after => done (.error fault after)

/-- Who takes turns until one gives bytes ends as that one does. -/
theorem untilGiven_taken {still : σ → Prop} {done : Ending σ Bytes → Prop} {budget : σ → Nat}
    {turn : Act σ (Option Bytes)} (thrifty : Thrifty budget turnCost turn)
    (taken : ∀ state, still state → Ending.Taken still done (turn state)) {state : σ}
    (held : still state) : done (untilGiven turn thrifty state) := by
  fun_induction untilGiven turn thrifty state with
  | case1 state fault after ended | case2 state given after ended =>
    have last := taken state held
    rw [ended] at last
    exact last
  | case3 state after ended ih =>
    have kept := taken state held
    rw [ended] at kept
    exact ih kept

/-- The ending of a turn that gives the next bytes, or leaves them all to be given. -/
def Ending.Turned (holds : σ → Bytes → Prop) (whole : Bool) (size : Option Nat) (bytes : Bytes) :
    Ending σ (Option Bytes) → Prop
  | .ok (some given) after => Ending.Served holds whole (whole = false) size bytes (.ok given after)
  | .ok none after => holds after bytes
  | .error _ _ => whole = false

/-- Who takes turns until one gives bytes is served. -/
theorem untilGiven_served {holds : σ → Bytes → Prop} {whole : Bool} {size : Option Nat}
    {budget : σ → Nat} {turn : Act σ (Option Bytes)} (thrifty : Thrifty budget turnCost turn)
    (turned : ∀ state bytes, holds state bytes →
      Ending.Turned holds whole size bytes (turn state))
    {state : σ} {bytes : Bytes} (held : holds state bytes) :
    Ending.Served holds whole (whole = false) size bytes (untilGiven turn thrifty state) := by
  refine @untilGiven_taken _ (holds · bytes) _ _ turn thrifty (fun state held => ?_) _ held
  have served := turned state bytes held
  cases ended : turn state with
  | ok value after =>
    rw [ended] at served
    cases value <;> exact served
  | error fault after =>
    rw [ended] at served
    exact served

end DiskStaging
