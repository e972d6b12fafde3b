import DiskStaging.Files.Path
import DiskStaging.Url.Basic
import Mathlib.Data.List.Chain

/-!
# Paths read as URLs

The path of a file that was written is read as a URL. That can go wrong only where
two slashes announce a host, and in a path they do so only at its start, or where a
tab or a line end stands between two slashes and is ignored. All other paths read as
URLs (`Path.parse_render`).
-/

set_option autoImplicit false

namespace DiskStaging

namespace Text

theorem eq_of_cut? {separator : Char} {text before behind : List Char}
    (cut : cut? separator text = some (before, behind)) : text = before ++ separator :: behind := by
  induction text generalizing before with
  | nil => cases cut
  | cons c rest ih =>
    rw [cut?] at cut
    split at cut
    · rename_i same
      cases cut
      rw [same, List.nil_append]
    · obtain ⟨⟨first, last⟩, found, same⟩ := Option.map_eq_some_iff.mp cut
      cases same
      rw [List.cons_append, ← ih found]

theorem cut?_of_not_mem {separator : Char} {text : List Char} (absent : separator ∉ text) :
    cut? separator text = none := by
  cases found : cut? separator text with
  | none => rfl
  | some pair =>
    refine absurd ?_ absent
    rw [eq_of_cut? found]
    simp

theorem cut?_append {separator : Char} {before : List Char} (absent : separator ∉ before)
    (behind : List Char) :
    cut? separator (before ++ separator :: behind) = some (before, behind) := by
  induction before with
  | nil => exact if_pos rfl
  | cons c before ih =>
    obtain ⟨other, absent⟩ := not_or.mp (mt List.mem_cons.mpr absent)
    rw [List.cons_append, cut?, if_neg (Ne.symm other), ih absent]
    rfl

end Text

namespace Url

open Text

/-! ## Text without a host part -/

/-- No two slashes stand next to each other. -/
def Spaced (text : List Char) : Prop := text.IsChain fun first second => first ≠ '/' ∨ second ≠ '/'

/-- A character that reading a URL does not ignore. -/
def Kept (c : Char) : Prop := c ≠ '\t' ∧ c ≠ '\r' ∧ c ≠ '\n'

instance : DecidablePred Kept := fun _ => inferInstanceAs (Decidable (_ ∧ _ ∧ _))

theorem cleaned_suffix {text : List Char} (kept : ∀ c ∈ text, Kept c) : cleaned text <:+ text := by
  have all : (text.dropWhile (· ≤ ' ')).filter (fun c => c ≠ '\t' && c ≠ '\r' && c ≠ '\n') =
      text.dropWhile (· ≤ ' ') := by
    refine List.filter_eq_self.mpr fun c listed => ?_
    obtain ⟨tab, feed, line⟩ := kept c ((List.dropWhile_suffix _).subset listed)
    simp [tab, feed, line]
  rw [cleaned, all]
  exact List.dropWhile_suffix _

theorem cutScheme_suffix (text : List Char) : (cutScheme text).2 <:+ text := by
  unfold cutScheme
  split
  · rename_i first more behind found
    split
    · rw [eq_of_cut? found]
      exact ⟨first :: more ++ [':'], by simp⟩
    · exact List.suffix_refl text
  · exact List.suffix_refl text

theorem cutNetloc_of_spaced {text : List Char} (spaced : Spaced text) :
    cutNetloc text = ([], text) := by
  unfold cutNetloc
  split
  · have apart := (List.isChain_cons_cons.mp spaced).1
    simp at apart
  · rfl

/-- Text that announces no host reads as a URL. -/
theorem parse_of_spaced {text : String} (kept : ∀ c ∈ text.toList, Kept c)
    (spaced : Spaced text.toList) : ∃ url, parse text = .ok url := by
  have left : (cutScheme (cleaned text.toList)).2 <:+ text.toList :=
    (cutScheme_suffix _).trans (cleaned_suffix kept)
  have none : cutNetloc (cutScheme (cleaned text.toList)).2 =
      ([], (cutScheme (cleaned text.toList)).2) := cutNetloc_of_spaced (spaced.suffix left)
  unfold parse
  simp only [none]
  exact ⟨_, rfl⟩

end Url

namespace Path

open Text Url

/-! ## Paths without a host part -/

/-- A path that does not start with two slashes, and whose names are names, without a
tab or a line end. -/
structure Plain (path : Path) : Prop where
  anchored : path.anchor ≠ .doubleRoot
  named : ∀ name ∈ path.names, name.toList ≠ [] ∧ ∀ c ∈ name.toList, c ≠ '/' ∧ Kept c

/-- Names are followed by nothing, or by a slash and further names. -/
theorem intercalate_cons (name : List Char) (rest : List (List Char)) :
    ['/'].intercalate (name :: rest) =
      name ++ if rest = [] then [] else '/' :: ['/'].intercalate rest := by
  cases rest with
  | nil => simp
  | cons next rest => simp

/-- Names with a slash in front of each are spaced. -/
theorem spaced_names {names : List (List Char)}
    (named : ∀ name ∈ names, name ≠ [] ∧ ∀ c ∈ name, c ≠ '/') :
    Spaced ('/' :: ['/'].intercalate names) := by
  induction names with
  | nil => exact .singleton _
  | cons name rest ih =>
    have later := ih fun other listed => named other (List.mem_cons_of_mem name listed)
    obtain ⟨some, slashless⟩ := named name List.mem_cons_self
    have first : Spaced ('/' :: name) := by
      refine .cons (List.Pairwise.isChain ?_) ?_
      · exact List.pairwise_of_forall_mem_list fun c inside _ _ => .inl (slashless c inside)
      · intro c head
        exact .inr (slashless c (List.mem_of_mem_head? head))
    have tail : Spaced (if rest = [] then [] else '/' :: ['/'].intercalate rest) := by
      split
      · exact .nil
      · exact later
    rw [intercalate_cons, ← List.cons_append]
    refine first.append tail ?_
    intro last atEnd _ _
    rw [List.getLast?_cons_of_ne_nil some] at atEnd
    exact .inl (slashless last (List.mem_of_getLast? atEnd))

theorem kept_names {names : List (List Char)} (named : ∀ name ∈ names, ∀ c ∈ name, Kept c) :
    ∀ c ∈ ['/'].intercalate names, Kept c := by
  induction names with
  | nil =>
    intro c inside
    cases inside
  | cons name rest ih =>
    intro c inside
    rw [intercalate_cons] at inside
    rcases List.mem_append.mp inside with first | later
    · exact named name List.mem_cons_self c first
    · split at later
      · cases later
      · rcases List.mem_cons.mp later with rfl | later
        · decide
        · exact ih (fun other listed => named other (List.mem_cons_of_mem name listed)) c later

/-- The text of a plain path announces no host. -/
theorem Plain.spaced {path : Path} (plain : path.Plain) :
    (∀ c ∈ path.render.toList, Kept c) ∧ Spaced path.render.toList := by
  have named : ∀ name ∈ path.names.map String.toList, name ≠ [] ∧ ∀ c ∈ name, c ≠ '/' ∧ Kept c := by
    intro _ listed
    obtain ⟨name, found, rfl⟩ := List.mem_map.mp listed
    exact plain.named name found
  have kept := kept_names fun name listed c inside => ((named name listed).2 c inside).2
  have spaced := spaced_names fun name listed =>
    ⟨(named name listed).1, fun c inside => ((named name listed).2 c inside).1⟩
  have text : (path.anchor.text ++ "/".intercalate path.names).toList =
      path.anchor.text.toList ++ ['/'].intercalate (path.names.map String.toList) := by
    rw [String.toList_append, String.toList_intercalate]
    rfl
  unfold render
  dsimp only
  split
  · refine ⟨?_, .singleton '.'⟩
    intro c inside
    rw [List.mem_singleton.mp inside]
    decide
  · rw [text]
    cases anchor : path.anchor with
    | here => exact ⟨kept, spaced.tail⟩
    | root =>
      refine ⟨?_, spaced⟩
      change ∀ c ∈ '/' :: ['/'].intercalate (path.names.map String.toList), Kept c
      intro c inside
      rcases List.mem_cons.mp inside with rfl | later
      · decide
      · exact kept c later
    | doubleRoot => exact absurd anchor plain.anchored

/-- **A path that announces no host reads as a URL.** -/
theorem Plain.parse_render {path : Path} (plain : path.Plain) :
    ∃ url, Url.parse path.render = .ok url :=
  Url.parse_of_spaced plain.spaced.1 plain.spaced.2

-- A tab between two slashes is ignored, and then these announce a host.
example : Url.parse (Path.mk .here ["x:", "\t", "["]).render = .error .misplacedBrackets := by
  decide +kernel

end Path

end DiskStaging
