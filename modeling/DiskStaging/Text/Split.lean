/-!
# Cutting text at a character

`pieces` cuts at every occurrence of a character, `cut?` at the first one.
Joining the pieces with that character gives the text back (`join_pieces`).
-/

set_option autoImplicit false

namespace DiskStaging.Text

/-- The pieces between the occurrences of a character; there is always one piece. -/
def pieces (separator : Char) : List Char → List (List Char)
  | [] => [[]]
  | c :: rest =>
    if c = separator then [] :: pieces separator rest
    else match pieces separator rest with
      | [] => [[c]]
      | piece :: more => (c :: piece) :: more

/-- The pieces with the separator between them. -/
def join (separator : Char) : List (List Char) → List Char
  | [] => []
  | [piece] => piece
  | piece :: more => piece ++ separator :: join separator more

/-- What stands before and behind the first occurrence of a character. -/
def cut? (separator : Char) : List Char → Option (List Char × List Char)
  | [] => none
  | c :: rest =>
    if c = separator then some ([], rest)
    else (cut? separator rest).map fun (before, behind) => (c :: before, behind)

theorem pieces_ne_nil (separator : Char) (text : List Char) : pieces separator text ≠ [] := by
  cases text with
  | nil => simp [pieces]
  | cons c rest =>
    unfold pieces
    split
    · simp
    · split <;> simp

theorem join_pieces (separator : Char) (text : List Char) :
    join separator (pieces separator text) = text := by
  induction text with
  | nil => rfl
  | cons c rest ih =>
    unfold pieces
    split
    · rename_i same
      obtain ⟨piece, more, shape⟩ := List.exists_cons_of_ne_nil (pieces_ne_nil separator rest)
      rw [shape] at ih ⊢
      simp [join, same, ih]
    · split
      · rename_i none
        exact absurd none (pieces_ne_nil separator rest)
      · rename_i piece more shape
        rw [shape] at ih
        cases more with
        | nil => simpa [join] using ih
        | cons => simpa [join] using ih

end DiskStaging.Text
