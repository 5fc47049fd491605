/-! Cutting a text, as a list of characters, at a separator and at its ends. -/
namespace UrlRouting.Text

variable {sep : Char} {s t : List Char}

/-- The pieces between separators: always one more than there are separators. -/
def pieces (sep : Char) : List Char → List (List Char)
  | [] => [[]]
  | c :: rest => if c = sep then [] :: pieces sep rest else (pieces sep rest).modifyHead (c :: ·)

def joinPieces (sep : Char) (parts : List (List Char)) : List Char :=
  [sep].intercalate parts

def trimEnd (drop : Char → Bool) (s : List Char) : List Char :=
  (s.reverse.dropWhile drop).reverse

def trim (drop : Char → Bool) (s : List Char) : List Char :=
  trimEnd drop (s.dropWhile drop)

/-- The text before the first separator and the text after it, if there is a separator. -/
def cutFirst? (sep : Char) : List Char → Option (List Char × List Char)
  | [] => none
  | c :: rest =>
    if c = sep then some ([], rest) else (cutFirst? sep rest).map fun p => (c :: p.1, p.2)

/-- The text before the last separator and the text after it, if there is a separator. -/
def cutLast? (sep : Char) : List Char → Option (List Char × List Char)
  | [] => none
  | c :: rest =>
    match cutLast? sep rest with
    | some (before, after) => some (c :: before, after)
    | none => if c = sep then some ([], rest) else none

theorem pieces_ne_nil : pieces sep s ≠ [] := by
  induction s with
  | nil => simp [pieces]
  | cons c rest ih => simp only [pieces]; split <;> simp [ih]

theorem joinPieces_pieces : joinPieces sep (pieces sep s) = s := by
  induction s with
  | nil => simp [pieces, joinPieces, List.intercalate]
  | cons c rest ih =>
    simp only [pieces]
    split
    · subst_vars
      cases h : pieces c rest with
      | nil => exact absurd h pieces_ne_nil
      | cons p ps => rw [h] at ih; rw [← ih]; simp [joinPieces, List.intercalate]
    · cases h : pieces sep rest with
      | nil => exact absurd h pieces_ne_nil
      | cons p ps =>
        rw [h] at ih
        rw [← ih]
        cases ps <;> simp [joinPieces, List.intercalate]

/-- A piece holds no separator. -/
theorem not_mem_of_mem_pieces {p : List Char} (h : p ∈ pieces sep s) : sep ∉ p := by
  induction s generalizing p with
  | nil => simp_all [pieces]
  | cons c rest ih =>
    simp only [pieces] at h
    split at h
    · obtain rfl | h := List.mem_cons.1 h
      · simp
      · exact ih h
    · cases hp : pieces sep rest with
      | nil => exact absurd hp pieces_ne_nil
      | cons q qs =>
        rw [hp, List.modifyHead_cons, List.mem_cons] at h
        rw [hp] at ih
        obtain rfl | h := h
        · have := ih (List.mem_cons_self ..)
          simp_all [eq_comm]
        · exact ih (List.mem_cons_of_mem _ h)

end UrlRouting.Text
