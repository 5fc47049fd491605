import UrlRouting.Expression.Token

/-! Texts as expressions that match just themselves. -/
namespace UrlRouting.Expression

/-- The characters that may mean more than themselves. -/
def specialChars : List Char :=
  "()[]\x7b\x7d?*+-|^$\\.&~# \t\n\r".toList ++ ['\x0b', '\x0c']

/-- The expression for a character: a backslash before it if it is special. -/
def escapeChar (c : Char) : List Char :=
  if specialChars.contains c then ['\\', c] else [c]

/-- The expression for a text. -/
def escape (text : List Char) : List Char :=
  text.flatMap escapeChar

/-- A character as an expression for itself spells it. -/
def literalToken (c : Char) : Token :=
  if specialChars.contains c then .escaped c else .plain c

theorem escape_cons (c : Char) (s : List Char) : escape (c :: s) = escapeChar c ++ escape s := by
  simp [escape]

theorem contains_backslash : specialChars.contains '\\' = true := by decide

theorem tokens_escapeChar_append (c : Char) (rest : List Char) :
    tokens (escapeChar c ++ rest) = literalToken c :: tokens rest := by
  unfold escapeChar literalToken
  split
  · exact tokens_escaped c rest
  · next h =>
    refine tokens_plain ?_ rest
    rintro rfl
    exact h contains_backslash

/-- An escaped text has one token for each of its characters. -/
theorem tokens_escape_append (s rest : List Char) :
    tokens (escape s ++ rest) = s.map literalToken ++ tokens rest := by
  induction s with
  | nil => rfl
  | cons c s ih => simp [escape_cons, tokens_escapeChar_append, ih]

end UrlRouting.Expression
