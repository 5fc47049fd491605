import UrlRouting.Expression.Fault

/-! Expressions as sequences of characters and escapes. -/
namespace UrlRouting.Expression

/-- A character, or a backslash together with the character after it. -/
inductive Token
  | plain (c : Char)
  | escaped (c : Char)
  /-- A backslash with nothing after it. -/
  | dangling
  deriving DecidableEq, Repr

namespace Token

def width : Token → Nat
  | plain _ => 1
  | escaped _ => 2
  | dangling => 1

def text : Token → List Char
  | plain c => [c]
  | escaped c => ['\\', c]
  | dangling => ['\\']

def isPlain (t : Token) (c : Char) : Bool :=
  t == plain c

end Token

def tokens : List Char → List Token
  | [] => []
  | c :: rest =>
    if c = '\\' then
      match rest with
      | [] => [.dangling]
      | d :: rest => .escaped d :: tokens rest
    else .plain c :: tokens rest

theorem tokens_plain {c : Char} (h : c ≠ '\\') (rest : List Char) :
    tokens (c :: rest) = .plain c :: tokens rest := by
  cases rest <;> simp [tokens, h]

theorem tokens_escaped (c : Char) (rest : List Char) :
    tokens ('\\' :: c :: rest) = .escaped c :: tokens rest := by
  simp [tokens]

theorem text_tokens (s : List Char) : (tokens s).flatMap Token.text = s := by
  fun_induction tokens s <;> simp_all [Token.text]

/-- What is still to be read, and how many characters have been read before it. -/
structure Source where
  pos : Nat
  rest : List Token
  deriving Repr

abbrev Parse := Except Rejection

def refuse {α : Type} (fault : Fault) (pos : Nat) : Parse α :=
  .error (.malformed fault (some pos))

namespace Source

/-- A source never stands before a dangling backslash. -/
def settle (s : Source) : Parse Source :=
  match s.rest with
  | .dangling :: _ => refuse .danglingEscape s.pos
  | _ => .ok s

def ofText (text : String) : Parse Source :=
  settle ⟨0, tokens text.toList⟩

def next? (s : Source) : Option Token :=
  s.rest.head?

def skip (s : Source) : Parse Source :=
  match s.rest with
  | [] => .ok s
  | t :: rest => settle ⟨s.pos + t.width, rest⟩

/-- The next token, if there is one, and the source after it. -/
def take (s : Source) : Parse (Option Token × Source) :=
  return (s.next?, ← s.skip)

/-- Skips a character if it comes next. -/
def accept (s : Source) (c : Char) : Parse (Bool × Source) :=
  if s.next? = some (.plain c) then return (true, ← s.skip) else return (false, s)

/-- The characters from here on that pass a test, `limit` at most. -/
def takeWhile (test : Char → Bool) : (limit : Nat) → Source → Parse (List Char × Source)
  | 0, s => .ok ([], s)
  | limit + 1, s => match s.next? with
    | some (.plain c) =>
      if test c then do
        let (cs, s) ← takeWhile test limit (← s.skip)
        return (c :: cs, s)
      else .ok ([], s)
    | _ => .ok ([], s)

/-- The characters up to a terminator, of which there has to be at least one, and the source after
the terminator. -/
def takeUntil (terminator : Char) (what : String) (s : Source) : Parse (List Char × Source) :=
  go s.rest s.pos []
where
  go : List Token → Nat → List Char → Parse (List Char × Source)
    | [], pos, read =>
      if read.isEmpty then refuse (.missingName what) pos
      else refuse (.unterminatedName terminator) (pos - read.length)
    | t :: rest, pos, read => do
      let s ← settle ⟨pos + t.width, rest⟩
      if t.isPlain terminator then
        if read.isEmpty then refuse (.missingName what) pos else return (read, s)
      else go rest s.pos (read ++ t.text)

end Source

end UrlRouting.Expression
