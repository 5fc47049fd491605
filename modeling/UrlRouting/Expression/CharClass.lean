import UrlRouting.Expression.CharTest
import UrlRouting.Expression.Escape

/-! Character classes: single characters, ranges and categories between brackets. -/
namespace UrlRouting.Expression.CharClass

/-- Reads on after a member's first token. -/
def readMember (asciiOnly : Bool) (t : Token) (start : Nat) (s : Source) :
    Parse (ClassItem × Source) :=
  match t with
  | .plain c => return (.code c.toNat, s)
  | .dangling => refuse .danglingEscape start
  | .escaped c => do
    let (e, s) ← Escape.readInClass c start s
    match e with
    | .code n => return (.code n, s)
    | .category which negated => return (.category which asciiOnly negated, s)
    | .anchor _ | .group _ => refuse (.badEscape (Escape.spelling c [])) start

/-- The range between two members, which have to be single characters in order. -/
def range? : ClassItem → ClassItem → Option ClassItem
  | .code first, .code last => if first ≤ last then some (.range first last) else none
  | _, _ => none

/-- Reads the members up to the closing bracket. A closing bracket that comes first is a member. -/
def readItems (asciiOnly : Bool) (start : Nat) :
    (fuel : Nat) → Source → List ClassItem → Parse (List ClassItem × Source)
  | 0, _, _ => refuse .unterminatedClass start
  | fuel + 1, s, items => do
    match ← s.take with
    | (none, _) => refuse .unterminatedClass start
    | (some this, after) =>
      if this.isPlain ']' && !items.isEmpty then return (items, after)
      let (item, after) ← readMember asciiOnly this s.pos after
      let (dashed, after) ← after.accept '-'
      if !dashed then readItems asciiOnly start fuel after (items ++ [item])
      else match ← after.take with
      | (none, _) => refuse .unterminatedClass start
      | (some that, last) =>
        if that.isPlain ']' then return (items ++ [item, .code '-'.toNat], last)
        let (other, last) ← readMember asciiOnly that after.pos last
        match range? item other with
        | some r => readItems asciiOnly start fuel last (items ++ [r])
        | none =>
          refuse (.badRange (String.ofList this.text) (String.ofList that.text))
            (last.pos - (this.width + 1 + that.width))

/-- The test for the members of a class. -/
def test (f : Folding) (items : List ClassItem) (negated : Bool) : CharTest :=
  match items.eraseDups with
  | [.code n] => .ofCode f n negated
  | items => .ofItems f items negated

/-- Reads a class whose opening bracket, at `start`, has been read. -/
def read (mode : Mode) (start : Nat) (s : Source) : Parse (CharTest × Source) := do
  let (negated, s) ← s.accept '^'
  let (items, s) ← readItems mode.asciiOnly start (s.rest.length + 1) s []
  return (test mode.folding items negated, s)

end UrlRouting.Expression.CharClass
