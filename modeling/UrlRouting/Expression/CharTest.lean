import UrlRouting.Expression.Syntax
import UrlRouting.Text.CharacterKind
import UrlRouting.Text.LetterCase

/-! Which characters pass a test. A test that ignores case compares small letters, and takes all
small letters of one capital for the same; a class without letters of two cases is compared as it
stands. -/
namespace UrlRouting.Expression

namespace Category

def holds (which : Category) (asciiOnly : Bool) (code : Nat) : Bool :=
  match which, asciiOnly with
  | digit, true => Text.isAsciiDecimal code
  | digit, false => Text.isDecimal code
  | blank, true => Text.isAsciiBlank code
  | blank, false => Text.isBlank code
  | word, true => Text.isAsciiWord code
  | word, false => Text.isWord code

end Category

namespace Folding

/-- The form in which code points are compared. -/
def apply : Folding → Nat → Nat
  | exact, n => n
  | ascii, n => Text.lowerAscii n
  | full, n => Text.lower n

/-- Other compared forms that count as the same letter. -/
def kin : Folding → Nat → List Nat
  | full, n => Text.kin n
  | _, _ => []

/-- The other code points with the compared form `n`. -/
def sources : Folding → Nat → List Nat
  | exact, _ => []
  | ascii, n => if 0x61 ≤ n && n ≤ 0x7A then [n - 0x20] else []
  | full, n => Text.capitalsOf n

def isCased : Folding → Nat → Bool
  | exact, _ => false
  | ascii, n => Text.isAsciiLetter n
  | full, n => Text.isCased n

def anyCased : Folding → Nat → Nat → Bool
  | exact, _, _ => false
  | ascii, first, last => max first 0x41 ≤ min last 0x5A || max first 0x61 ≤ min last 0x7A
  | full, first, last => Text.anyCased first last

/-- Two code points are the same letter. -/
def same (f : Folding) (m n : Nat) : Bool :=
  f.apply m == f.apply n || (f.kin (f.apply n)).contains (f.apply m)

end Folding

namespace ClassItem

/-- The last code point of the basic plane. Classes fold what is beyond it in a way of their own:
single code points not at all, ranges by the small and the capital form. -/
def lastBasic : Nat := 0xFFFF

def isCased (f : Folding) : ClassItem → Bool
  | code n => f.isCased n || (f != .exact && lastBasic < n)
  | range first last => f.anyCased first last || (f != .exact && lastBasic < last)
  | category .. => false

def between (first last n : Nat) : Bool :=
  first ≤ n && n ≤ last

/-- Some code point of a range within the basic plane has the compared form `n`, up to kin. -/
def rangeFolds (f : Folding) (first last n : Nat) : Bool :=
  (n :: f.kin n).any fun t =>
    (f.apply t == t && between first (min last lastBasic) t)
      || (f.sources t).any (between first (min last lastBasic))

/-- The item accepts a code point in its compared form `n`. -/
def accepts (f : Folding) (n : Nat) : ClassItem → Bool
  | code m =>
    if f == .exact || lastBasic < m then n == m
    else n == f.apply m || (f.kin (f.apply m)).contains n
  | range first last =>
    if f == .exact then between first last n
    else rangeFolds f first last n
      || (lastBasic < last && (between first last n || between first last (Text.upper n)))
  | category which asciiOnly negated => which.holds asciiOnly n != negated

end ClassItem

namespace CharTest

/-- The test for one code point, folded only if it has two cases. -/
def ofCode (f : Folding) (code : Nat) (negated : Bool) : CharTest :=
  literal code negated (if f.isCased code then f else .exact)

/-- The test for a class, folded only if something in it has two cases. -/
def ofItems (f : Folding) (items : List ClassItem) (negated : Bool) : CharTest :=
  oneOf items negated (if items.any (·.isCased f) then f else .exact)

def accepts (c : Char) : CharTest → Bool
  | any => true
  | exceptNewline => c != '\n'
  | literal code negated f => f.same c.toNat code != negated
  | oneOf items negated f => items.any (·.accepts f (f.apply c.toNat)) != negated

end CharTest

end UrlRouting.Expression
