import UrlRouting.Expression.Mode
import UrlRouting.Text.CharacterName

/-! Escapes: what a backslash and the character after it stand for, in an expression and within a
character class. -/
namespace UrlRouting.Expression

inductive Escape
  | code (n : Nat)
  | category (which : Category) (negated : Bool)
  | anchor (a : Anchor)
  | group (index : Nat)
  deriving DecidableEq, Repr

/-- The groups that are complete and may be referred to. -/
structure GroupTable where
  /-- The index that the next group gets. -/
  next : Nat
  names : List (String × Nat)
  /-- The groups whose closing parenthesis has been read. -/
  closed : List (Nat × Width)
  /-- Within a look-behind, the index that the next group had at its beginning. -/
  lookbehind : Option Nat

namespace GroupTable

def empty : GroupTable := ⟨1, [], [], none⟩

def isClosed (g : GroupTable) (index : Nat) : Bool :=
  (g.closed.lookup index).isSome

/-- Within a look-behind only groups from before it may be referred to. -/
def checkLookbehind (g : GroupTable) (index pos : Nat) : Parse Unit :=
  match g.lookbehind with
  | none => return ()
  | some limit =>
    if !g.isClosed index then refuse .openGroup pos
    else if limit ≤ index then refuse .groupOfSameLookbehind pos
    else return ()

end GroupTable

namespace Escape

/-- The characters that have a letter of their own. -/
def control? : Char → Option Nat
  | 'a' => some 0x07
  | 'f' => some 0x0C
  | 'n' => some 0x0A
  | 'r' => some 0x0D
  | 't' => some 0x09
  | 'v' => some 0x0B
  | '\\' => some 0x5C
  | _ => none

def category? : Char → Option Escape
  | 'd' => some (category .digit false)
  | 'D' => some (category .digit true)
  | 's' => some (category .blank false)
  | 'S' => some (category .blank true)
  | 'w' => some (category .word false)
  | 'W' => some (category .word true)
  | _ => none

def anchor? (asciiOnly : Bool) : Char → Option Escape
  | 'A' => some (anchor .textStart)
  | 'Z' => some (anchor .textEnd)
  | 'b' => some (anchor (.wordEdge asciiOnly))
  | 'B' => some (anchor (.noWordEdge asciiOnly))
  | _ => none

def isOctalDigit (c : Char) : Bool :=
  '0' ≤ c && c ≤ '7'

def digitValue (c : Char) : Nat :=
  if c.isDigit then c.toNat - 0x30 else c.toLower.toNat - 0x57

def isHexDigit (c : Char) : Bool :=
  c.isDigit || ('a' ≤ c && c ≤ 'f') || ('A' ≤ c && c ≤ 'F')

def numberIn (base : Nat) (digits : List Char) : Nat :=
  digits.foldl (fun n c => n * base + digitValue c) 0

def spelling (c : Char) (digits : List Char) : String :=
  String.ofList ('\\' :: c :: digits)

/-- Reads a code point of exactly `width` hexadecimal digits. -/
def readHex (c : Char) (width start : Nat) (s : Source) : Parse (Escape × Source) := do
  let (digits, s) ← s.takeWhile isHexDigit width
  if digits.length ≠ width then refuse (.incompleteEscape (spelling c digits)) start
  else if 0x10FFFF < numberIn 16 digits then refuse (.badEscape (spelling c digits)) start
  else return (code (numberIn 16 digits), s)

/-- Reads the name of a character, in braces. -/
def readName (start : Nat) (s : Source) : Parse (Escape × Source) := do
  let (opened, s) ← s.accept '\x7b'
  if !opened then refuse .missingBrace s.pos
  let (name, s) ← s.takeUntil '\x7d' "character name"
  match Text.characterNamed? name with
  | some n => return (code n, s)
  | none => refuse (.unknownCharacterName (String.ofList name)) start

/-- Reads the escapes that are written alike everywhere: by code point, by name, or the character
itself, which may not be a letter. -/
def readCode (c : Char) (start : Nat) (s : Source) : Parse (Escape × Source) :=
  match c with
  | 'x' => readHex c 2 start s
  | 'u' => readHex c 4 start s
  | 'U' => readHex c 8 start s
  | 'N' => readName start s
  | _ =>
    if Text.isAsciiLetter c.toNat then refuse (.badEscape (spelling c [])) start
    else return (code c.toNat, s)

/-- Refers to a group, of which the decimal number has been read. -/
def readGroup (groups : GroupTable) (digits : List Char) (start : Nat) (s : Source) :
    Parse (Escape × Source) := do
  let index := numberIn 10 digits
  if groups.next ≤ index then refuse (.noSuchGroup index) (start + 1)
  if !groups.isClosed index then refuse .openGroup start
  groups.checkLookbehind index s.pos
  return (group index, s)

/-- Reads on after a backslash and a digit other than zero: three octal digits name a code point,
and one or two digits a group. -/
def readDigits (groups : GroupTable) (c : Char) (start : Nat) (s : Source) :
    Parse (Escape × Source) := do
  let (second, s) ← s.takeWhile Char.isDigit 1
  let digits := c :: second
  if digits.length = 2 && digits.all isOctalDigit then
    let (third, s) ← s.takeWhile isOctalDigit 1
    if third.isEmpty then readGroup groups digits start s
    else
      let n := numberIn 8 (digits ++ third)
      if 0o377 < n then refuse (.octalTooLarge (spelling c (second ++ third))) start
      else return (code n, s)
  else readGroup groups digits start s

/-- Reads on after a backslash and `c` in an expression. -/
def read (groups : GroupTable) (asciiOnly : Bool) (c : Char) (start : Nat) (s : Source) :
    Parse (Escape × Source) :=
  match anchor? asciiOnly c, category? c, control? c with
  | some e, _, _ => return (e, s)
  | _, some e, _ => return (e, s)
  | _, _, some n => return (code n, s)
  | none, none, none =>
    if c = '0' then do
      let (digits, s) ← s.takeWhile isOctalDigit 2
      return (code (numberIn 8 digits), s)
    else if c.isDigit then readDigits groups c start s
    else readCode c start s

/-- Reads on after a backslash and `c` within a character class. -/
def readInClass (c : Char) (start : Nat) (s : Source) : Parse (Escape × Source) :=
  match category? c, control? c with
  | some e, _ => return (e, s)
  | _, some n => return (code n, s)
  | none, none =>
    if c = 'b' then return (code 0x08, s)
    else if isOctalDigit c then do
      let (digits, s) ← s.takeWhile isOctalDigit 2
      let n := numberIn 8 (c :: digits)
      if 0o377 < n then refuse (.octalTooLarge (spelling c digits)) start
      else return (code n, s)
    else if c.isDigit then refuse (.badEscape (spelling c [])) start
    else readCode c start s

end Escape

end UrlRouting.Expression
