/-! Matching expressions: tests of one character, assertions about a position, and the ways to
combine them. -/
namespace UrlRouting.Expression

/-- How the cases of letters are compared. -/
inductive Folding
  | exact
  /-- ASCII letters match in either case. -/
  | ascii
  /-- All letters match in either case. -/
  | full
  deriving DecidableEq, Repr

/-- The named classes of characters. -/
inductive Category
  | digit | blank | word
  deriving DecidableEq, Repr

/-- A part of a character class. Code points are numbers, since an expression may name one that no
text can hold. -/
inductive ClassItem
  | code (n : Nat)
  | range (first last : Nat)
  | category (which : Category) (asciiOnly negated : Bool)
  deriving DecidableEq, Repr

/-- A test of one character. -/
inductive CharTest
  | any
  | exceptNewline
  | literal (code : Nat) (negated : Bool) (folding : Folding)
  | oneOf (items : List ClassItem) (negated : Bool) (folding : Folding)
  deriving DecidableEq, Repr

/-- An assertion about the place between two characters. -/
inductive Anchor
  | textStart
  | lineStart
  /-- The end, or before a newline that ends the text. -/
  | lastLineEnd
  | lineEnd
  | textEnd
  | wordEdge (asciiOnly : Bool)
  | noWordEdge (asciiOnly : Bool)
  deriving DecidableEq, Repr

/-- Which number of turns a repetition tries first, and whether it tries others later. -/
inductive Greed
  | greedy | lazy | possessive
  deriving DecidableEq, Repr

/-- How many characters something matches: at least `least`, and at most `most` if that is known. -/
structure Width where
  least : Nat
  most : Option Nat
  deriving DecidableEq, Repr

/-- An expression. Groups are numbered from one by their opening parentheses. -/
inductive Node
  | empty
  | char (test : CharTest)
  | anchor (a : Anchor)
  /-- The text of a group once more. -/
  | again (group : Nat) (folding : Folding)
  | seq (first second : Node)
  | alt (first second : Node)
  | group (index : Nat) (body : Node)
  /-- A run of `least` to `most` characters that pass one test. -/
  | many (least : Nat) (most : Option Nat) (greed : Greed) (test : CharTest)
  /-- `least` to `most` turns of the body. -/
  | loop (least : Nat) (most : Option Nat) (greed : Greed) (body : Node)
  /-- The first match of the body, and no other. -/
  | atomic (body : Node)
  /-- The body matches, or does not match, from here on. -/
  | ahead (negated : Bool) (body : Node)
  /-- The body matches, or does not match, the text just before. -/
  | behind (negated : Bool) (width : Width) (body : Node)
  /-- One of two expressions, by whether a group has matched. -/
  | whether (group : Nat) (yes no : Node)
  deriving DecidableEq, Repr

namespace Node

def ofList (nodes : List Node) : Node :=
  nodes.foldr seq empty

def anyOf : List Node → Node
  | [] => empty
  | [n] => n
  | n :: rest => alt n (anyOf rest)

end Node

namespace Width

def zero : Width := ⟨0, some 0⟩

def one : Width := ⟨1, some 1⟩

def add (v w : Width) : Width :=
  ⟨v.least + w.least, do return (← v.most) + (← w.most)⟩

def either (v w : Width) : Width :=
  ⟨min v.least w.least, do return max (← v.most) (← w.most)⟩

/-- Between `least` and `most` times over. -/
def times (w : Width) (least : Nat) (most : Option Nat) : Width where
  least := w.least * least
  most := match w.most, most with
    | some 0, _ => some 0
    | _, some 0 => some 0
    | some n, some m => some (n * m)
    | _, _ => none

def isFixed (w : Width) : Bool :=
  w.most == some w.least

end Width

/-- The width of an expression, given the widths of the groups that it refers back to. -/
def Node.width (groups : List (Nat × Width)) : Node → Width
  | .empty | .anchor _ | .ahead .. | .behind .. => .zero
  | .char _ => .one
  | .again index _ => (groups.lookup index).getD .zero
  | .seq a b => (a.width groups).add (b.width groups)
  | .alt a b => (a.width groups).either (b.width groups)
  | .group _ body => body.width groups
  | .atomic body => body.width groups
  | .many least most _ _ => Width.one.times least most
  | .loop least most _ body => (body.width groups).times least most
  | .whether _ yes no => (yes.width groups).either (no.width groups)

end UrlRouting.Expression
