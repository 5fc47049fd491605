import UrlRouting.Expression.CharTest

/-! The parts of a sequence while it is read, and the alternatives that sequences form. -/
namespace UrlRouting.Expression

/-- What may follow a piece, and what may be done with it. -/
inductive Role
  /-- One character, or the text of a group. -/
  | atom
  | anchor
  | repetition
  /-- A group or an assertion. -/
  | enclosed
  deriving DecidableEq, Repr

structure Piece where
  node : Node
  role : Role
  deriving DecidableEq, Repr

namespace Piece

/-- Equal pieces at the head of all alternatives are matched once, in front of them. -/
def isShareable (p : Piece) : Bool :=
  match p.role with
  | .atom | .anchor => true
  | .repetition | .enclosed => false

/-- The members of the class that the piece is. -/
def items? (p : Piece) : Option (List ClassItem) :=
  match p.node with
  | .char (.literal code false _) => some [.code code]
  | .char (.oneOf items false _) => some items
  | _ => none

end Piece

/-- Splits off the pieces with which all branches begin. -/
def sharedHeads : (first : List Piece) → (others : List (List Piece)) →
    List Piece × List (List Piece)
  | [], others => ([], [] :: others)
  | p :: first, others =>
    if p.isShareable && others.all (·.head? == some p) then
      let (heads, branches) := sharedHeads first (others.map List.tail)
      (p :: heads, branches)
    else ([], (p :: first) :: others)

/-- The members of the class that several branches are. -/
def classOf? (branches : List (List Piece)) : Option (List ClassItem) :=
  (branches.mapM onlyItems?).map List.flatten
where
  onlyItems? : List Piece → Option (List ClassItem)
    | [p] => p.items?
    | _ => none

/-- The sequence that stands for several branches: what they share, and then a class, if each is a
single character, or else the alternatives. -/
def alternatives (f : Folding) : List (List Piece) → List Piece
  | [] => []
  | [pieces] => pieces
  | first :: others =>
    let (heads, branches) := sharedHeads first others
    let choice : Piece := match classOf? branches with
      | some items => ⟨.char (.ofItems f items.eraseDups false), .atom⟩
      | none => ⟨.anyOf (branches.map fun ps => .ofList (ps.map Piece.node)), .enclosed⟩
    heads ++ [choice]

end UrlRouting.Expression
