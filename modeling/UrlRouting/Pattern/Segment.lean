import UrlRouting.Expression.Compiled
import UrlRouting.Expression.Literal
import UrlRouting.RoutingError
import UrlRouting.Text.Pieces

/-! The parts of a pattern between its slashes. -/
namespace UrlRouting

inductive SegmentKind
  | exact
  /-- Named, and filled by anything without a slash. -/
  | placeholder
  /-- Named, with an expression of its own. -/
  | constrained
  deriving DecidableEq, Repr

structure Segment where
  kind : SegmentKind
  /-- The text of an exact segment, the name of any other. -/
  data : String
  /-- The expression that the segment contributes to that of the pattern. -/
  expression : String
  deriving DecidableEq, Repr

namespace Segment

def isNamed (s : Segment) : Bool :=
  s.kind != .exact

/-- What fills a placeholder. -/
def anything : String := "[^/]+"

def exact (text : List Char) : Segment :=
  ⟨.exact, String.ofList text, String.ofList (Expression.escape text)⟩

def placeholder (name : List Char) : Segment :=
  ⟨.placeholder, String.ofList name, anything⟩

/-- An expression as it stands within another one. -/
def isolated (expression : String) : String :=
  "(?:" ++ expression ++ ")"

/-- A constraint without the angle brackets around it, between which there has to be something. -/
def unbracketed (constraint : List Char) : List Char :=
  if 2 < constraint.length && constraint.head? == some '<' && constraint.getLast? == some '>' then
    (constraint.drop 1).dropLast
  else constraint

/-- Cuts a part at its last colon into constraint and name. The name consists of word characters
and the constraint is on one line. -/
def cutNamed? (part : List Char) : Option (List Char × List Char) :=
  match Text.cutLast? ':' part with
  | some (constraint, name) =>
    if !name.isEmpty && name.all (fun c => Text.isWord c.toNat) && !constraint.contains '\n' then
      some (constraint, name)
    else none
  | none => none

def constrained (constraint name : List Char) : Except RoutingError Segment :=
  let constraint := String.ofList (unbracketed constraint)
  let name := String.ofList name
  match Expression.compile false (isolated constraint) with
  | .ok _ => .ok ⟨.constrained, name, constraint⟩
  | .error r =>
    .error (.ofRejection (.badConstraint constraint name (isolated constraint)) r)

/-- The segment for a part of a pattern. -/
def ofPart (part : List Char) : Except RoutingError Segment :=
  match cutNamed? part with
  | none => .ok (exact part)
  | some ([], name) => .ok (placeholder name)
  | some (constraint, name) => constrained constraint name

end Segment

end UrlRouting
