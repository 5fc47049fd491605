import UrlRouting.Expression.Matching
import UrlRouting.Expression.Reading

/-! Expressions read from texts, and what they capture. -/
namespace UrlRouting

structure Expression where
  text : String
  node : Expression.Node
  /-- The named groups and their indices. -/
  names : List (String × Nat)
  deriving DecidableEq, Repr

namespace Expression

/-- Reads an expression, in which the case of letters matters or not. -/
def compile (ignoreCase : Bool) (text : String) : Parse Expression := do
  let source ← Source.ofText text
  let r ← (Reading.start ignoreCase source).run source.rest.length
  return ⟨text, ← r.finish, r.groups.names⟩

/-- A text and the state in which an expression has matched it. -/
structure Match where
  subject : Subject
  state : State

namespace Match

/-- The text that a group has matched, if it took part. -/
def group? (m : Match) (index : Nat) : Option String :=
  (m.state.span? index).map fun span =>
    String.ofList ((m.subject.toList.drop span.1).take (span.2 - span.1))

end Match

/-- The match of a whole text. -/
def fullMatch? (e : Expression) (text : String) : Option Match :=
  let subject := text.toList.toArray
  (e.node.fullMatch subject).map fun state => ⟨subject, state⟩

def matchesAll (e : Expression) (text : String) : Bool :=
  (e.fullMatch? text).isSome

end Expression

end UrlRouting
