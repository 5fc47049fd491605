import UrlRouting.Pattern.Segment

/-! Patterns of paths: segments, and perhaps a wildcard that takes whatever follows them. -/
namespace UrlRouting

structure Pattern where
  segments : List Segment
  wildcard : Bool
  deriving DecidableEq, Repr

namespace Pattern

def names (p : Pattern) : List String :=
  (p.segments.filter Segment.isNamed).map Segment.data

/-- The parts of a pattern between its slashes. -/
def parts (pattern : List Char) : List (List Char) :=
  Text.pieces '/' (Text.trim (· == '/') pattern)

/-- Reads parts one after the other. `seen` are the names so far, of which none may come again. -/
def readParts (pattern : String) :
    (seen : List String) → List (List Char) → Except RoutingError (List Segment)
  | _, [] => .ok []
  | seen, part :: rest => do
    let s ← Segment.ofPart part
    if s.isNamed && seen.contains s.data then .error (.duplicateName s.data pattern)
    else
      let seen := if s.isNamed then s.data :: seen else seen
      return s :: (← readParts pattern seen rest)

/-- Reads a pattern. A last part that is just an asterisk is the wildcard. -/
def read (pattern : String) : Except RoutingError Pattern := do
  if pattern.isEmpty then .error .emptyPattern
  else if pattern.toList.head? != some '/' then .error (.patternWithoutSlash pattern)
  else
    let parts := parts pattern.toList
    let wildcard := parts.getLast? == some ['*']
    let segments ← readParts pattern [] (if wildcard then parts.dropLast else parts)
    return ⟨segments, wildcard⟩

/-- Reads a pattern given as any value, which has to be a text. -/
def ofValue (value : Value) : Except RoutingError (String × Pattern) :=
  match value with
  | .str s => (read s).map fun p => (s, p)
  | v => .error (.patternNotText v.kind)

end Pattern

end UrlRouting
