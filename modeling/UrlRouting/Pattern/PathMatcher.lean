import UrlRouting.Pattern.Basic
import UrlRouting.Value.Mapping
import UrlRouting.Value.Text

/-! The expression of a pattern, with a group for each named segment and one for the tail. A slash
at the end of a path is tolerated. -/
namespace UrlRouting

structure PathMatcher where
  pattern : Pattern
  /-- Tested for truth, and shown as it was given. -/
  caseSensitive : Value
  expression : Expression
  /-- The expressions of the named segments, each by itself. -/
  constraints : List (String × Expression)

/-- What a path that matches is made of. -/
structure Captures where
  /-- The text of each named segment, or nothing if its group took no part. -/
  values : Mapping
  /-- What follows the fixed segments, for a pattern with a wildcard. -/
  tail : Option String

namespace PathMatcher

def ignoresCase (caseSensitive : Value) : Bool :=
  !caseSensitive.truthy

def groupName (index : Nat) : String :=
  "_s" ++ toString index

def tailName : String := "_tail"

/-- What a segment contributes to the expression of its pattern. -/
def segmentText (s : Segment) (index : Nat) : List Char :=
  if s.isNamed then ("(?P<" ++ groupName index ++ ">" ++ s.expression ++ ")").toList
  else s.expression.toList

def segmentTexts (p : Pattern) : List (List Char) :=
  p.segments.zipIdx.map fun (s, index) => segmentText s index

/-- The expression of a pattern. -/
def expressionText (p : Pattern) : String :=
  String.ofList <|
    if p.wildcard && p.segments.isEmpty then "/(?P<_tail>.*)".toList
    else '/' :: Text.joinPieces '/' (segmentTexts p)
      ++ (if p.wildcard then "(?P<_tail>(?:/.*)?)/?" else "/?").toList

def compile (caseSensitive : Value) (text : String) : Except RoutingError Expression :=
  match Expression.compile (ignoresCase caseSensitive) text with
  | .ok e => .ok e
  | .error r => .error (.ofRejection (.badExpression text) r)

def constraintsOf (caseSensitive : Value) (p : Pattern) :
    Except RoutingError (List (String × Expression)) :=
  (p.segments.filter Segment.isNamed).mapM fun s => do
    return (s.data, ← compile caseSensitive (Segment.isolated s.expression))

def build (p : Pattern) (caseSensitive : Value) : Except RoutingError PathMatcher := do
  let constraints ← constraintsOf caseSensitive p
  let expression ← compile caseSensitive (expressionText p)
  return ⟨p, caseSensitive, expression, constraints⟩

/-- The text of a group, if it took part. -/
def capture (m : PathMatcher) (found : Expression.Match) (name : String) :
    Except RoutingError (Option String) :=
  match m.expression.names.lookup name with
  | some index => .ok (found.group? index)
  | none => .error .noSuchCapture

def textOrNone : Option String → Value
  | some s => .str s
  | none => .none

/-- The captured values by the names of their segments. -/
def captureValues (m : PathMatcher) (found : Expression.Match) : Except RoutingError Mapping := do
  let named := m.pattern.segments.zipIdx.filter (·.1.isNamed)
  let entries ← named.mapM fun (s, index) => do
    return (Value.str s.data, textOrNone (← m.capture found (groupName index)))
  return Mapping.ofList entries

/-- Matches a whole path. -/
def matchPath (m : PathMatcher) (path : String) : Except RoutingError (Option Captures) :=
  match m.expression.fullMatch? path with
  | none => .ok none
  | some found => do
    let values ← m.captureValues found
    let tail ← if m.pattern.wildcard then m.capture found tailName else .ok none
    return some ⟨values, tail⟩

/-- Matches a path given as any value, which has to be a text. -/
def matchValue (m : PathMatcher) : Value → Except RoutingError (Option Captures)
  | .str path => m.matchPath path
  | .bytes _ => .error .pathOfBytes
  | v => .error (.pathNotText v.kind)

/-- The constraint of a segment. Of two segments with one name the later counts. -/
def constraint? (m : PathMatcher) (name : String) : Option Expression :=
  m.constraints.reverse.lookup name

def hasSegment (m : PathMatcher) (name : String) : Bool :=
  (m.constraint? name).isSome

/-- A whole text satisfies the constraint of a segment. -/
def accepts (m : PathMatcher) (name text : String) : Bool :=
  match m.constraint? name with
  | some e => e.matchesAll text
  | none => false

/-- Asks for a segment by any value. Only texts are names, but every value may be asked for that
can be a key. -/
def hasSegmentValue (m : PathMatcher) (name : Value) : Except RoutingError Bool :=
  match name.unhashable? with
  | some kind => .error (.unhashable kind)
  | none => match name with
    | .str s => .ok (m.hasSegment s)
    | _ => .ok false

/-- Checks a value, as it is written, against the constraint of a segment. -/
def matchSegment (m : PathMatcher) (name value : Value) : Except RoutingError Bool := do
  if ← m.hasSegmentValue name then
    match name with
    | .str s => return m.accepts s (← value.write)
    | _ => .error (.unknownSegment (← name.write))
  else .error (.unknownSegment (← name.write))

def quoted (m : PathMatcher) : String :=
  "<Matcher " ++ Text.quoted m.expression.text
    ++ (if m.caseSensitive.truthy then "" else " (i)") ++ ">"

end PathMatcher

end UrlRouting
