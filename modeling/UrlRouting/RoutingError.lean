import UrlRouting.Expression.Fault
import UrlRouting.Text.Integer
import UrlRouting.Text.Quoted
import UrlRouting.Value.Basic

/-! What can go wrong while patterns are read, routes are built, and paths are matched or
written. Values that an error speaks of are part of it as they are written. -/
namespace UrlRouting

inductive RoutingError
  -- Patterns
  | patternNotText (kind : Kind)
  | emptyPattern
  | patternWithoutSlash (pattern : String)
  /-- The constraint of a named part is no expression: `compiled` is the text that was read. -/
  | badConstraint (constraint name compiled : String) (fault : Expression.Fault)
      (position : Option Nat)
  | badExpression (compiled : String) (fault : Expression.Fault) (position : Option Nat)
  | repetitionTooLarge
  | numberTooLong (digits : Nat)
  | duplicateName (name pattern : String)
  | nameAmongDefaults (pattern name : String)
  | nothingToDispatch (pattern : String)
  -- Values
  | unhashable (kind : Kind)
  /-- A number has more digits than may be written. -/
  | numberUnwritable
  | notIterable (kind : Kind)
  /-- A member of a sequence of pairs is no sequence itself. -/
  | memberNotPair (index : Nat)
  | memberOfLength (index length : Nat)
  -- Matching
  | pathNotText (kind : Kind)
  | pathOfBytes
  | noSuchCapture
  | unknownSegment (name : String)
  | tailOfBytes
  -- Routes
  | valueNotMatching (value constraint name : String)
  | wildcardNotTaken (pattern what : String)
  | incompleteRoute (name pattern : String)
  | routeUnhashable
  -- Methods
  | methodNotText (kind : Kind)
  | unsupportedMethod (name : String)
  | unsupportedMask (mask : String)
  | noMethods
  -- Tables of routes
  | notCallable (what : String) (kind : Kind)
  | uncallable (kind : Kind)
  | unexpectedOption (factory option : String)
  /-- A value is asked for what only others of its place can do. -/
  | noAttribute (kind : Kind) (name : String)
  | noRoute (path : String)
  | noHandler (pattern path : String)

namespace RoutingError

def ofRejection (malformed : Expression.Fault → Option Nat → RoutingError) :
    Expression.Rejection → RoutingError
  | .malformed fault position => malformed fault position
  | .repetitionTooLarge => repetitionTooLarge
  | .numberTooLong digits => numberTooLong digits

def inQuotes (s : String) : String :=
  "\"" ++ s ++ "\""

/-- Numbers that are too long to be read or written. -/
def tooLong (detail : String) : String :=
  "Exceeds the limit (" ++ toString Text.integerDigitLimit
    ++ " digits) for integer string conversion" ++ detail
    ++ "; use sys.set_int_max_str_digits() to increase the limit"

def message : RoutingError → String
  | patternNotText kind => "Pattern must be a string, got " ++ kind.name
  | emptyPattern => "Pattern is empty"
  | patternWithoutSlash pattern => "Pattern " ++ inQuotes pattern ++ " must start with a /"
  | badConstraint constraint name compiled fault position =>
    "Invalid expression " ++ inQuotes constraint ++ " for " ++ inQuotes name ++ ": "
      ++ Expression.malformedMessage compiled fault position
  | badExpression compiled fault position =>
    "Invalid expression " ++ inQuotes compiled ++ ": "
      ++ Expression.malformedMessage compiled fault position
  | repetitionTooLarge => "the repetition number is too large"
  | numberTooLong digits => tooLong (": value has " ++ toString digits ++ " digits")
  | duplicateName name pattern =>
    "Duplicate name " ++ inQuotes name ++ " in pattern " ++ inQuotes pattern
  | nameAmongDefaults pattern name =>
    "Both the pattern " ++ inQuotes pattern ++ " and the defaults contain " ++ inQuotes name
  | nothingToDispatch pattern =>
    "Pattern " ++ inQuotes pattern ++ " and its defaults contain nothing to dispatch on"
  | unhashable kind => "unhashable type: " ++ Text.quoted kind.name
  | numberUnwritable => tooLong ""
  | notIterable kind => Text.quoted kind.name ++ " object is not iterable"
  | memberNotPair index =>
    "cannot convert dictionary update sequence element #" ++ toString index ++ " to a sequence"
  | memberOfLength index length =>
    "dictionary update sequence element #" ++ toString index ++ " has length " ++ toString length
      ++ "; 2 is required"
  | pathNotText kind => "expected string or bytes-like object, got " ++ Text.quoted kind.name
  | pathOfBytes => "cannot use a string pattern on a bytes-like object"
  | noSuchCapture => "no such group"
  | unknownSegment name => "Pattern has no segment called " ++ inQuotes name
  | tailOfBytes => "a bytes-like object is required, not 'str'"
  | valueNotMatching value constraint name =>
    "Value " ++ inQuotes value ++ " does not match " ++ inQuotes constraint
      ++ " required for " ++ inQuotes name
  | wildcardNotTaken pattern what =>
    "Route " ++ inQuotes pattern ++ " does not take wildcard arguments, cannot set "
      ++ inQuotes what
  | incompleteRoute name pattern =>
    "No value for " ++ inQuotes name ++ " to fill pattern " ++ inQuotes pattern
  | routeUnhashable => "unhashable type: 'Route'"
  | methodNotText kind => "Method name must be a string, got " ++ kind.name
  | unsupportedMethod name => "Unsupported method " ++ inQuotes name
  | unsupportedMask mask => "Unsupported method mask " ++ mask
  | noMethods => "No methods given"
  | notCallable what kind => what ++ " must be callable, got " ++ kind.name
  | uncallable kind => Text.quoted kind.name ++ " object is not callable"
  | unexpectedOption factory option =>
    factory ++ ".__init__() got an unexpected keyword argument " ++ Text.quoted option
  | noAttribute kind name =>
    Text.quoted kind.name ++ " object has no attribute " ++ Text.quoted name
  | noRoute path => "No route matched " ++ path
  | noHandler pattern path =>
    "Route " ++ pattern ++ " matched URL " ++ path ++ ", but no handler given"

end RoutingError

end UrlRouting
