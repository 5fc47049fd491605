import UrlRouting.Route.Basic

/-! The values of a route, and routes with other values. -/
namespace UrlRouting.Route

/-- A key for a look-up. Collections that may change are none. -/
def checkKey (key : Value) : Except RoutingError Unit :=
  match key.unhashable? with
  | some kind => .error (.unhashable kind)
  | none => .ok ()

def positionals (r : Route) : List Value :=
  (r.args.filter WildcardArg.isPositional).map WildcardArg.value

/-- The member at an index, counted from the end if it is negative. -/
def atIndex (values : List Value) (index : Int) : Value :=
  let place := if index < 0 then index + values.length else index
  if place < 0 then .none else (values[place.toNat]?).getD .none

/-- The argument with a name, or at an index among the positional ones. -/
def wildcardArg (r : Route) (key : Value) : Value :=
  match key.asInt? with
  | some index => atIndex r.positionals index
  | none => ((r.args.find? fun a => a.name.equal key).map WildcardArg.value).getD .none

def dispatchValue (r : Route) (name : Value) : Except RoutingError Value := do
  checkKey name
  return (r.dispatch.get? name).getD .none

/-- The value under a name, or else the argument of that name. -/
def get (r : Route) (name : Value) : Except RoutingError Value := do
  let value ← r.dispatchValue name
  return if value.isNothing then r.wildcardArg name else value

/-- Adds an argument, positional if the name is nothing. -/
def withWildcardArg (r : Route) (value name : Value) : Except RoutingError Route :=
  if !r.hasWildcard then do
    .error (.wildcardNotTaken r.pattern (← (if name.isNothing then value else name).write))
  else .ok { r with args := WildcardArg.merge r.args ⟨name, value⟩ }

/-- The expression of a named segment, as it is written in the pattern. -/
def constraintText (r : Route) (name : String) : String :=
  ((r.matcher.pattern.segments.find? fun s => s.isNamed && s.data == name).map
    Segment.expression).getD ""

/-- The name of an entry, if a key is one. -/
def entryName? (r : Route) : Value → Option String
  | .str s => if r.dispatch.has (.str s) then some s else none
  | _ => none

/-- A value may become that of an entry. A segment has to accept it as it is written. -/
def checkValue (r : Route) (name : String) (value : Value) : Except RoutingError Unit := do
  if r.matcher.hasSegment name then
    let text ← value.write
    if !r.matcher.accepts name text then
      .error (.valueNotMatching text (r.constraintText name) name)

/-- Sets an entry to a value that it may have, or else adds an argument. -/
def withValue (r : Route) (name value : Value) : Except RoutingError Route :=
  match r.entryName? name with
  | some s => do
    r.checkValue s value
    return { r with dispatch := r.dispatch.insert name value }
  | none => r.withWildcardArg value (if name.isPositional then .none else name)

/-- Matches the route with its own path. -/
def roundTrip (r : Route) : Except RoutingError (Option Route) := do
  r.matchPath (← r.path)

/-! ### Comparing and showing -/

def argsAgree : List WildcardArg → List WildcardArg → Bool
  | [], [] => true
  | a :: as, b :: bs => a.name.agrees b.name && a.value.agrees b.value && argsAgree as bs
  | _, _ => false

/-- Equal in pattern, in regard for case, in values and in arguments, whatever path was matched. -/
def equal (r s : Route) : Bool :=
  r.pattern == s.pattern && r.caseSensitive.equal s.caseSensitive
    && r.dispatch.equal s.dispatch && argsAgree r.args s.args

/-- A route equals no value that is not a route. -/
def equalsValue (_ : Route) (_ : Value) : Bool := false

/-- The two routes match paths with one expression. -/
def sharesMatcher (r s : Route) : Bool :=
  r.matcher.expression.text == s.matcher.expression.text
    && r.caseSensitive.agrees s.caseSensitive

/-- Routes are no keys. -/
def hash (_ : Route) : Except RoutingError Nat := .error .routeUnhashable

/-- An entry as descriptions show it. -/
def describeEntry (e : Value × Value) : Except RoutingError String :=
  return (← e.1.write) ++ "=" ++ (← e.2.write)

/-- The pattern and the values that are set. -/
def describe (r : Route) : Except RoutingError String := do
  let values ← (r.dispatch.filter fun e => !e.2.isNothing).mapM describeEntry
  return " ".intercalate (r.pattern :: values)

/-- The listing form, with a word that tells one route from another. -/
def quoted (r : Route) (identity : String) : Except RoutingError String :=
  return "<Route " ++ r.pattern ++ ", " ++ (← (Value.dict r.dispatch).writeQuoted) ++ " "
    ++ identity ++ ">"

end UrlRouting.Route
