import UrlRouting.Pattern.PathMatcher
import UrlRouting.Route.WildcardArg

/-! Routes: a pattern together with the values to dispatch on. Nothing changes a route; populated
routes are new ones, so that a registered route serves as a template. -/
namespace UrlRouting

structure Route where
  pattern : String
  matcher : PathMatcher
  dispatch : Mapping
  args : List WildcardArg
  /-- The path that the route was matched with. -/
  matched : Option String

namespace Route

variable {r : Route}

/-- Options of a new route. Both are tested for truth. -/
structure Options where
  caseSensitive : Value
  requireDispatch : Value

def Options.usual : Options := ⟨.bool true, .bool false⟩

/-! ### Building -/

/-- Gives each name of a pattern an entry without a value, after the defaults. -/
def addNames (pattern : String) : (defaults : Mapping) → List String → Except RoutingError Mapping
  | m, [] => .ok m
  | m, name :: rest =>
    if m.has (.str name) then .error (.nameAmongDefaults pattern name)
    else addNames pattern (m.insert (.str name) .none) rest

/-- The entry that a member of a sequence of pairs stands for. -/
def entryOf (index : Nat) (member : Value) : Except RoutingError (Value × Value) :=
  match member.items? with
  | none => .error (.memberNotPair index)
  | some [k, v] => match k.unhashable? with
    | some kind => .error (.unhashable kind)
    | none => .ok (k, v)
  | some items => .error (.memberOfLength index items.length)

def entriesOf (members : List Value) : Except RoutingError Mapping := do
  let entries ← members.zipIdx.mapM fun (member, index) => entryOf index member
  return Mapping.ofList entries

/-- The mapping that a value stands for. Whatever counts as false stands for the empty one. -/
def defaultsOf (value : Value) : Except RoutingError Mapping :=
  if !value.truthy then .ok []
  else match value with
    | .dict entries => .ok entries
    | v => match v.items? with
      | some members => entriesOf members
      | none => .error (.notIterable v.kind)

def build (pattern defaults : Value) (options : Options) : Except RoutingError Route := do
  let (text, p) ← Pattern.ofValue pattern
  let dispatch ← addNames text (← defaultsOf defaults) p.names
  if options.requireDispatch.truthy && dispatch.isEmpty && !p.wildcard then
    .error (.nothingToDispatch text)
  else
    let matcher ← PathMatcher.build p options.caseSensitive
    return ⟨text, matcher, dispatch, [], none⟩

def hasWildcard (r : Route) : Bool :=
  r.matcher.pattern.wildcard

def caseSensitive (r : Route) : Value :=
  r.matcher.caseSensitive

/-! ### Matching -/

/-- The route for the captures of a path. Without a tail the arguments stay. -/
def withCaptures (r : Route) (path : String) (c : Captures) : Route :=
  { r with
    dispatch := r.dispatch.insertAll c.values
    args := match c.tail with
      | some tail => WildcardArg.parse tail.toList
      | none => r.args
    matched := some path }

def matchPath (r : Route) (path : String) : Except RoutingError (Option Route) :=
  (r.matcher.matchPath path).map fun found => found.map (r.withCaptures path)

/-- Matches a path given as any value, which has to be a text. -/
def matchValue (r : Route) (path : Value) : Except RoutingError (Option Route) :=
  match path with
  | .str s => r.matchPath s
  | v => (r.matcher.matchValue v).map fun _ => none

/-- The name of a segment, if a key is one. -/
def segmentName? (r : Route) : Value → Option String
  | .str s => if r.matcher.hasSegment s then some s else none
  | _ => none

/-- The argument that a key without an entry stands for. Its name is the key as it is written. -/
def argFor (key value : Value) : Except RoutingError WildcardArg := do
  if key.isPositional then return .positional value else return ⟨.str (← key.write), value⟩

/-- Takes in one key and value: a segment has to accept its value as it is written, another entry
has to be that very value, and what has no entry becomes an argument. -/
def takeEntry (r : Route) (dispatch : Mapping) (args : List WildcardArg) (key value : Value) :
    Except RoutingError (Option (Mapping × List WildcardArg)) :=
  match r.segmentName? key with
  | some name =>
    if value.isNothing then .ok none
    else do
      if r.matcher.accepts name (← value.write) then return some (dispatch.insert key value, args)
      else return none
  | none => match dispatch.get? key with
    | some own => .ok (if own.identical value then some (dispatch, args) else none)
    | none =>
      if !r.hasWildcard then .ok none
      else do return some (dispatch, WildcardArg.merge args (← argFor key value))

/-- Takes in entries one after the other, up to the first that does not fit. -/
def takeEntries (r : Route) : Mapping → List WildcardArg → List (Value × Value) →
    Except RoutingError (Option (Mapping × List WildcardArg))
  | dispatch, args, [] => .ok (some (dispatch, args))
  | dispatch, args, (key, value) :: rest => do
    match ← r.takeEntry dispatch args key value with
    | some (dispatch, args) => r.takeEntries dispatch args rest
    | none => return none

/-- Matches a mapping of values: it has to have all keys of the route. -/
def matchDispatch (r : Route) (values : Mapping) : Except RoutingError (Option Route) :=
  if !r.dispatch.keys.all values.has then .ok none
  else do
    let taken ← r.takeEntries r.dispatch [] values
    return taken.map fun (dispatch, args) => { r with dispatch := dispatch, args := args }

/-! ### Writing -/

/-- What a segment adds to a path. -/
def segmentPart (r : Route) (s : Segment) : Except RoutingError (List Char) :=
  if s.isNamed then
    match r.dispatch.get? (.str s.data) with
    | none | some .none => .error (.incompleteRoute s.data r.pattern)
    | some v => do return (← v.write).toList
  else .ok s.data.toList

/-- What the arguments of a route add to its path. -/
def argsPart (r : Route) : Except RoutingError (List Char) := do
  if r.args.isEmpty then return [] else return '/' :: (← WildcardArg.format r.args)

/-- The path of a route. Slashes before the arguments, and at the end without any, are left out. -/
def path (r : Route) : Except RoutingError String := do
  let parts ← r.matcher.pattern.segments.mapM r.segmentPart
  let fixed := Text.trimEnd (· == '/') ('/' :: Text.joinPieces '/' parts)
  let whole := fixed ++ (← r.argsPart)
  return String.ofList (if whole.isEmpty then ['/'] else whole)

end Route

end UrlRouting
