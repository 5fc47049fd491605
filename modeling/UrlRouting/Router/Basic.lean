import UrlRouting.Log
import UrlRouting.Method.Reading
import UrlRouting.Router.Factory

/-! Tables of routes. The route that was added first is tried first. -/
namespace UrlRouting

/-- A route with the methods that it answers to and the name of its handler, if it has one. -/
structure Entry where
  route : Target
  methods : MethodSet
  handler : Option String

structure Router where
  factory : RouteFactory
  entries : List Entry
  defaultHandler : Option String

/-- What a matched route or a path without a route was handed to. -/
inductive Reply
  | handled (handler : String) (route : Route)
  | fallback (handler : String) (path : Value)

/-- The result of an operation, which may fail, and what it has logged until then. -/
structure Logged (α : Type) where
  result : Except RoutingError α
  log : List LogLine

namespace Logged

variable {α β : Type}

def quiet (result : Except RoutingError α) : Logged α :=
  ⟨result, []⟩

/-- What is logged of a line. One that cannot be written is left out. -/
def lines : Except RoutingError String → List LogLine
  | .ok line => [.debug line]
  | .error _ => []

/-- Goes on with a result, keeping the log. -/
def andThen (l : Logged α) (f : α → Except RoutingError β) : Logged β :=
  ⟨l.result >>= f, l.log⟩

end Logged

/-- The handler that a value is. Nothing is no handler. -/
def handlerOf (what : String) : Value → Except RoutingError (Option String)
  | .none => .ok none
  | .handler name => .ok (some name)
  | v => .error (.notCallable what v.kind)

namespace Entry

/-- The entry answers to one of the methods. No choice of methods admits every entry. -/
def admits (e : Entry) : Option MethodSet → Bool
  | none => true
  | some wanted => MethodSet.meets e.methods wanted

end Entry

namespace Router

def create (factory : RouteFactory) (defaultHandler : Value) : Except RoutingError Router := do
  factory.check
  return ⟨factory, [], ← handlerOf "default_handler" defaultHandler⟩

def size (t : Router) : Nat :=
  t.entries.length

def handlerValue : Option String → Value
  | some name => .handler name
  | none => .none

def setDefaultHandler (t : Router) (handler : Value) : Except RoutingError Router := do
  return { t with defaultHandler := ← handlerOf "default_handler" handler }

/-! ### Adding -/

/-- The entry for a route that is added. Without a choice it answers to the usual methods. -/
def entryFor (route : Target) (handler methods : Value) : Except RoutingError Entry := do
  let handler ← handlerOf "handler" handler
  let methods ← MethodSet.ofValue methods
  return ⟨route, methods.getD MethodSet.usual, handler⟩

/-- The line for an entry that has been added, whose description is at hand. -/
def addedLine (description : String) (e : Entry) : Except RoutingError String :=
  return "Added " ++ description ++ " for " ++ (← (Value.methods e.methods).write)

def push (t : Router) (e : Entry) : Router :=
  { t with entries := t.entries ++ [e] }

/-- The entry for a pattern that is added. -/
def entryForPattern (t : Router) (pattern defaults handler methods : Value) :
    Except RoutingError Entry := do
  let defaults := if defaults.truthy then defaults else .dict []
  entryFor (← t.factory.make pattern defaults) handler methods

/-! ### Matching -/

/-- The first entry that admits the methods and for which `f` finds something. -/
def firstOf {α : Type} (wanted : Option MethodSet) (f : Target → Except RoutingError (Option α)) :
    List Entry → Except RoutingError (Option (Entry × α))
  | [] => .ok none
  | e :: rest =>
    if e.admits wanted then
      match f e.route with
      | .error err => .error err
      | .ok (some found) => .ok (some (e, found))
      | .ok none => firstOf wanted f rest
    else firstOf wanted f rest

/-- The first entry that matches a path, and the matched route. -/
def findPath (t : Router) (path methods : Value) :
    Except RoutingError (Option (Entry × Route)) := do
  let wanted ← MethodSet.ofValue methods
  firstOf wanted (·.matchValue path) t.entries

def matchedLine (path : Value) : Option (Entry × Route) → Except RoutingError String
  | some (_, r) => return (← path.write) ++ " matched " ++ r.pattern
  | none => return "No route matched " ++ (← path.write)

def matchPath (t : Router) (path methods : Value) : Logged (Option (Entry × Route)) :=
  match t.findPath path methods with
  | .ok found => ⟨.ok found, Logged.lines (matchedLine path found)⟩
  | .error err => .quiet (.error err)

/-- Hands a matched route to the handler of its entry, or else to the default one. -/
def call (t : Router) (e : Entry) (route : Route) : Except RoutingError Reply :=
  match e.handler, t.defaultHandler with
  | some handler, _ => .ok (.handled handler route)
  | none, some handler => .ok (.handled handler route)
  | none, none => .error (.noHandler route.pattern (route.matched.getD ""))

def replyTo (t : Router) (path : Value) (fallback : Option String) :
    Option (Entry × Route) → Except RoutingError Reply
  | some (e, route) => t.call e route
  | none => match fallback with
    | some handler => .ok (.fallback handler path)
    | none => do .error (.noRoute (← path.write))

/-- Matches a path and hands the route on, or the path itself if nothing matches. -/
def route (t : Router) (path methods noMatch : Value) : Logged Reply :=
  match handlerOf "no_match" noMatch with
  | .error err => .quiet (.error err)
  | .ok fallback => (t.matchPath path methods).andThen (t.replyTo path fallback)

/-- The path of the first route that matches a mapping of values. -/
def reverseRoute (t : Router) (values : Mapping) (methods : Value) :
    Except RoutingError (Option String) := do
  let wanted ← MethodSet.ofValue methods
  match ← firstOf wanted (·.matchDispatch values) t.entries with
  | some (_, matched) => return some (← matched.path)
  | none => return none

end Router

end UrlRouting
