import UrlRouting.Router.Basic

/-! Runs of a table of routes: steps one after the other, of which each may fail and the next is
taken all the same. -/
namespace UrlRouting

/-- What can be asked of a table. -/
inductive Step
  | add (pattern defaults handler methods : Value)
  | addRoute (pattern defaults : Value) (options : Route.Options) (handler methods : Value)
  /-- Adds what is at hand, as it is: a route, or anything else. -/
  | addBuilt (route : Target) (handler methods : Value)
  | setDefaultHandler (handler : Value)
  | matchPath (path methods : Value)
  | route (path methods noMatch : Value)
  | reverseRoute (values : Mapping) (methods : Value)
  | size
  | entries
  | defaultHandler

/-- Adds a pattern that answers to one method only. -/
def Step.addFor (m : Method) (pattern defaults handler : Value) : Step :=
  .add pattern defaults handler (.methods m.mask)

/-- What a step that succeeds answers with. -/
inductive Answer
  | added (route : Target)
  | matched (found : Option (Route × Option String))
  | replied (reply : Reply)
  | path (path : Option String)
  | count (n : Nat)
  | entries (entries : List Entry)
  | handler (handler : Option String)

namespace Router

/-- Adds an entry, if there is one. Its route is described for the log only when it is in the table
already, and that may fail. -/
def register (t : Router) : Except RoutingError Entry → Router × Logged Answer
  | .ok e => (t.push e, match e.route.describe with
    | .ok description => ⟨.ok (.added e.route), Logged.lines (addedLine description e)⟩
    | .error err => .quiet (.error err))
  | .error err => (t, .quiet (.error err))

/-- Takes a step. -/
def step (t : Router) : Step → Router × Logged Answer
  | .add pattern defaults handler methods =>
    t.register (t.entryForPattern pattern defaults handler methods)
  | .addRoute pattern defaults options handler methods =>
    t.register do entryFor (.route (← Route.build pattern defaults options)) handler methods
  | .addBuilt route handler methods => t.register (entryFor route handler methods)
  | .setDefaultHandler handler => match t.setDefaultHandler handler with
    | .ok t => (t, .quiet (.ok (.handler t.defaultHandler)))
    | .error err => (t, .quiet (.error err))
  | .matchPath path methods =>
    (t, (t.matchPath path methods).andThen fun found =>
      .ok (.matched (found.map fun (e, route) => (route, e.handler))))
  | .route path methods noMatch =>
    (t, (t.route path methods noMatch).andThen fun reply => .ok (.replied reply))
  | .reverseRoute values methods => (t, .quiet ((t.reverseRoute values methods).map .path))
  | .size => (t, .quiet (.ok (.count t.size)))
  | .entries => (t, .quiet (.ok (.entries t.entries)))
  | .defaultHandler => (t, .quiet (.ok (.handler t.defaultHandler)))

/-- Takes steps in order, with the answer to each. -/
def run (t : Router) : List Step → Router × List (Logged Answer)
  | [] => (t, [])
  | s :: rest =>
    let (t, answer) := t.step s
    let (t, answers) := run t rest
    (t, answer :: answers)

end Router

end UrlRouting
