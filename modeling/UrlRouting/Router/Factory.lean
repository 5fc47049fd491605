import UrlRouting.Route.Values

/-! What a table of routes holds, and where it gets it from: patterns and defaults go in, routes
come out. -/
namespace UrlRouting

/-- What a table has in the place of a route. It is a route, unless something else has been put
there, of which nothing that is asked of a route can be had. -/
inductive Target
  | route (r : Route)
  | other (v : Value)

namespace Target

def matchValue (o : Target) (path : Value) : Except RoutingError (Option Route) :=
  match o with
  | route r => r.matchValue path
  | other v => .error (.noAttribute v.kind "match_url")

def matchPath (o : Target) (path : String) : Except RoutingError (Option Route) :=
  o.matchValue (.str path)

def matchDispatch (o : Target) (values : Mapping) : Except RoutingError (Option Route) :=
  match o with
  | route r => r.matchDispatch values
  | other v => .error (.noAttribute v.kind "match_dispatch")

def describe : Target → Except RoutingError String
  | route r => r.describe
  | other v => .error (.noAttribute v.kind "describe")

end Target

inductive RouteFactory
  /-- Builds routes with options of its own. -/
  | configured (options : Route.Options)
  /-- Builds routes that ignore case. -/
  | ignoringCase (requireDispatch : Value)
  /-- Builds routes with the usual options. -/
  | usual
  /-- Anything that can be called, under the name that it is listed by. What it makes goes into the
  table as it is. -/
  | calling (name : String) (make : (pattern defaults : Value) → Except RoutingError Target)
  /-- Anything else, which builds nothing. -/
  | other (value : Value)

namespace RouteFactory

/-- The factory of a kind with the options that are given. The kind that ignores case takes no
option about case. -/
def ofKind? (kind : String) (caseSensitive requireDispatch : Option Value) :
    Except RoutingError (Option RouteFactory) :=
  let required := requireDispatch.getD Route.Options.usual.requireDispatch
  match kind with
  | "RouteFactory" =>
    .ok (some (configured ⟨caseSensitive.getD Route.Options.usual.caseSensitive, required⟩))
  | "CaseInsensitiveRouteFactory" =>
    if caseSensitive.isSome then .error (.unexpectedOption kind "case_sensitive")
    else .ok (some (ignoringCase required))
  | "Route" => .ok (some usual)
  | _ => .ok none

def make (f : RouteFactory) (pattern defaults : Value) : Except RoutingError Target :=
  match f with
  | configured options => .route <$> Route.build pattern defaults options
  | ignoringCase required => .route <$> Route.build pattern defaults ⟨.bool false, required⟩
  | usual => .route <$> Route.build pattern defaults .usual
  | calling _ make => make pattern defaults
  | other v => .error (.uncallable v.kind)

/-- The factory itself can be used. -/
def check (f : RouteFactory) : Except RoutingError Unit :=
  match f with
  | other v => .error (.notCallable "route_factory" v.kind)
  | _ => .ok ()

def described (name : String) (options : Route.Options) : Except RoutingError String :=
  return "<" ++ name ++ " case_sensitive=" ++ (← options.caseSensitive.write)
    ++ " require_dispatch=" ++ (← options.requireDispatch.write) ++ ">"

def quoted : RouteFactory → Except RoutingError String
  | configured options => described "RouteFactory" options
  | ignoringCase required => described "CaseInsensitiveRouteFactory" ⟨.bool false, required⟩
  | usual => .ok "<class 'signpost.router.route.Route'>"
  | calling name _ => .ok name
  | other v => v.writeQuoted

end RouteFactory

end UrlRouting
