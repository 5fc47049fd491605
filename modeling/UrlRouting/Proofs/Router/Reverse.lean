import UrlRouting.Proofs.Route.Admission
import UrlRouting.Proofs.Route.Links
import UrlRouting.Proofs.Router.Priority

/-! Reverse routing: the path of the first entry whose route matches a mapping of values. -/
namespace UrlRouting

open Expression

variable {f : RouteFactory} {t : Router} {steps : List Step} {e : Entry} {r m : Route}
  {wanted : Option MethodSet} {values : Mapping} {methods handler : Value} {err : RoutingError}

namespace Route

end Route

namespace Router

/-- The entry is the first of those that admit the methods and whose routes match the values, and
`m` is what its route becomes. -/
structure Reverses (t : Router) (wanted : Option MethodSet) (values : Mapping) (e : Entry)
    (m : Route) : Prop where
  admits : e.admits wanted = true
  route : e.route.matchDispatch values = .ok (some m)
  first : ∃ before after, t.entries = before ++ e :: after ∧
    ∀ e' ∈ before, e'.admits wanted = true → e'.route.matchDispatch values = .ok none

theorem reverses_iff : t.Reverses wanted values e m ↔
    firstOf wanted (·.matchDispatch values) t.entries = .ok (some (e, m)) := by
  rw [firstOf_eq_some]
  exact ⟨fun ⟨hadmits, hroute, hfirst⟩ => ⟨hadmits, hroute, hfirst⟩,
    fun ⟨hadmits, hroute, hfirst⟩ => ⟨hadmits, hroute, hfirst⟩⟩

theorem reverseRoute_eq (hwanted : MethodSet.ofValue methods = .ok wanted) :
    t.reverseRoute values methods =
      firstOf wanted (·.matchDispatch values) t.entries >>= fun found => match found with
        | some (_, m) => m.path.map some
        | none => .ok none := by
  rw [reverseRoute, hwanted, ok_bind]
  refine congrArg _ (funext fun found => ?_)
  cases found with
  | none => rfl
  | some x =>
    change (x.2.path >>= fun path => pure (some path)) = x.2.path.map some
    cases x.2.path <;> rfl

end Router

end UrlRouting
