import UrlRouting.Proofs.Pattern.Passage
import UrlRouting.Proofs.Route.Moves
import UrlRouting.Proofs.Router.Methods

/-! Which entry of a table is chosen for a path, and who the matched route is handed to. -/
namespace UrlRouting

open Expression

variable {f : RouteFactory} {t : Router} {s : Step} {steps : List Step} {e : Entry}
  {r m : Route} {wanted : Option MethodSet} {path : String} {methods noMatch handler : Value}
  {fallback : Option String}

/-! ### Routes at hand -/

/-- The route has been built, or comes from one that has by moves. -/
def Route.IsDerived (r : Route) : Prop :=
  ∃ pattern defaults options t moves, Route.build pattern defaults options = .ok t ∧
    Route.Reached t moves r

theorem Route.isDerived_of_build {pattern defaults : Value} {options : Route.Options}
    (h : Route.build pattern defaults options = .ok r) : r.IsDerived :=
  ⟨_, _, _, _, _, h, .start⟩

/-- A route that comes from one that has been built has an answer to every path. -/
theorem Route.IsDerived.exists_matchPath (h : r.IsDerived) (path : String) :
    ∃ found, r.matchPath path = .ok found := by
  obtain ⟨_, _, _, t, _, hbuild, hreached⟩ := h
  obtain ⟨p, ds, _, _, hb⟩ := Route.built_of_build hbuild
  obtain ⟨found, hfound⟩ := UrlRouting.exists_matchPath hb.read hb.matcher path
  exact ⟨_, by rw [Route.matchPath, (hb.keeps hreached).matcher, hfound]; rfl⟩

/-- What stands in the place of a route is one that has been built, or comes from one. -/
def Target.IsDerived : Target → Prop
  | .route r => r.IsDerived
  | .other _ => False

theorem Target.IsDerived.exists_route {o : Target} (h : o.IsDerived) :
    ∃ r, o = .route r ∧ r.IsDerived := by
  cases o with
  | route r => exact ⟨r, rfl, h⟩
  | other v => cases h

/-- What a factory makes comes from a route that has been built. Of something that is only called it
has to be said. -/
def RouteFactory.BringsDerived : RouteFactory → Prop
  | .calling _ make =>
    ∀ pattern defaults route, make pattern defaults = .ok route → route.IsDerived
  | _ => True

/-- A route that the step brings along comes from one that has been built. -/
def Step.BringsDerived : Step → Prop
  | .addBuilt o _ _ => o.IsDerived
  | _ => True

namespace Router

theorem isDerived_of_make {pattern defaults : Value} {route : Target} (hf : f.BringsDerived)
    (h : f.make pattern defaults = .ok route) : route.IsDerived := by
  cases f with
  | configured | ignoringCase | usual =>
    obtain ⟨r, hbuild, rfl⟩ := map_eq_ok.1 h
    exact Route.isDerived_of_build hbuild
  | calling => exact hf _ _ _ h
  | other => cases h

theorem Adds.isDerived (h : Adds f s e) (hf : f.BringsDerived) (hs : s.BringsDerived) :
    e.route.IsDerived := by
  cases h with
  | pattern hroute => exact isDerived_of_make hf hroute
  | spelled hroute => exact Route.isDerived_of_build hroute
  | built => exact hs

/-- The routes of all entries come from routes that have been built. -/
def IsDerived (t : Router) : Prop :=
  ∀ e ∈ t.entries, e.route.IsDerived

theorem IsDerived.step (ht : t.IsDerived) (hf : t.factory.BringsDerived) (hs : s.BringsDerived) :
    (t.step s).1.IsDerived := by
  have h := change_step t s
  generalize (t.step s).1 = t', (t.step s).2 = answer at h ⊢
  cases h with
  | added _ he =>
    intro e' he'
    rcases List.mem_append.1 he' with he' | he'
    · exact ht e' he'
    · rw [List.mem_singleton.1 he']
      exact he.isDerived hf hs
  | handled | failed | asked => exact ht

theorem IsDerived.run (ht : t.IsDerived) (hf : t.factory.BringsDerived)
    (hsteps : ∀ s ∈ steps, s.BringsDerived) : (t.run steps).1.IsDerived := by
  induction steps generalizing t with
  | nil => exact ht
  | cons s steps ih =>
    obtain ⟨hs, hsteps⟩ := List.forall_mem_cons.1 hsteps
    have hfactory : (t.step s).1.factory = t.factory :=
      (outcome_of_change (change_step t s)).factory
    exact ih (ht.step hf hs) (hfactory ▸ hf) hsteps

/-- So it is after any steps of a new table. -/
theorem isDerived_of_run (hcreate : create f handler = .ok t) (hf : f.BringsDerived)
    (hsteps : ∀ s ∈ steps, s.BringsDerived) : (t.run steps).1.IsDerived := by
  obtain ⟨_, _, h⟩ := bind_eq_ok.1 hcreate
  obtain ⟨_, _, h⟩ := bind_eq_ok.1 h
  cases h
  exact IsDerived.run (by simp [IsDerived]) hf hsteps

/-! ### The first entry -/

/-- The entry is the first of those that admit the methods and whose routes match the path, and `m`
is what its route becomes. -/
structure Chooses (t : Router) (wanted : Option MethodSet) (path : String) (e : Entry) (m : Route) :
    Prop where
  admits : e.admits wanted = true
  route : e.route.matchPath path = .ok (some m)
  first : ∃ before after, t.entries = before ++ e :: after ∧
    ∀ e' ∈ before, e'.admits wanted = true → e'.route.matchPath path = .ok none

theorem Chooses.findPath (h : t.Chooses wanted path e m)
    (hwanted : MethodSet.ofValue methods = .ok wanted) :
    t.findPath (.str path) methods = .ok (some (e, m)) := by
  rw [Router.findPath, hwanted, ok_bind]
  exact firstOf_eq_some.2 ⟨h.admits, h.route, h.first⟩

/-- Every route that is asked has an answer, so that without a choice all have said no. -/
theorem IsDerived.findPath (ht : t.IsDerived) (hwanted : MethodSet.ofValue methods = .ok wanted)
    (hno : ¬∃ e m, t.Chooses wanted path e m) : t.findPath (.str path) methods = .ok none := by
  rw [Router.findPath, hwanted, ok_bind]
  cases hfound : firstOf wanted (·.matchValue (.str path)) t.entries with
  | error err =>
    obtain ⟨e, he, _, herr⟩ := firstOf_eq_error hfound
    obtain ⟨r, hroute, hr⟩ := (ht e he).exists_route
    obtain ⟨found, hfound⟩ := hr.exists_matchPath path
    rw [hroute] at herr
    cases herr.symm.trans hfound
  | ok found => cases found with
    | none => rfl
    | some x =>
      obtain ⟨hadmits, hroute, hfirst⟩ := firstOf_eq_some.1 hfound
      exact absurd ⟨x.1, x.2, hadmits, hroute, hfirst⟩ hno

/-! ### Handing on -/

theorem result_route (hfallback : handlerOf "no_match" noMatch = .ok fallback) :
    (t.route (.str path) methods noMatch).result =
      t.findPath (.str path) methods >>= t.replyTo (.str path) fallback := by
  rw [Router.route, hfallback]
  exact congrArg (· >>= _) result_matchPath

theorem call_eq (h : e.route.matchPath path = .ok (some m)) : t.call e m =
    (e.handler.or t.defaultHandler).elim (.error (.noHandler m.pattern path))
      fun handler => .ok (.handled handler m) := by
  obtain ⟨r, hr⟩ : ∃ r, e.route = .route r := by
    cases hroute : e.route with
    | route r => exact ⟨r, rfl⟩
    | other v =>
      rw [hroute] at h
      cases h
  rw [hr] at h
  obtain ⟨c, _, rfl⟩ := Route.matchPath_eq_some h
  unfold call
  cases e.handler <;> cases t.defaultHandler <;> rfl

/-- After any steps of a new table, a path has the first entry, in the order in which they were
added, that admits the methods and whose route matches. The matched route goes to the handler of
that entry, or else to the default handler that was set last, and to nobody else. With neither it is
refused, whatever else could have been called. Only where there is no such entry the path goes to
the fallback, and is refused without one. -/
theorem chosen_of_run (hcreate : create f handler = .ok t) (hf : f.BringsDerived)
    (hsteps : ∀ s ∈ steps, s.BringsDerived) (hwanted : MethodSet.ofValue methods = .ok wanted)
    (hfallback : handlerOf "no_match" noMatch = .ok fallback) (path : String) :
    (t.run steps).1.defaultHandler =
        (settings (t.transcript steps)).getLast?.getD t.defaultHandler ∧
      (∀ e m, (t.run steps).1.Chooses wanted path e m →
        ((t.run steps).1.matchPath (.str path) methods).result = .ok (some (e, m)) ∧
          ((t.run steps).1.route (.str path) methods noMatch).result =
            (e.handler.or (t.run steps).1.defaultHandler).elim (.error (.noHandler m.pattern path))
              fun name => .ok (.handled name m)) ∧
      ((¬∃ e m, (t.run steps).1.Chooses wanted path e m) →
        ((t.run steps).1.matchPath (.str path) methods).result = .ok none ∧
          ((t.run steps).1.route (.str path) methods noMatch).result =
            fallback.elim (.error (.noRoute path)) fun name =>
              .ok (.fallback name (.str path))) := by
  refine ⟨(outcome_run t steps).handler, ?_⟩
  have ht := isDerived_of_run hcreate hf hsteps
  generalize (t.run steps).1 = t' at ht ⊢
  rw [result_matchPath, result_route hfallback]
  refine ⟨fun e m h => ?_, fun hno => ?_⟩
  · rw [h.findPath hwanted]
    exact ⟨rfl, call_eq h.route⟩
  · rw [ht.findPath hwanted hno]
    refine ⟨rfl, ?_⟩
    cases fallback <;> rfl

/-- The literal route would match as well, and has been added later. -/
theorem chosen_of_run_earlier :
    let steps := [Step.add (.str "/x/:y") .none (.handler "first") .none,
      .add (.str "/x/1") .none (.handler "second") .none]
    (∀ s ∈ steps, s.BringsDerived) ∧ ∃ m, m.pattern = "/x/:y" ∧
      ((bare.run steps).1.route (.str "/x/1") .none .none).result = .ok (.handled "first" m) := by
  intro steps
  have hsteps : ∀ s ∈ steps, s.BringsDerived := by simp [steps, Step.BringsDerived]
  refine ⟨hsteps, ?_⟩
  have hentries : (bare.run steps).1.entries.head?.any (fun e => e.handler == some "first" &&
      (e.route.matchPath "/x/1").toOption.any fun m =>
        m.any fun m => m.pattern == "/x/:y") = true := by
    decide +kernel
  obtain ⟨e, he, h⟩ := (Option.any_eq_true _ _).1 hentries
  obtain ⟨hhandler, hroute⟩ := Bool.and_eq_true_iff.1 h
  obtain ⟨_, hroute, hm⟩ := (Option.any_eq_true _ _).1 hroute
  obtain ⟨m, rfl, hpattern⟩ := (Option.any_eq_true _ _).1 hm
  obtain ⟨after, hafter⟩ := List.head?_eq_some_iff.1 he
  have hchooses : (bare.run steps).1.Chooses none "/x/1" e m :=
    ⟨rfl, toOption_eq_some.1 hroute, [], after, hafter, nofun⟩
  have hmethods : MethodSet.ofValue .none = .ok none := rfl
  have hfallback : handlerOf "no_match" .none = .ok none := rfl
  obtain ⟨_, hchosen, _⟩ := chosen_of_run create_bare trivial hsteps hmethods hfallback "/x/1"
  refine ⟨m, beq_iff_eq.1 hpattern, ?_⟩
  rw [(hchosen e m hchooses).2, beq_iff_eq.1 hhandler]
  rfl

end Router

end UrlRouting
