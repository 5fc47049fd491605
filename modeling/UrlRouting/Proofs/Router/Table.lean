import UrlRouting.Proofs.Route.Template
import UrlRouting.Router.Step

/-! A table of routes after any steps: the entries of the routes that were added, in their order,
and the default handler that was set last. -/
namespace UrlRouting

open Expression

variable {t t' : Router} {s : Step} {steps : List Step} {answer : Logged Answer} {e : Entry}
  {route : Target} {handler methods path : Value} {added : Except RoutingError Entry}

namespace Step

/-- The step adds a route. -/
def isAdding : Step → Bool
  | .add .. | .addRoute .. | .addBuilt .. => true
  | _ => false

/-- The handler that the step sets, where it sets one. -/
def handlerSet? : Step → Option (Option String)
  | .setDefaultHandler handler => (handlerOf "default_handler" handler).toOption
  | _ => none

end Step

namespace Router

/-- The entry of a step that adds a route: the route, its methods and its handler, all of which have
been made out. Without a choice of methods there are the usual ones. -/
inductive Adds (f : RouteFactory) : Step → Entry → Prop
  | pattern {pattern defaults handler methods : Value} {route : Target} {h : Option String}
      {mask : Option MethodSet}
      (hroute : f.make pattern (if defaults.truthy then defaults else .dict []) = .ok route)
      (hhandler : handlerOf "handler" handler = .ok h)
      (hmethods : MethodSet.ofValue methods = .ok mask) :
      Adds f (.add pattern defaults handler methods) ⟨route, mask.getD MethodSet.usual, h⟩
  | spelled {pattern defaults handler methods : Value} {options : Route.Options} {route : Route}
      {h : Option String} {mask : Option MethodSet}
      (hroute : Route.build pattern defaults options = .ok route)
      (hhandler : handlerOf "handler" handler = .ok h)
      (hmethods : MethodSet.ofValue methods = .ok mask) :
      Adds f (.addRoute pattern defaults options handler methods)
        ⟨.route route, mask.getD MethodSet.usual, h⟩
  | built {route : Target} {handler methods : Value} {h : Option String} {mask : Option MethodSet}
      (hhandler : handlerOf "handler" handler = .ok h)
      (hmethods : MethodSet.ofValue methods = .ok mask) :
      Adds f (.addBuilt route handler methods) ⟨route, mask.getD MethodSet.usual, h⟩

/-- The entry that a step brings, if it comes to one. -/
def brings? (t : Router) : Step → Option Entry
  | .add pattern defaults handler methods =>
    (t.entryForPattern pattern defaults handler methods).toOption
  | .addRoute pattern defaults options handler methods =>
    (Route.build pattern defaults options >>= fun r =>
      entryFor (.route r) handler methods).toOption
  | .addBuilt route handler methods => (entryFor route handler methods).toOption
  | _ => none

/-- What a step does to a table. An entry stays in it also if it cannot be described. -/
inductive Change (t : Router) : Step → Logged Answer → Router → Prop
  | added {s : Step} {answer : Logged Answer} {e : Entry} (hs : s.isAdding = true)
      (he : Adds t.factory s e)
      (hanswer : answer.result = e.route.describe.map fun _ => .added e.route) :
      Change t s answer (t.push e)
  | handled {handler : Value} {answer : Logged Answer} {h : Option String}
      (hh : handlerOf "default_handler" handler = .ok h)
      (hanswer : answer.result = .ok (.handler h)) :
      Change t (.setDefaultHandler handler) answer { t with defaultHandler := h }
  | failed {s : Step} {answer : Logged Answer} {err : RoutingError} (he : t.brings? s = none)
      (hanswer : answer.result = .error err) : Change t s answer t
  | asked {s : Step} {answer : Logged Answer} (hs : s.isAdding = false)
      (hset : s.handlerSet? = none) : Change t s answer t

/-! ### Single steps -/

theorem entryFor_eq_ok : entryFor route handler methods = .ok e ↔
    ∃ name mask, handlerOf "handler" handler = .ok name ∧ MethodSet.ofValue methods = .ok mask ∧
      ⟨route, mask.getD MethodSet.usual, name⟩ = e := by
  constructor
  · intro h
    obtain ⟨name, hname, h⟩ := bind_eq_ok.1 h
    obtain ⟨mask, hmask, h⟩ := bind_eq_ok.1 h
    cases h
    exact ⟨name, mask, hname, hmask, rfl⟩
  · rintro ⟨name, mask, hname, hmask, rfl⟩
    rw [entryFor, hname, ok_bind, hmask, ok_bind]
    rfl

theorem adds_iff : Adds t.factory s e ↔ t.brings? s = some e := by
  constructor
  · intro h
    cases h with
    | pattern hroute hhandler hmethods =>
      rw [brings?, toOption_eq_some, entryForPattern]
      exact bind_eq_ok.2 ⟨_, hroute, entryFor_eq_ok.2 ⟨_, _, hhandler, hmethods, rfl⟩⟩
    | spelled hroute hhandler hmethods =>
      rw [brings?, toOption_eq_some]
      exact bind_eq_ok.2 ⟨_, hroute, entryFor_eq_ok.2 ⟨_, _, hhandler, hmethods, rfl⟩⟩
    | built hhandler hmethods =>
      rw [brings?, toOption_eq_some]
      exact entryFor_eq_ok.2 ⟨_, _, hhandler, hmethods, rfl⟩
  · intro h
    cases s with
    | add pattern defaults handler methods =>
      obtain ⟨route, hroute, h⟩ := bind_eq_ok.1 (toOption_eq_some.1 h)
      obtain ⟨name, mask, hname, hmask, rfl⟩ := entryFor_eq_ok.1 h
      exact .pattern hroute hname hmask
    | addRoute pattern defaults options handler methods =>
      obtain ⟨route, hroute, h⟩ := bind_eq_ok.1 (toOption_eq_some.1 h)
      obtain ⟨name, mask, hname, hmask, rfl⟩ := entryFor_eq_ok.1 h
      exact .spelled hroute hname hmask
    | addBuilt route handler methods =>
      obtain ⟨name, mask, hname, hmask, rfl⟩ := entryFor_eq_ok.1 (toOption_eq_some.1 h)
      exact .built hname hmask
    | setDefaultHandler | matchPath | route | reverseRoute | size | entries | defaultHandler =>
      cases h

theorem result_register_ok (e : Entry) : (t.register (.ok e)).2.result =
    e.route.describe.map fun _ => .added e.route := by
  rw [register]
  dsimp only
  cases e.route.describe <;> rfl

theorem brings?_eq_none (h : ∀ e, ¬ Adds t.factory s e) : t.brings? s = none :=
  Option.eq_none_iff_forall_ne_some.2 fun e he => h e (adds_iff.2 he)

/-- An entry is added where there is one, and nothing is where there is none. -/
theorem change_register (hs : s.isAdding = true) (h : t.brings? s = added.toOption) :
    Change t s (t.register added).2 (t.register added).1 := by
  cases added with
  | ok e => exact .added hs (adds_iff.2 h) (result_register_ok e)
  | error err => exact .failed h rfl

theorem change_step (t : Router) (s : Step) : Change t s (t.step s).2 (t.step s).1 := by
  cases s with
  | add | addRoute | addBuilt => exact change_register rfl rfl
  | setDefaultHandler handler =>
    cases h : handlerOf "default_handler" handler with
    | ok name =>
      rw [step, setDefaultHandler, h]
      exact .handled h rfl
    | error err =>
      rw [step, setDefaultHandler, h]
      exact .failed rfl rfl
  | matchPath | route | reverseRoute | size | entries | defaultHandler => exact .asked rfl rfl

/-- The routes of the entries that steps add can be described. -/
def Describes (t : Router) (steps : List Step) : Prop :=
  ∀ s ∈ steps, ∀ e, Adds t.factory s e → ∃ text, e.route.describe = .ok text

theorem describes_iff : t.Describes steps ↔ steps.all (fun s =>
    (t.brings? s).all fun e => e.route.describe.toOption.isSome) = true := by
  simp only [Describes, adds_iff, List.all_eq_true, Option.all_eq_true,
    Option.isSome_iff_exists, toOption_eq_some]

instance (t : Router) (steps : List Step) : Decidable (t.Describes steps) :=
  decidable_of_iff _ describes_iff.symm

/-- A step that fails changes nothing, unless what it has added cannot be described. -/
theorem step_eq_of_error {err : RoutingError} (hdescribes : t.Describes [s])
    (h : (t.step s).2.result = .error err) : (t.step s).1 = t := by
  have hchange := change_step t s
  generalize (t.step s).1 = t', (t.step s).2 = answer at h hchange ⊢
  cases hchange with
  | added _ he hanswer =>
    obtain ⟨text, htext⟩ := hdescribes s (List.mem_singleton_self s) _ he
    rw [h, htext] at hanswer
    cases hanswer
  | handled _ hanswer =>
    rw [h] at hanswer
    cases hanswer
  | failed | asked => rfl

/-! ### Runs -/

/-- The steps of a run, each with its answer. -/
def transcript (t : Router) (steps : List Step) : List (Step × Logged Answer) :=
  steps.zip (t.run steps).2

theorem length_answers (t : Router) (steps : List Step) :
    (t.run steps).2.length = steps.length := by
  induction steps generalizing t with
  | nil => rfl
  | cons s steps ih => simp [run, ih]

/-- The steps that have succeeded, with their answers. -/
def successes (answered : List (Step × Logged Answer)) : List (Step × Logged Answer) :=
  answered.filter (·.2.result.isOk)

/-- The steps that have added a route. -/
def additions (answered : List (Step × Logged Answer)) : List (Step × Logged Answer) :=
  (successes answered).filter (·.1.isAdding)

/-- The default handlers that were set, one after the other. -/
def settings (answered : List (Step × Logged Answer)) : List (Option String) :=
  (successes answered).filterMap (·.1.handlerSet?)

theorem additions_append (xs ys : List (Step × Logged Answer)) :
    additions (xs ++ ys) = additions xs ++ additions ys := by
  simp [additions, successes]

theorem settings_append (xs ys : List (Step × Logged Answer)) :
    settings (xs ++ ys) = settings xs ++ settings ys := by
  simp [settings, successes]

/-- What a run leaves: the entries of its steps after those that were there, and the default handler
that was set last. Where all of these entries can be described, they are those of the steps that
have succeeded. -/
structure Outcome (t : Router) (answered : List (Step × Logged Answer)) (t' : Router) : Prop where
  factory : t'.factory = t.factory
  entries : t'.entries = t.entries ++ (answered.map Prod.fst).filterMap t.brings?
  added : t.Describes (answered.map Prod.fst) → List.Forall₂ (fun x e => Adds t.factory x.1 e ∧
    x.2.result = .ok (.added e.route)) (additions answered)
      ((answered.map Prod.fst).filterMap t.brings?)
  handler : t'.defaultHandler = (settings answered).getLast?.getD t.defaultHandler

theorem isOk_of_eq {α : Type} {x : α} {result : Except RoutingError α} (h : result = .ok x) :
    result.isOk = true := by
  rw [h]
  rfl

theorem brings?_of_not_adding (hs : s.isAdding = false) : t.brings? s = none := by
  cases s <;> first | rfl | cases hs

/-- All that a table makes an entry out with is its factory. -/
theorem brings?_congr (h : t'.factory = t.factory) : t'.brings? = t.brings? := by
  funext s
  refine Option.ext fun e => ?_
  rw [← adds_iff, ← adds_iff, h]

theorem outcome_of_change (h : Change t s answer t') : Outcome t [(s, answer)] t' := by
  cases h with
  | @added _ _ e hs he hanswer =>
    have hunset : s.handlerSet? = none := by
      cases he <;> rfl
    have hentry := adds_iff.1 he
    refine ⟨rfl, by simp [hentry, push], fun hdescribes => ?_, ?_⟩
    · obtain ⟨text, htext⟩ := hdescribes s (List.mem_singleton_self s) e he
      have hanswer : answer.result = .ok (.added e.route) := by
        rw [hanswer, htext]
        rfl
      have hok := isOk_of_eq hanswer
      simpa [additions, successes, hok, hs, hentry] using And.intro he hanswer
    · cases hok : answer.result.isOk <;> simp [settings, successes, hok, hunset, push]
  | handled hh hanswer =>
    have hok := isOk_of_eq hanswer
    refine ⟨rfl, by simp [brings?], fun _ => ?_, ?_⟩
    · simp [additions, successes, hok, Step.isAdding, brings?]
    · simp [settings, successes, hok, Step.handlerSet?, hh, Except.toOption]
  | failed he hanswer =>
    have hnone : successes [(s, answer)] = [] := by
      simp [successes, hanswer, Except.isOk, Except.toBool]
    exact ⟨rfl, by simp [he], by simp [additions, hnone, he], by simp [settings, hnone]⟩
  | asked hs hset =>
    have he : t.brings? s = none := brings?_of_not_adding hs
    refine ⟨rfl, by simp [he], fun _ => ?_, ?_⟩
    · simp [additions, successes, hs, he]
    · cases hok : answer.result.isOk <;> simp [settings, successes, hok, hset]

theorem Outcome.trans {xs ys : List (Step × Logged Answer)} {t₁ : Router} (h : Outcome t xs t₁)
    (h' : Outcome t₁ ys t') : Outcome t (xs ++ ys) t' := by
  have hentry := brings?_congr h.factory
  refine ⟨h'.factory.trans h.factory, ?_, fun hdescribes => ?_, ?_⟩
  · rw [h'.entries, h.entries, hentry, List.map_append, List.filterMap_append, List.append_assoc]
  · rw [List.map_append] at hdescribes ⊢
    obtain ⟨hxs, hys⟩ := List.forall_mem_append.1 hdescribes
    have hadded' := h'.added (by rwa [Describes, h.factory])
    rw [h.factory, hentry] at hadded'
    rw [additions_append, List.filterMap_append]
    exact List.rel_append (h.added hxs) hadded'
  · rw [h'.handler, h.handler, settings_append, List.getLast?_append]
    cases (settings ys).getLast? <;> rfl

theorem outcome_run (t : Router) (steps : List Step) :
    Outcome t (t.transcript steps) (t.run steps).1 := by
  induction steps generalizing t with
  | nil => exact ⟨rfl, (List.append_nil _).symm, fun _ => .nil, rfl⟩
  | cons s steps ih => exact (outcome_of_change (change_step t s)).trans (ih _)

theorem map_fst_transcript (t : Router) (steps : List Step) :
    (t.transcript steps).map Prod.fst = steps :=
  List.map_fst_zip (Nat.le_of_eq (length_answers t steps).symm)

theorem step_of_adds (h : Adds t.factory s e) : t.step s = t.register (.ok e) := by
  have hentry := adds_iff.1 h
  cases s with
  | add | addRoute | addBuilt => exact congrArg t.register (toOption_eq_some.1 hentry)
  | setDefaultHandler | matchPath | route | reverseRoute | size | entries | defaultHandler =>
    cases hentry

section First

variable {α : Type} {wanted : Option MethodSet} {find : Target → Except RoutingError (Option α)}
  {es : List Entry} {x : α}

/-- Entries without an answer are passed over. -/
theorem firstOf_of_none {after : List Entry}
    (h : ∀ e ∈ es, e.admits wanted = true → find e.route = .ok none) :
    firstOf wanted find (es ++ after) = firstOf wanted find after := by
  induction es with
  | nil => rfl
  | cons e es ih =>
    obtain ⟨he, hes⟩ := List.forall_mem_cons.1 h
    rw [List.cons_append, firstOf]
    split
    · next hadmits => rw [he hadmits, ih hes]
    · exact ih hes

/-- A search goes over the entries in their order, up to one that does not say no. -/
theorem firstOf_cases (wanted : Option MethodSet)
    (find : Target → Except RoutingError (Option α)) (es : List Entry) :
    (firstOf wanted find es = .ok none ∧
      ∀ e ∈ es, e.admits wanted = true → find e.route = .ok none) ∨
    ∃ before e after, es = before ++ e :: after ∧ e.admits wanted = true ∧
      (∀ e' ∈ before, e'.admits wanted = true → find e'.route = .ok none) ∧
      find e.route ≠ .ok none ∧
        firstOf wanted find es = (find e.route).map (Option.map fun x => (e, x)) := by
  induction es with
  | nil => exact .inl ⟨rfl, nofun⟩
  | cons e es ih =>
    by_cases hpassed : e.admits wanted = true → find e.route = .ok none
    · have hskip : firstOf wanted find (e :: es) = firstOf wanted find es :=
        firstOf_of_none (List.forall_mem_singleton.2 hpassed)
      rw [hskip]
      refine ih.imp (And.imp_right fun hes => List.forall_mem_cons.2 ⟨hpassed, hes⟩) ?_
      rintro ⟨before, e', after, rfl, hadmits, hbefore, hfind⟩
      exact ⟨e :: before, e', after, rfl, hadmits, List.forall_mem_cons.2 ⟨hpassed, hbefore⟩, hfind⟩
    · obtain ⟨hadmits, hfind⟩ := Classical.not_imp.1 hpassed
      refine .inr ⟨[], e, es, rfl, hadmits, nofun, hfind, ?_⟩
      rw [firstOf, if_pos hadmits]
      cases hanswer : find e.route with
      | error err => rfl
      | ok found => cases found with
        | none => exact absurd hanswer hfind
        | some x => rfl

theorem firstOf_eq_some : firstOf wanted find es = .ok (some (e, x)) ↔
    e.admits wanted = true ∧ find e.route = .ok (some x) ∧
      ∃ before after, es = before ++ e :: after ∧
        ∀ e' ∈ before, e'.admits wanted = true → find e'.route = .ok none := by
  constructor
  · intro h
    rcases firstOf_cases wanted find es with
      ⟨hnone, _⟩ | ⟨before, e', after, hes, hadmits, hbefore, _, hfound⟩
    · cases hnone.symm.trans h
    · obtain ⟨found, hfind, hfound⟩ := map_eq_ok.1 (hfound.symm.trans h)
      obtain ⟨x', rfl, heq⟩ := Option.map_eq_some_iff.1 hfound
      cases heq
      exact ⟨hadmits, hfind, before, after, hes, hbefore⟩
  · rintro ⟨hadmits, hfind, before, after, rfl, hbefore⟩
    rw [firstOf_of_none hbefore, firstOf, if_pos hadmits, hfind]

theorem firstOf_eq_error {err : RoutingError} (h : firstOf wanted find es = .error err) :
    ∃ e ∈ es, e.admits wanted = true ∧ find e.route = .error err := by
  rcases firstOf_cases wanted find es with
    ⟨hnone, _⟩ | ⟨before, e, after, rfl, hadmits, _, _, hfound⟩
  · cases hnone.symm.trans h
  · exact ⟨e, by simp, hadmits, map_eq_error.1 (hfound.symm.trans h)⟩

theorem firstOf_append (h : firstOf wanted find es = .ok (some (e, x))) (more : List Entry) :
    firstOf wanted find (es ++ more) = .ok (some (e, x)) := by
  obtain ⟨hadmits, hfind, before, after, rfl, hbefore⟩ := firstOf_eq_some.1 h
  refine firstOf_eq_some.2 ⟨hadmits, hfind, before, after ++ more, ?_, hbefore⟩
  rw [List.append_assoc, List.cons_append]

end First

theorem result_matchPath : (t.matchPath path methods).result = t.findPath path methods := by
  unfold matchPath
  split
  · next h => rw [h]
  · next h =>
    rw [h]
    rfl

/-- Entries that are added later do not stand in the way of those that are there. -/
theorem matchPath_of_append {x : Entry × Route} {new : List Entry}
    (hentries : t'.entries = t.entries ++ new)
    (h : (t.matchPath path methods).result = .ok (some x)) :
    (t'.matchPath path methods).result = .ok (some x) := by
  rw [result_matchPath] at h ⊢
  obtain ⟨wanted, hwanted, h⟩ := bind_eq_ok.1 h
  rw [findPath, hwanted, ok_bind, hentries]
  exact firstOf_append h new

/-- After any steps, whatever they are given, the entries are those that were there and then those
of the steps, in their order, and the default handler is the last one that was set. Where all that
is added can be described, these are the entries of the steps that have succeeded, and a step that
fails changes nothing. What a path is matched with at some time it is matched with ever after. -/
theorem entries_of_run (t : Router) (steps : List Step) :
    (t.run steps).2.length = steps.length ∧
      (t.run steps).1.entries = t.entries ++ steps.filterMap t.brings? ∧
      (t.Describes steps → List.Forall₂ (fun x e => Adds t.factory x.1 e ∧
        x.2.result = .ok (.added e.route)) (additions (t.transcript steps))
          (steps.filterMap t.brings?)) ∧
      (t.run steps).1.defaultHandler =
        (settings (t.transcript steps)).getLast?.getD t.defaultHandler ∧
      (∀ s err, t.Describes [s] → ((t.run steps).1.step s).2.result = .error err →
        ((t.run steps).1.step s).1 = (t.run steps).1) ∧
      ∀ more path methods x, ((t.run steps).1.matchPath path methods).result = .ok (some x) →
        (((t.run steps).1.run more).1.matchPath path methods).result = .ok (some x) := by
  obtain ⟨hfactory, hentries, hadded, hhandler⟩ := outcome_run t steps
  rw [map_fst_transcript] at hentries hadded
  refine ⟨length_answers t steps, hentries, hadded, hhandler, fun s err hdescribes => ?_, ?_⟩
  · exact step_eq_of_error (by rwa [Describes, hfactory])
  · exact fun more path methods x => matchPath_of_append (outcome_run (t.run steps).1 more).entries

/-- A new table with the usual routes. -/
def bare : Router :=
  ⟨.usual, [], none⟩

theorem create_bare : create .usual .none = .ok bare := rfl

/-- A pattern is added to a new table without a choice of methods. -/
theorem adds_bare {pattern defaults handler : Value} {r : Route} {h : Option String}
    (hbuild : Route.build pattern (if defaults.truthy then defaults else .dict []) .usual = .ok r)
    (hhandler : handlerOf "handler" handler = .ok h) :
    Adds bare.factory (.add pattern defaults handler .none) ⟨.route r, MethodSet.usual, h⟩ := by
  have hmethods : MethodSet.ofValue .none = .ok none := rfl
  have hroute : bare.factory.make pattern (if defaults.truthy then defaults else .dict []) =
      .ok (.route r) :=
    map_eq_ok.2 ⟨r, hbuild, rfl⟩
  exact .pattern hroute hhandler hmethods

/-- Two of three patterns are not added: one is no pattern, and the other comes with no handler. -/
theorem entries_of_run_refused :
    let steps := [Step.add (.str "x") .none .none .none,
      .add (.str "/x") .none (.handler "first") .none, .add (.str "/y") .none (.int 1) .none]
    bare.Describes steps ∧ (bare.run steps).1.size = 1 ∧
      List.Forall₂ (fun x e => Adds .usual x.1 e ∧ x.2.result = .ok (.added e.route))
        (additions (bare.transcript steps)) (bare.run steps).1.entries := by
  intro steps
  have hdefaults : Route.defaultsOf (.dict []) = .ok [] := rfl
  obtain ⟨r, hbuild, hfresh⟩ :=
    (Route.constructible_of_names_eq_nil read_fixedPattern rfl hdefaults).build
  have hnone : bare.brings? (.add (.str "x") .none .none .none) = none := rfl
  have hsome : bare.brings? (.add (.str "/x") .none (.handler "first") .none) =
      some ⟨.route r, MethodSet.usual, some "first"⟩ :=
    adds_iff.1 (adds_bare hbuild rfl)
  have hrefused : bare.brings? (.add (.str "/y") .none (.int 1) .none) = none :=
    brings?_eq_none fun e he => by
      cases he with
      | pattern _ hhandler => cases hhandler
  have hbrought : steps.filterMap bare.brings? = [⟨.route r, MethodSet.usual, some "first"⟩] := by
    simp only [steps, List.filterMap_cons, List.filterMap_nil, hnone, hsome, hrefused]
  have hdescribes : bare.Describes steps := by
    intro s hs e he
    have hmem : e ∈ steps.filterMap bare.brings? := List.mem_filterMap.2 ⟨s, hs, adds_iff.1 he⟩
    rw [hbrought, List.mem_singleton] at hmem
    refine ⟨r.pattern, ?_⟩
    rw [hmem, Target.describe, Route.describe, hfresh.dispatch]
    rfl
  obtain ⟨_, hentries, hadded, _⟩ := entries_of_run bare steps
  have hnew : bare.entries = [] := rfl
  rw [hnew, List.nil_append] at hentries
  refine ⟨hdescribes, ?_, ?_⟩
  · rw [size, hentries, hbrought]
    rfl
  · rw [hentries]
    exact hadded hdescribes

/-- The key of a default cannot be written, so that the route is added and cannot be described. The
step fails, and the entry stays. -/
theorem step_unwritable :
    let s := Step.add (.str "/x") (.dict [(.overlong, .str "v")]) .none .none
    (bare.step s).2.result = .error .numberUnwritable ∧ (bare.step s).1.size = 1 := by
  intro s
  have hdefaults : Route.defaultsOf (.dict [(.overlong, .str "v")]) =
      .ok [(.overlong, .str "v")] := rfl
  obtain ⟨r, hbuild, hfresh⟩ :=
    (Route.constructible_of_names_eq_nil read_fixedPattern rfl hdefaults).build
  have hadds : Adds bare.factory s ⟨.route r, MethodSet.usual, none⟩ := adds_bare hbuild rfl
  have hline : Route.describeEntry (.overlong, .str "v") = .error .numberUnwritable := by
    rw [Route.describeEntry, Value.write_of_not_isWritable Value.isWritable_overlong]
    rfl
  have hdescribe : r.describe = .error .numberUnwritable := by
    have hvalues : (r.dispatch.filter fun e => !e.2.isNothing) = [(.overlong, .str "v")] := by
      rw [hfresh.dispatch]
      rfl
    rw [Route.describe, hvalues, List.mapM_cons, hline]
    rfl
  rw [step_of_adds hadds]
  refine ⟨?_, rfl⟩
  rw [result_register_ok, Target.describe, hdescribe]
  rfl

/-- So does anything that is put in the place of a route. -/
theorem step_addBuilt_other (t : Router) (v : Value) :
    (t.step (.addBuilt (.other v) .none .none)).2.result =
        .error (.noAttribute v.kind "describe") ∧
      (t.step (.addBuilt (.other v) .none .none)).1.size = t.size + 1 :=
  ⟨rfl, List.length_append⟩

end Router

end UrlRouting
