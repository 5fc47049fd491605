import UrlRouting.Proofs.Method.Declared
import UrlRouting.Proofs.Router.Table

/-! The methods that the entries of a table answer to. Every entry can be asked for by some method,
as long as no flags come in that are no methods. -/
namespace UrlRouting

open Expression

variable {f : RouteFactory} {t t' : Router} {s : Step} {steps : List Step} {answer : Logged Answer}
  {e : Entry} {es : List Entry}

namespace Step

/-- The choice of methods that a step adds a route with. -/
def methods? : Step → Option Value
  | .add _ _ _ methods | .addRoute _ _ _ _ methods | .addBuilt _ _ methods => some methods
  | _ => none

/-- The step adds no route with flags that are no methods. -/
def hasDeclaredFlags (s : Step) : Bool :=
  s.methods?.all Value.hasDeclaredFlags

@[simp] theorem hasDeclaredFlags_addFor (m : Method) (pattern defaults handler : Value) :
    (addFor m pattern defaults handler).hasDeclaredFlags = true := by
  cases m <;> rfl

end Step

namespace Router

/-- What is added for one method answers to that, and to no other. -/
theorem Adds.admits_addFor {pattern defaults handler : Value} {m asked : Method}
    (h : Adds f (.addFor m pattern defaults handler) e) :
    e.admits (some asked.mask) = true ↔ asked = m := by
  cases h with
  | pattern _ _ hmethods =>
    cases hmethods
    exact MethodSet.meets_mask_iff

theorem Adds.isSelectable (h : Adds f s e) (hs : s.hasDeclaredFlags = true) :
    MethodSet.isSelectable e.methods = true := by
  obtain ⟨v, mask, hv, hmask, he⟩ : ∃ v mask, s.methods? = some v ∧ MethodSet.ofValue v = .ok mask ∧
      e.methods = mask.getD MethodSet.usual := by
    cases h with
    | pattern _ _ hmethods | spelled _ _ hmethods | built _ hmethods =>
      exact ⟨_, _, rfl, hmethods, rfl⟩
  rw [Step.hasDeclaredFlags, hv] at hs
  rw [he]
  cases mask with
  | none => rfl
  | some set => exact MethodSet.isSelectable_ofValue hs hmask

/-- Every entry answers to a declared method, and to nothing else. -/
def IsSelectable (t : Router) : Prop :=
  ∀ e ∈ t.entries, MethodSet.isSelectable e.methods = true

theorem IsSelectable.step (ht : t.IsSelectable) (hs : s.hasDeclaredFlags = true) :
    (t.step s).1.IsSelectable := by
  have h := change_step t s
  generalize (t.step s).1 = t', (t.step s).2 = answer at h ⊢
  cases h with
  | added _ he =>
    intro e' he'
    rcases List.mem_append.1 he' with he' | he'
    · exact ht e' he'
    · rw [List.mem_singleton.1 he']
      exact he.isSelectable hs
  | handled | failed | asked => exact ht

theorem IsSelectable.run (ht : t.IsSelectable) (hsteps : ∀ s ∈ steps, s.hasDeclaredFlags = true) :
    (t.run steps).1.IsSelectable := by
  induction steps generalizing t with
  | nil => exact ht
  | cons s steps ih =>
    obtain ⟨hs, hsteps⟩ := List.forall_mem_cons.1 hsteps
    exact ih (ht.step hs) hsteps

theorem firstOf_any {α : Type} {find : Target → Except RoutingError (Option α)}
    (h : ∀ e ∈ es, MethodSet.isSelectable e.methods = true) :
    firstOf (some MethodSet.any) find es = firstOf none find es := by
  induction es with
  | nil => rfl
  | cons e es ih =>
    obtain ⟨he, hes⟩ := List.forall_mem_cons.1 h
    have hany : e.admits (some MethodSet.any) = true := MethodSet.meets_any he
    have hnone : e.admits none = true := rfl
    rw [firstOf, firstOf, if_pos hany, if_pos hnone, ih hes]

theorem IsSelectable.matchPath_any (ht : t.IsSelectable) (path : Value) :
    t.matchPath path .none = t.matchPath path (.methods MethodSet.any) := by
  have hfind : t.findPath path .none = t.findPath path (.methods MethodSet.any) :=
    (firstOf_any ht).symm
  rw [matchPath, matchPath, hfind]

/-- After any steps of a new table, whatever they are given but flags that are no methods, every
entry answers to a declared method and to nothing else. So no choice of methods and the choice of
all methods come to the same for every path. -/
theorem isSelectable_of_run {handler : Value} (hcreate : create f handler = .ok t)
    (hsteps : ∀ s ∈ steps, s.hasDeclaredFlags = true) :
    (∀ e ∈ (t.run steps).1.entries, e.methods ≠ 0 ∧ e.methods &&& MethodSet.any = e.methods) ∧
      ∀ path, (t.run steps).1.matchPath path .none =
        (t.run steps).1.matchPath path (.methods MethodSet.any) := by
  have hnew : t.IsSelectable := by
    obtain ⟨_, _, h⟩ := bind_eq_ok.1 hcreate
    obtain ⟨_, _, h⟩ := bind_eq_ok.1 h
    cases h
    intro e he
    cases he
  have hrun := hnew.run hsteps
  refine ⟨fun e he => ?_, hrun.matchPath_any⟩
  obtain ⟨hne, hdeclared⟩ := Bool.and_eq_true_iff.1 (hrun e he)
  exact ⟨bne_iff_ne.1 hne, beq_iff_eq.1 hdeclared⟩

theorem isSelectable_of_run_user :
    create .usual .none = .ok bare ∧
      (bare.run [.add (.str "/user/:id") .none .none (.str "get,post")]).1.size = 1 ∧
      (bare.run [.add (.str "/user/:id") .none .none (.str "get,post")]).1.matchPath
          (.str "/user/42") .none =
        (bare.run [.add (.str "/user/:id") .none .none (.str "get,post")]).1.matchPath
          (.str "/user/42") (.methods MethodSet.any) :=
  ⟨create_bare, by decide +kernel, (isSelectable_of_run create_bare (by decide)).2 _⟩

/-- Flags are taken as they are. An entry with none of them is found without a choice of methods,
and is not among those of any method. -/
theorem matchPath_no_flags : ∃ t found,
    (bare.run [.add (.str "/x/:y") .none .none (.methods 0)]).1 = t ∧
    (∃ e ∈ t.entries, e.methods = 0) ∧ (t.matchPath (.str "/x/1") .none).result = .ok (some found) ∧
    (t.matchPath (.str "/x/1") (.methods MethodSet.any)).result = .ok none := by
  have h : let t := (bare.run [.add (.str "/x/:y") .none .none (.methods 0)]).1
      (t.entries.any (·.methods == 0) &&
        (t.matchPath (.str "/x/1") .none).result.toOption.any Option.isSome &&
        (t.matchPath (.str "/x/1") (.methods MethodSet.any)).result.toOption.any
          Option.isNone) = true := by
    decide +kernel
  obtain ⟨h, hmissing⟩ := Bool.and_eq_true_iff.1 h
  obtain ⟨hentry, hfound⟩ := Bool.and_eq_true_iff.1 h
  obtain ⟨e, he, hmethods⟩ := List.any_eq_true.1 hentry
  obtain ⟨_, hfound, hsome⟩ := (Option.any_eq_true _ _).1 hfound
  obtain ⟨found, rfl⟩ := Option.isSome_iff_exists.1 hsome
  obtain ⟨_, hmissing, hnone⟩ := (Option.any_eq_true _ _).1 hmissing
  rw [Option.isNone_iff_eq_none.1 hnone] at hmissing
  exact ⟨_, found, rfl, ⟨e, he, beq_iff_eq.1 hmethods⟩, toOption_eq_some.1 hfound,
    toOption_eq_some.1 hmissing⟩

end Router

end UrlRouting
