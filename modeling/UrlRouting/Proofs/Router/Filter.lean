import Mathlib.Data.ENat.Lattice
import UrlRouting.Proofs.Router.Reverse

/-! What a choice of methods does to a search: with more methods it comes to its entry earlier, and
with the methods of two choices it comes to the earlier of the two entries. -/
namespace UrlRouting

open Expression

variable {α : Type} {f : RouteFactory} {t : Router} {steps : List Step} {e : Entry}
  {es : List Entry} {find : Target → Except RoutingError (Option α)}
  {wanted wanted' : Option MethodSet} {values : Mapping} {methods handler : Value} {path : String}

namespace MethodSet

variable {a b m : MethodSet}

theorem meets_or : meets m (a ||| b) = (meets m a || meets m b) := by
  rw [Bool.eq_iff_iff, Bool.or_eq_true, meets, meets, meets, bne_iff_ne, bne_iff_ne, bne_iff_ne,
    Nat.and_or_distrib_left, ne_eq, Nat.or_eq_zero_iff, not_and_or]

theorem or_of_and (h : a &&& b = a) : a ||| b = b := by
  refine Nat.eq_of_testBit_eq fun i => ?_
  have hi := congrArg (Nat.testBit · i) h
  simp only [Nat.testBit_and, Nat.testBit_or] at hi ⊢
  cases ha : a.testBit i <;> simp_all

end MethodSet

namespace Entry

/-- A search for what `find` finds ends at the entry: it admits the methods, and its route does not
say no. -/
def ends (e : Entry) (find : Target → Except RoutingError (Option α))
    (wanted : Option MethodSet) : Bool :=
  e.admits wanted && match find e.route with
    | .ok none => false
    | _ => true

theorem ends_or (a b : MethodSet) : e.ends find (some (a ||| b)) =
    (e.ends find (some a) || e.ends find (some b)) := by
  simp only [ends, admits, MethodSet.meets_or, Bool.and_or_distrib_right]

theorem ends_none (h : e.ends find wanted = true) : e.ends find none = true :=
  Bool.and_eq_true_iff.2 ⟨rfl, (Bool.and_eq_true_iff.1 h).2⟩

end Entry

namespace Router

/-! ### Places -/

/-- How many entries stand before the first one at which a search ends. Where it ends at none, the
place is behind all entries. -/
def place (find : Target → Except RoutingError (Option α)) (wanted : Option MethodSet) :
    List Entry → ℕ∞
  | [] => ⊤
  | e :: es => if e.ends find wanted then 0 else place find wanted es + 1

/-- The entry that a search has come to stands at the place. -/
inductive StandsAt (es : List Entry) : Option Entry → ℕ∞ → Prop
  | nowhere : StandsAt es none ⊤
  | entry {e : Entry} {n : Nat} (h : es[n]? = some e) : StandsAt es (some e) n

theorem StandsAt.cons {o : Option Entry} {n : ℕ∞} (h : StandsAt es o n) :
    StandsAt (e :: es) o (n + 1) := by
  cases h with
  | nowhere => exact .nowhere
  | entry h => exact .entry (n := _ + 1) h

/-- A search comes to the entry at the place, and fails there if it fails. -/
theorem firstOf_place (find : Target → Except RoutingError (Option α))
    (wanted : Option MethodSet) (es : List Entry) :
    (∃ found, firstOf wanted find es = .ok found ∧
      StandsAt es (found.map Prod.fst) (place find wanted es)) ∨
    ∃ err e, firstOf wanted find es = .error err ∧ find e.route = .error err ∧
      StandsAt es (some e) (place find wanted es) := by
  induction es with
  | nil => exact .inl ⟨none, rfl, .nowhere⟩
  | cons e es ih =>
    have hpassed : (∃ found, firstOf wanted find es = .ok found ∧
          StandsAt (e :: es) (found.map Prod.fst) (place find wanted es + 1)) ∨
        ∃ err e', firstOf wanted find es = .error err ∧ find e'.route = .error err ∧
          StandsAt (e :: es) (some e') (place find wanted es + 1) := by
      refine ih.imp ?_ ?_
      · exact fun ⟨found, hfound, hstands⟩ => ⟨found, hfound, hstands.cons⟩
      · exact fun ⟨err, e', herr, hroute, hstands⟩ => ⟨err, e', herr, hroute, hstands.cons⟩
    rw [firstOf, place, Entry.ends]
    cases e.admits wanted with
    | false => exact hpassed
    | true => cases hroute : find e.route with
      | error err => exact .inr ⟨err, e, rfl, hroute, .entry (n := 0) rfl⟩
      | ok found => cases found with
        | none => exact hpassed
        | some a => exact .inl ⟨some (e, a), rfl, .entry (n := 0) rfl⟩

/-! ### Choices -/

theorem place_le (h : ∀ e ∈ es, e.ends find wanted = true → e.ends find wanted' = true) :
    place find wanted' es ≤ place find wanted es := by
  induction es with
  | nil => exact le_rfl
  | cons e es ih =>
    obtain ⟨he, hes⟩ := List.forall_mem_cons.1 h
    rw [place, place]
    by_cases hwanted' : e.ends find wanted' = true
    · rw [if_pos hwanted']
      exact zero_le
    · rw [if_neg hwanted', if_neg (mt he hwanted')]
      exact add_le_add_left (ih hes) 1

theorem place_or (a b : MethodSet) : place find (some (a ||| b)) es =
    min (place find (some a) es) (place find (some b) es) := by
  induction es with
  | nil => rfl
  | cons e es ih =>
    rw [place, place, place, e.ends_or]
    cases e.ends find (some a) with
    | true => exact (min_eq_left zero_le).symm
    | false =>
      cases e.ends find (some b) with
      | true => exact (min_eq_right zero_le).symm
      | false =>
        rw [ih]
        exact (min_add_add_right _ _ 1).symm

/-- The place depends on the choice of methods alone, by union: both choices together lead to the
earlier of their places, a choice that has all methods of another leads no further back, and no
choice at all leads to the front-most place. -/
structure ComposesByUnion (place : Option MethodSet → ℕ∞) : Prop where
  union : ∀ a b : MethodSet, place (some (a ||| b)) = min (place (some a)) (place (some b))
  antitone : ∀ a b : MethodSet, a &&& b = a → place (some b) ≤ place (some a)
  unfiltered : ∀ a : MethodSet, place none ≤ place (some a)

theorem composesByUnion_place (find : Target → Except RoutingError (Option α)) (es : List Entry) :
    ComposesByUnion fun wanted => place find wanted es where
  union a b := place_or a b
  antitone a b h := by
    have hmin : place find (some (a ||| b)) es =
        min (place find (some a) es) (place find (some b) es) := place_or a b
    rw [MethodSet.or_of_and h] at hmin
    rw [hmin]
    exact min_le_left _ _
  unfiltered _ := place_le fun _ _ => Entry.ends_none

/-! ### Searches of a table -/

/-- The place of the entry that is chosen for a path. -/
def pathPlace (t : Router) (path : String) (wanted : Option MethodSet) : ℕ∞ :=
  place (·.matchPath path) wanted t.entries

/-- The place of the entry whose path is the answer to a mapping of values. -/
def valuesPlace (t : Router) (values : Mapping) (wanted : Option MethodSet) : ℕ∞ :=
  place (·.matchDispatch values) wanted t.entries

/-- The entry that is chosen for a path stands at the place. -/
def MatchesAt (t : Router) (path : String) (methods : Value) (n : ℕ∞) : Prop :=
  ∃ found, (t.matchPath (.str path) methods).result = .ok found ∧
    StandsAt t.entries (found.map Prod.fst) n

/-- The entry whose path is the answer to a mapping of values stands at the place. Where there is no
answer, because something has gone wrong, the entry with which it has gone wrong stands there. -/
def RendersAt (t : Router) (values : Mapping) (methods : Value) (n : ℕ∞) : Prop :=
  (∃ found : Option (Entry × String), t.reverseRoute values methods = .ok (found.map Prod.snd) ∧
    (∀ e url, found = some (e, url) →
      ∃ m, e.route.matchDispatch values = .ok (some m) ∧ m.path = .ok url) ∧
    StandsAt t.entries (found.map Prod.fst) n) ∨
  ∃ err e, t.reverseRoute values methods = .error err ∧ StandsAt t.entries (some e) n ∧
    (e.route.matchDispatch values = .error err ∨
      ∃ m, e.route.matchDispatch values = .ok (some m) ∧ m.path = .error err)

theorem IsDerived.matchesAt (ht : t.IsDerived) (path : String)
    (hwanted : MethodSet.ofValue methods = .ok wanted) :
    t.MatchesAt path methods (t.pathPlace path wanted) := by
  rw [MatchesAt, result_matchPath, Router.findPath, hwanted, ok_bind]
  refine (firstOf_place (·.matchPath path) wanted t.entries).resolve_right ?_
  rintro ⟨err, _, hfind, _⟩
  obtain ⟨e, he, _, herr⟩ := firstOf_eq_error hfind
  obtain ⟨r, hroute, hr⟩ := (ht e he).exists_route
  obtain ⟨found, hfound⟩ := hr.exists_matchPath path
  rw [hroute] at herr
  cases herr.symm.trans hfound

theorem rendersAt (t : Router) (values : Mapping)
    (hwanted : MethodSet.ofValue methods = .ok wanted) :
    t.RendersAt values methods (t.valuesPlace values wanted) := by
  rw [RendersAt, reverseRoute_eq hwanted]
  rcases firstOf_place (·.matchDispatch values) wanted t.entries with
    ⟨found, hfound, hstands⟩ | ⟨err, e, hfound, hroute, hstands⟩
  · rw [hfound, ok_bind]
    cases found with
    | none => exact .inl ⟨none, rfl, nofun, hstands⟩
    | some x =>
      obtain ⟨e, m⟩ := x
      have hm := (firstOf_eq_some.1 hfound).2.1
      cases hpath : m.path with
      | ok url =>
        refine .inl ⟨some (e, url), congrArg (Except.map some) hpath, ?_, hstands⟩
        rintro _ _ ⟨⟩
        exact ⟨m, hm, hpath⟩
      | error err =>
        exact .inr ⟨err, e, congrArg (Except.map some) hpath, hstands, .inr ⟨m, hm, hpath⟩⟩
  · exact .inr ⟨err, e, by rw [hfound]; rfl, hstands, .inl hroute⟩

/-- After any steps of a new table, whatever methods are chosen, a path leads to the entry at its
place, and a mapping of values to the path of the entry at its place. Both places depend on the
choice by union. -/
theorem composesByUnion_of_run (hcreate : create f handler = .ok t) (hf : f.BringsDerived)
    (hsteps : ∀ s ∈ steps, s.BringsDerived) (path : String) (values : Mapping) :
    (∀ methods wanted, MethodSet.ofValue methods = .ok wanted →
      (t.run steps).1.MatchesAt path methods ((t.run steps).1.pathPlace path wanted) ∧
        (t.run steps).1.RendersAt values methods ((t.run steps).1.valuesPlace values wanted)) ∧
      ComposesByUnion ((t.run steps).1.pathPlace path) ∧
      ComposesByUnion ((t.run steps).1.valuesPlace values) := by
  have ht := isDerived_of_run hcreate hf hsteps
  exact ⟨fun _ _ hwanted => ⟨ht.matchesAt path hwanted, rendersAt _ values hwanted⟩,
    composesByUnion_place _ _, composesByUnion_place _ _⟩

/-- The later route is the one for posting. With both methods the earlier one is found. -/
theorem composesByUnion_of_run_user :
    let steps := [Step.add (.str "/x/:y") .none .none (.str "get"),
      .add (.str "/:x/:y") .none .none (.str "post")]
    (∀ s ∈ steps, s.BringsDerived) ∧
      (bare.run steps).1.pathPlace "/x/1" (some Method.get.mask) = 0 ∧
      (bare.run steps).1.pathPlace "/x/1" (some Method.post.mask) = 1 ∧
      (bare.run steps).1.pathPlace "/x/1" (some (Method.get.mask ||| Method.post.mask)) = 0 := by
  intro steps
  have hsteps : ∀ s ∈ steps, s.BringsDerived := by simp [steps, Step.BringsDerived]
  obtain ⟨_, hpath, _⟩ := composesByUnion_of_run create_bare trivial hsteps "/x/1"
    [(.str "y", .str "1")]
  have hget : (bare.run steps).1.pathPlace "/x/1" (some Method.get.mask) = 0 := by decide +kernel
  have hpost : (bare.run steps).1.pathPlace "/x/1" (some Method.post.mask) = 1 := by decide +kernel
  exact ⟨hsteps, hget, hpost, by rw [hpath.union, hget, hpost]; rfl⟩

end Router

end UrlRouting
