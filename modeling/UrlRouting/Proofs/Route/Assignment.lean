import UrlRouting.Proofs.Route.Admission
import UrlRouting.Proofs.Route.Links

/-! Setting the value of a segment, and matching the route's values with that value among them. The
two accept the same values but for nothing, which is only set. -/
namespace UrlRouting.Route

open Expression

variable {r t q : Route} {p : Pattern} {ds : Mapping} {k v : Value} {name : String}
  {pattern defaults caseSensitive : Value} {options : Options} {moves : List Move}

theorem withValue_segment (hhas : r.dispatch.has (.str name) = true)
    (hsegment : r.matcher.hasSegment name = true) : r.withValue (.str name) v = .ok q ↔
      (v.isWritable = true ∧ r.matcher.accepts name v.text = true) ∧
        q = { r with dispatch := r.dispatch.insert (.str name) v } := by
  rw [withValue_eq_ok hhas, checkValue_eq_ok, forall_prop_of_true hsegment]

/-- A route that matches its own values takes each of them in. With one of them replaced, it matches
if it takes in the new one. -/
theorem exists_matchDispatch_insert (hdistinct : r.dispatch.Distinct)
    (hfilled : ∃ m, r.matchDispatch r.dispatch = .ok (some m))
    (hhas : r.dispatch.has (.str name) = true) :
    (∃ m, r.matchDispatch (r.dispatch.insert (.str name) v) = .ok (some m)) ↔
      r.Takes (.str name) v := by
  obtain ⟨_, htakes⟩ := exists_matchDispatch.1 hfilled
  have hvaries : r.dispatch.Varies (· = .str name) (r.dispatch.insert (.str name) v) :=
    Mapping.varies_insert hhas rfl
  have hkeys : r.dispatch.keys.all (r.dispatch.insert (.str name) v).has = true := by
    refine List.all_eq_true.2 fun k hk => ?_
    rw [hvaries.keys_eq] at hk
    obtain ⟨e, he, rfl⟩ := List.mem_map.1 hk
    exact Mapping.has_of_mem he
  have hentry : (.str name, v) ∈ r.dispatch.insert (.str name) v :=
    Mapping.mem_of_get?_str Mapping.get?_insert_self
  rw [exists_matchDispatch]
  refine ⟨fun ⟨_, h⟩ => h _ hentry, fun h => ⟨hkeys, fun e he => ?_⟩⟩
  by_cases hk : e.1 = .str name
  · have hv := Mapping.get?_of_mem (hvaries.distinct hdistinct) he
    rw [hk, Mapping.get?_insert_self] at hv
    rw [hk, ← Option.some.inj hv]
    exact h
  · exact htakes e (hvaries.symm.mem he hk)

theorem map_filled_insert (hdistinct : r.dispatch.Distinct)
    (hhas : r.dispatch.has (.str name) = true)
    (hsegment : r.segmentName? (.str name) = some name) :
    r.dispatch.map (r.filled (r.dispatch.insert (.str name) v)) =
      r.dispatch.insert (.str name) v := by
  have hvaries : r.dispatch.Varies (· = .str name) (r.dispatch.insert (.str name) v) :=
    Mapping.varies_insert hhas rfl
  refine (hvaries.eq_map (hvaries.distinct hdistinct) (fun e he hk => ?_) fun e he hk => ?_).symm
  · rw [filled, Mapping.get?_insert_str hk, Mapping.get?_of_mem hdistinct he, Option.getD_some,
      ite_self]
  · rw [filled, hk, hsegment, Mapping.get?_insert_self]
    exact ⟨v, rfl, rfl⟩

/-- A segment whose route matches its own values is given a value just if the route matches the
values with that one among them, and then the two routes have the same values and can be written as
paths, unless an argument cannot be written. Nothing is the exception: where its text satisfies the
constraint it is set, but never matched. -/
theorem withValue_iff_matchDispatch (hbuild : Route.build pattern defaults options = .ok t)
    (hd : Unambiguous defaults) (hr : Reached t moves r)
    (hfilled : ∃ m, r.matchDispatch r.dispatch = .ok (some m))
    (hname : name ∈ r.matcher.pattern.names)
    (hv : v.isNothing = false ∨ r.matcher.accepts name v.text = false) :
    ((∃ q, r.withValue (.str name) v = .ok q) ↔
      ∃ m, r.matchDispatch (r.dispatch.insert (.str name) v) = .ok (some m)) ∧
    (∀ q m, r.withValue (.str name) v = .ok q →
      r.matchDispatch (r.dispatch.insert (.str name) v) = .ok (some m) → q.dispatch = m.dispatch) ∧
    ∀ q, r.withValue (.str name) v = .ok q →
      (∃ path, q.path = .ok path) ∧ (∀ a ∈ r.args, a.isWritable = true) ∨
        q.path = .error .numberUnwritable ∧ ∃ a ∈ r.args, a.isWritable = false := by
  obtain ⟨p, ds, _, hds, hb⟩ := built_of_build hbuild
  have hkeeps := hb.keeps hr
  have hdistinct := hkeeps.dispatch.distinct (hb.distinct (distinct_of_defaultsOf hd hds))
  have hhas : ∀ k name, r.segmentName? k = some name → r.dispatch.has k = true :=
    fun _ _ => hb.has_of_segmentName? hr
  have hk : r.segmentName? (.str name) = some name := (hb.segmentName?_iff hr).2 ⟨rfl, hname⟩
  have hassign := fun q => withValue_segment (q := q) (v := v) (hhas _ _ hk)
    (segmentName?_eq_some.1 hk).2
  have hmatch := exists_matchDispatch_insert (v := v) hdistinct hfilled (hhas _ _ hk)
  rw [takes_segment hk] at hmatch
  have hdispatch : ∀ m, r.matchDispatch (r.dispatch.insert (.str name) v) = .ok (some m) →
      m.dispatch = r.dispatch.insert (.str name) v := by
    intro m hm
    obtain ⟨hkeys, d, args, htaken, rfl⟩ := matchDispatch_eq_some hm
    exact (dispatch_eq_of_takeEntries hdistinct hhas hdistinct.insert hkeys htaken).trans
      (map_filled_insert hdistinct (hhas _ _ hk) hk)
  refine ⟨?_, fun q m hq hm => ?_, fun q hq => ?_⟩
  · rw [hmatch]
    constructor
    · rintro ⟨q, hq⟩
      obtain ⟨⟨hwritable, haccepts⟩, _⟩ := (hassign q).1 hq
      exact ⟨hv.resolve_right (by simp [haccepts]), hwritable, haccepts⟩
    · rintro ⟨_, hwritable, haccepts⟩
      exact ⟨_, (hassign _).2 ⟨⟨hwritable, haccepts⟩, rfl⟩⟩
  · rw [((hassign q).1 hq).2, hdispatch m hm]
  · obtain ⟨⟨hwritable, haccepts⟩, rfl⟩ := (hassign q).1 hq
    obtain ⟨m, hm⟩ := hmatch.2 ⟨hv.resolve_right (by simp [haccepts]), hwritable, haccepts⟩
    refine exists_path_or fun other hother => ?_
    rw [hkeeps.matcher, hb.pattern_eq] at hother
    obtain ⟨w, _, hget, hsome, hwritable, _⟩ :=
      hb.get?_of_matchDispatch hr hdistinct.insert hm hother
    rw [hdispatch m hm] at hget
    exact ⟨w, hget, hsome, hwritable⟩

/-- Another number is set and matched. -/
theorem withValue_iff_matchDispatch_user : ∃ t r q m path, Route.build (.str "/user/\\d+:id/*")
      (.dict [(.str "controller", .str "users")]) .usual = .ok t ∧
    Reached t [.matchPath (.str "/user/42/x")] r ∧ r.withValue (.str "id") (.int 7) = .ok q ∧
    r.matchDispatch (r.dispatch.insert (.str "id") (.int 7)) = .ok (some m) ∧
    q.dispatch = m.dispatch ∧ q.path = .ok path := by
  have h : (Route.build (.str "/user/\\d+:id/*") (.dict [(.str "controller", .str "users")])
      .usual).toOption.any (fun t => (t.matchPath "/user/42/x").toOption.any fun found =>
        found.any fun r => (r.matchDispatch r.dispatch).toOption.join.isSome &&
          r.matcher.pattern.names.contains "id" && r.args.all (·.isWritable) &&
          (r.withValue (.str "id") (.int 7)).toOption.isSome) = true := by
    decide +kernel
  obtain ⟨t, hbuild, h⟩ := exists_ok_of_any h
  obtain ⟨r, hr, h⟩ := exists_some_of_any h
  rw [Bool.and_eq_true, Bool.and_eq_true, Bool.and_eq_true, List.contains_iff_mem] at h
  obtain ⟨⟨⟨hfilled, hname⟩, hargs⟩, hset⟩ := h
  have hreached : Reached t [.matchPath (.str "/user/42/x")] r := .move .start hr
  obtain ⟨hiff, hsame, hpath⟩ := withValue_iff_matchDispatch hbuild unambiguous_user hreached
    (exists_some_of_join hfilled) hname (v := .int 7) (.inl rfl)
  obtain ⟨q, hq⟩ := Option.isSome_iff_exists.1 hset
  rw [toOption_eq_some] at hq
  obtain ⟨m, hm⟩ := hiff.1 ⟨q, hq⟩
  rcases hpath q hq with ⟨⟨path, hpath⟩, _⟩ | ⟨_, a, ha, hlong⟩
  · exact ⟨t, r, q, m, path, hbuild, hreached, hq, hm, hsame q m hq hm, hpath⟩
  · rw [List.all_eq_true.1 hargs a ha] at hlong
    cases hlong

/-- Nothing is written as a text that fills the segment, so it is set, and there is no path then. As
the value of a mapping it is not matched. -/
theorem withValue_nothing : ∃ t r q, Route.build (.str "/:x") .none .usual = .ok t ∧
    Reached t [.matchPath (.str "/a")] r ∧ "x" ∈ r.matcher.pattern.names ∧
    (∃ m, r.matchDispatch r.dispatch = .ok (some m)) ∧ r.withValue (.str "x") .none = .ok q ∧
    r.matchDispatch (r.dispatch.insert (.str "x") .none) = .ok none ∧
    q.path = .error (.incompleteRoute "x" "/:x") := by
  have h : (Route.build (.str "/:x") .none .usual).toOption.any (fun t =>
      (t.matchPath "/a").toOption.any fun found => found.any fun r =>
        (r.matchDispatch r.dispatch).toOption.join.isSome &&
          r.matcher.pattern.names.contains "x" &&
          ((r.matchDispatch (r.dispatch.insert (.str "x") .none)).toOption.any Option.isNone) &&
          (r.withValue (.str "x") .none).toOption.any fun q => match q.path with
            | .error (.incompleteRoute name pattern) => name == "x" && pattern == "/:x"
            | _ => false) = true := by
    decide +kernel
  obtain ⟨t, hbuild, h⟩ := exists_ok_of_any h
  obtain ⟨r, hr, h⟩ := exists_some_of_any h
  rw [Bool.and_eq_true, Bool.and_eq_true, Bool.and_eq_true, List.contains_iff_mem] at h
  obtain ⟨⟨⟨hfilled, hname⟩, hnone⟩, h⟩ := h
  obtain ⟨found, hfound, hnone⟩ := exists_ok_of_any hnone
  obtain rfl := Option.isNone_iff_eq_none.1 hnone
  obtain ⟨q, hq, h⟩ := exists_ok_of_any h
  have hpath : q.path = .error (.incompleteRoute "x" "/:x") := by
    split at h
    · next name pattern heq =>
      rw [Bool.and_eq_true, beq_iff_eq, beq_iff_eq] at h
      rw [heq, h.1, h.2]
    · cases h
  exact ⟨t, r, q, hbuild, .move .start hr, hname,
    exists_some_of_join hfilled, hq, hfound, hpath⟩

end UrlRouting.Route
