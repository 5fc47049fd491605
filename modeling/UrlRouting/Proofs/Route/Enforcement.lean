import UrlRouting.Proofs.Pattern.Enforcement
import UrlRouting.Proofs.Route.Built

/-! A route that is matched with a path holds values that its own constraints accept. -/
namespace UrlRouting.Route

open Expression PathMatcher

variable {t m : Route} {path : String} {pattern defaults : Value} {options : Options}

/-- Where a route is matched with a path, each named segment has a text for its value, and the
constraint of the segment accepts that text. The constraints have to be expressions by themselves
that refer to no group by a number, and the one in question must not look at what is around it. -/
theorem matchSegment_of_matchPath (hbuild : Route.build pattern defaults options = .ok t)
    (hself : t.matcher.pattern.IsSelfContained (ignoresCase options.caseSensitive))
    (hmatch : t.matchPath path = .ok (some m)) :
    ∀ s ∈ t.matcher.pattern.segments, s.isNamed → ∃ v,
      m.dispatchValue (.str s.data) = .ok (.str v) ∧
      (s.isIndependent (ignoresCase options.caseSensitive) = true →
        m.matcher.matchSegment (.str s.data) (.str v) = .ok true) := by
  obtain ⟨p, _, _, _, hb⟩ := built_of_build hbuild
  obtain ⟨c, hc, rfl⟩ := matchPath_eq_some hmatch
  rw [hb.pattern_eq] at hself ⊢
  have hdistinct := Pattern.nodup_names hb.read
  obtain ⟨ws, hvalues, hall⟩ :=
    accepts_of_matchPath (Pattern.written_of_read hb.read) hdistinct hself hb.matcher hc
  intro s hs hn
  obtain ⟨w, hw, hsegment⟩ := exists_of_forall₂ hall hs
  obtain ⟨hhas, haccepts⟩ := hsegment hn
  refine ⟨String.ofList w, dispatchValue_withCaptures hdistinct hall.length_eq hvalues hn hw,
    fun hindependent => ?_⟩
  exact (matchSegment_str hhas _).trans (congrArg Except.ok (haccepts hindependent))

theorem matchSegment_of_matchPath_user : ∃ t m,
    Route.build (.str "/user/\\d+:id/*") (.dict [(.str "controller", .str "users")]) .usual =
      .ok t ∧
      t.matchPath "/user/42/x" = .ok (some m) ∧ ∃ v, m.dispatchValue (.str "id") = .ok (.str v) ∧
        m.matcher.matchSegment (.str "id") (.str v) = .ok true := by
  obtain ⟨t, hbuild, hfresh⟩ := constructible_user.build
  have hmatch := matchPath_of_splits hfresh.splits splits_userPattern
  have hself : t.matcher.pattern.IsSelfContained false := by
    rw [hfresh.pattern]
    exact isSelfContained_userPattern
  have hid : ⟨.constrained, "id", "\\d+"⟩ ∈ t.matcher.pattern.segments := by
    rw [hfresh.pattern]
    simp [userPattern]
  obtain ⟨v, hvalue, haccepts⟩ := matchSegment_of_matchPath hbuild hself hmatch _ hid rfl
  exact ⟨t, _, hbuild, hmatch, v, hvalue, haccepts (by decide +kernel)⟩

/-- A reference by number counts the groups of the whole pattern. Between slashes the second segment
repeats the first one, and by itself it repeats a group of its own. -/
theorem matchSegment_numbered : ∃ t m, Route.build (.str "/:x/<(a)\\1>:y") .none .usual = .ok t ∧
    t.matchPath "/b/ab" = .ok (some m) ∧ m.dispatch.get? (.str "y") = some (.str "ab") ∧
      m.matcher.matchSegment (.str "y") (.str "ab") = .ok false := by
  have h : (Route.build (.str "/:x/<(a)\\1>:y") .none .usual).toOption.any (fun t =>
      (t.matchPath "/b/ab").toOption.any fun found => found.any fun m =>
        (m.dispatch.get? (.str "y")).any (Value.agrees · (.str "ab")) &&
          (m.matcher.matchSegment (.str "y") (.str "ab")).toOption == some false) = true := by
    decide +kernel
  obtain ⟨t, ht, h⟩ := (Option.any_eq_true _ _).1 h
  obtain ⟨found, hfound, h⟩ := (Option.any_eq_true _ _).1 h
  obtain ⟨m, rfl, h⟩ := (Option.any_eq_true _ _).1 h
  obtain ⟨hvalue, hsegment⟩ := Bool.and_eq_true_iff.1 h
  obtain ⟨v, hget, hv⟩ := (Option.any_eq_true _ _).1 hvalue
  rw [Value.agrees_str.1 hv] at hget
  exact ⟨t, m, toOption_eq_some.1 ht, toOption_eq_some.1 hfound, hget,
    toOption_eq_some.1 (beq_iff_eq.1 hsegment)⟩

end UrlRouting.Route
