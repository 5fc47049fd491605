import UrlRouting.Proofs.Pattern.LetterCase
import UrlRouting.Proofs.Route.Moves

/-! Routes that ignore case, and the routes that come from them. -/
namespace UrlRouting.Route

open Expression PathMatcher

variable {r t : Route} {moves : List Move} {pattern defaults : Value} {options : Options}
  {path other : String}

/-- A route that is not to regard case matches both of two paths that differ in case only, or none
of them. What it takes from the one is found at the same places of the other. -/
theorem matchPath_ignores_case (hbuild : Route.build pattern defaults options = .ok t)
    (hcase : options.caseSensitive.truthy = false) (htame : t.matcher.pattern.IsTame)
    (hreached : Reached t moves r) (hsame : SamePath path other) :
    r.matchPath path = .ok none ∧ r.matchPath other = .ok none ∨
      ∃ c d st, r.matchPath path = .ok (some (r.withCaptures path c)) ∧
        r.matchPath other = .ok (some (r.withCaptures other d)) ∧
        r.matcher.expression.fullMatch? path = some ⟨path.toList.toArray, st⟩ ∧
        r.matcher.expression.fullMatch? other = some ⟨other.toList.toArray, st⟩ ∧
        (∀ name ∈ t.matcher.pattern.names, ∃ v w,
          (r.withCaptures path c).dispatchValue (.str name) = .ok (textOrNone v) ∧
          (r.withCaptures other d).dispatchValue (.str name) = .ok (textOrNone w) ∧
          Correspond path other v w) ∧
        Correspond path other c.tail d.tail := by
  obtain ⟨p, ds, -, -, hb⟩ := built_of_build hbuild
  have hmatcher : r.matcher = t.matcher := (hb.keeps hreached).matcher
  have hdistinct : r.matcher.pattern.names.Nodup :=
    hmatcher ▸ hb.pattern_eq ▸ Pattern.nodup_names hb.read
  have hmatch := matchPath_of_samePath hb.read (hb.pattern_eq ▸ htame) hb.matcher hcase hsame
  rw [← hmatcher] at hmatch
  rcases hmatch with ⟨hnone, hnone'⟩ | ⟨c, d, st, hc, hd, hst, hst', hvalues, htail⟩
  · exact .inl ⟨by rw [Route.matchPath, hnone]; rfl, by rw [Route.matchPath, hnone']; rfl⟩
  · refine .inr ⟨c, d, st, by rw [Route.matchPath, hc]; rfl, by rw [Route.matchPath, hd]; rfl,
      hst, hst', fun name hname => ?_, htail⟩
    obtain ⟨v, w, hv, hw, hcorrespond⟩ := hvalues name (hb.pattern_eq ▸ hname)
    exact ⟨v, w, dispatchValue_of_mem (keys_of_matchPath hdistinct hc) hdistinct hv,
      dispatchValue_of_mem (keys_of_matchPath hdistinct hd) hdistinct hw, hcorrespond⟩

/-- The constraint has small letters only, and the path has a capital. -/
theorem user_ignores_case : ∃ t m m' w, Route.build (.str "/User/<[a-z]+>:name") .none
      ⟨.bool false, .bool false⟩ = .ok t ∧ t.matcher.pattern.IsTame ∧
        SamePath "/user/Bob" "/USER/bOB" ∧
    t.matchPath "/user/Bob" = .ok (some m) ∧ t.matchPath "/USER/bOB" = .ok (some m') ∧
    m.dispatchValue (.str "name") = .ok (.str "Bob") ∧
      m'.dispatchValue (.str "name") = .ok (textOrNone w) ∧
    Correspond "/user/Bob" "/USER/bOB" (some "Bob") w := by
  have h : (Route.build (.str "/User/<[a-z]+>:name") .none ⟨.bool false, .bool false⟩).toOption.any
      (fun t =>
      t.matcher.pattern == ⟨[.exact "User".toList, ⟨.constrained, "name", "[a-z]+"⟩], false⟩ &&
        (t.matchPath "/user/Bob").toOption.any fun m => m.any fun m =>
          (m.dispatchValue (.str "name")).toOption.any fun v => v.agrees (.str "Bob")) = true := by
    decide +kernel
  obtain ⟨t, ht, h⟩ := (Option.any_eq_true _ _).1 h
  obtain ⟨hpattern, hmatch⟩ := Bool.and_eq_true_iff.1 h
  obtain ⟨_, hmatch, hm⟩ := (Option.any_eq_true _ _).1 hmatch
  obtain ⟨m, rfl, hvalue⟩ := (Option.any_eq_true _ _).1 hm
  obtain ⟨_, hvalue, hv⟩ := (Option.any_eq_true _ _).1 hvalue
  obtain rfl := Value.agrees_str.1 hv
  have hpattern := beq_iff_eq.1 hpattern
  have hmatch := toOption_eq_some.1 hmatch
  have hvalue := toOption_eq_some.1 hvalue
  have htame : t.matcher.pattern.IsTame := by
    intro s hs hkind
    rw [hpattern] at hs
    rcases List.mem_pair.1 hs with rfl | rfl
    · cases hkind
    · decide +kernel
  have hsame : SamePath "/user/Bob" "/USER/bOB" := by decide
  rcases matchPath_ignores_case (toOption_eq_some.1 ht) rfl htame .start hsame with
    ⟨hnone, _⟩ | ⟨c, d, _, hc, hd, _, _, hvalues, _⟩
  · rw [hmatch] at hnone
    cases hnone
  · obtain rfl : m = t.withCaptures "/user/Bob" c := by
      rw [hmatch] at hc
      exact Option.some.inj (Except.ok.inj hc)
    obtain ⟨v, w, hv, hw, hcorrespond⟩ := hvalues "name" (by rw [hpattern]; decide)
    obtain rfl : v = some "Bob" := by
      rw [hvalue] at hv
      cases v <;> simp_all [textOrNone]
    exact ⟨t, _, _, w, toOption_eq_some.1 ht, htame, hsame, hmatch, hd, hvalue, hw, hcorrespond⟩

end UrlRouting.Route
