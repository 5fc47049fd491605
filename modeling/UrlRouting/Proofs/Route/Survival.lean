import UrlRouting.Proofs.Pattern.LastSegment
import UrlRouting.Proofs.Route.Built
import UrlRouting.Proofs.Route.RoundTrip

/-! Which values of a constraint come through the path of their route. Slashes at the end of a path
are left out when it is written, and all other values come through. -/
namespace UrlRouting.Route

open Expression PathMatcher PathMatcher.EndsNamed

variable {r t m : Route} {exacts : List Segment} {s : Segment} {n : Node} {v : String}
  {w : List Char} {pattern defaults : Value} {options : Options}

/-- The value does not end with a slash, and if it is empty there is only the one slash before
it. -/
def Survives (exacts : List Segment) (v : String) : Prop :=
  v.toList.getLast? ≠ some '/' ∧ (v = "" → exacts = [])

/-! ### Paths as they are written -/

theorem length_trimEnd_lt {drop : Char → Bool} {cs : List Char} {c : Char}
    (hlast : cs.getLast? = some c)
    (hc : drop c = true) : (Text.trimEnd drop cs).length < cs.length := by
  obtain ⟨init, rfl⟩ := List.getLast?_eq_some_iff.1 hlast
  rw [Text.trimEnd_append (by simpa using hc), Text.trimEnd, List.length_reverse,
    List.length_append]
  have := (List.dropWhile_suffix drop (l := init.reverse)).length_le
  rw [List.length_reverse] at this
  simp only [List.length_cons, List.length_nil]
  omega

theorem written_texts : written (texts exacts w) [] =
    if Text.trimEnd (· == '/') (frontOf exacts ++ w) = [] then ['/']
    else Text.trimEnd (· == '/') (frontOf exacts ++ w) := by
  have hne : texts exacts w ≠ [] := by simp [texts]
  simp [written, joinPieces_eq_spelled hne, spelled_texts, List.isEmpty_iff]

theorem written_of_survives (h : Survives exacts v) :
    written (texts exacts v.toList) [] = frontOf exacts ++ v.toList := by
  obtain ⟨hslash, hempty⟩ := h
  rw [written_texts]
  by_cases hv : v = ""
  · subst hv
    rw [hempty rfl]
    rfl
  · have hv : v.toList ≠ [] := by simpa using hv
    have hself : Text.trimEnd (· == '/') (frontOf exacts ++ v.toList) =
        frontOf exacts ++ v.toList := by
      refine Text.trimEnd_eq_self fun c hc => ?_
      rw [List.getLast?_append_of_ne_nil _ hv] at hc
      rw [beq_eq_false_iff_ne]
      rintro rfl
      exact hslash hc
    rw [hself, if_neg (by simp [hv])]

theorem length_written_lt (h : ¬Survives exacts v) :
    (written (texts exacts v.toList) []).length < (frontOf exacts ++ v.toList).length := by
  have hlast : (frontOf exacts ++ v.toList).getLast? = some '/' ∧
      1 < (frontOf exacts ++ v.toList).length := by
    rw [Survives, not_and_or, not_not, Classical.not_imp] at h
    rcases h with hslash | ⟨rfl, hne⟩
    · obtain ⟨init, hinit⟩ := List.getLast?_eq_some_iff.1 hslash
      rw [hinit, ← List.append_assoc]
      refine ⟨List.getLast?_concat, ?_⟩
      simp only [frontOf, List.length_append, List.length_singleton]
      omega
    · obtain ⟨e, exacts, rfl⟩ := List.exists_cons_of_ne_nil hne
      rw [String.toList_empty, List.append_nil]
      refine ⟨List.getLast?_concat, ?_⟩
      rw [frontOf, List.map_cons, spelled_cons, List.length_append, List.length_cons,
        List.length_singleton]
      omega
  rw [written_texts]
  split
  · exact hlast.2
  · exact length_trimEnd_lt hlast.1 rfl

/-! ### Setting the value -/

theorem withValue_of_accepts (hhas : t.dispatch.has (.str s.data) = true)
    (haccepts : t.matcher.accepts s.data v = true) : t.withValue (.str s.data) (.str v) =
      .ok { t with dispatch := t.dispatch.insert (.str s.data) (.str v) } :=
  (withValue_eq_ok hhas).2 ⟨checkValue_eq_ok.2 fun _ => ⟨rfl, haccepts⟩, rfl⟩

theorem path_of_endsNamed (h : r.matcher.EndsNamed exacts s n) (hs : s.isNamed = true)
    (hget : r.dispatch.get? (.str s.data) = some (.str v)) (hargs : r.args = []) :
    r.path = .ok (String.ofList (written (texts exacts v.toList) [])) := by
  have hliterals : List.Forall₂ (fun s w => r.segmentPart s = .ok w) exacts
      (exacts.map fun s => s.data.toList) :=
    List.forall₂_map_right_iff.2 (List.forall₂_same.2 fun e he => segmentPart_fixed (h.exact e he))
  have hparts : List.Forall₂ (fun s w => r.segmentPart s = .ok w) r.matcher.pattern.segments
      (texts exacts v.toList) := by
    rw [h.segments]
    exact List.rel_append hliterals (.cons (segmentPart_named hs hget rfl rfl) .nil)
  rw [path_eq_written rfl hparts (by simp [hargs]), hargs]

/-- With the value set, the path of a route is matched with the value again just if the value does
not end with a slash, and if something is before that slash. -/
theorem value_survives_iff (hbuild : Route.build pattern defaults options = .ok t)
    (hcase : options.caseSensitive.truthy = true) (hfixed : t.matcher.pattern.wildcard = false)
    (hsegments : t.matcher.pattern.segments = exacts ++ [s])
    (hexact : ∀ e ∈ exacts, e.kind = .exact)
    (hs : s.kind = .constrained) (hself : s.isSelfContained false = true)
    (hnever : s.NeverLooksBack false v.toList)
    (haccepts : t.matcher.matchSegment (.str s.data) (.str v) = .ok true) :
    ∃ r path, t.withValue (.str s.data) (.str v) = .ok r ∧ r.path = .ok path ∧
      ∀ o : Route, o.matcher = t.matcher → ((∃ m, o.matchPath path = .ok (some m) ∧
        m.dispatchValue (.str s.data) = .ok (.str v)) ↔ Survives exacts v) := by
  obtain ⟨p, ds, _, _, hb⟩ := built_of_build hbuild
  rw [hb.pattern_eq] at hsegments hfixed
  have hn : s.isNamed = true := by simp [Segment.isNamed, hs]
  obtain ⟨n, h⟩ := endsNamed_of_build (Pattern.written_of_read hb.read)
    (Pattern.nodup_names hb.read) hb.matcher (by simp [ignoresCase, hcase]) hsegments hfixed
    (fun e he => by simp [Segment.isNamed, hexact e he]) hn hself
  rw [matchSegment_str h.has] at haccepts
  have haccepts := Except.ok.inj haccepts
  have hname : s.data ∈ p.names :=
    List.mem_map.2 ⟨s, List.mem_filter.2 ⟨by simp [hsegments], hn⟩, rfl⟩
  have hpath := path_of_endsNamed
    (r := { t with dispatch := t.dispatch.insert (.str s.data) (.str v) })
    h hn Mapping.get?_insert_self hb.args
  refine ⟨_, _, withValue_of_accepts (hb.has_of_mem hname) haccepts, hpath, fun o ho => ?_⟩
  rw [← ho] at h haccepts
  constructor
  · -- A path that has been trimmed is too short for the literals and the value.
    rintro ⟨m, hm, hvalue⟩
    by_contra hnot
    obtain ⟨c, hc, rfl⟩ := matchPath_eq_some hm
    obtain ⟨w, hvalues, hprefix⟩ := h.prefix_of_matchPath hc
    rw [dispatchValue_withCaptures h.distinct h.length_texts hvalues hn h.mem_zip_texts] at hvalue
    have hw : w = v.toList := by
      cases hvalue
      rw [String.toList_ofList]
    have hlength := hprefix.length_le
    rw [hw, String.toList_ofList] at hlength
    exact absurd (length_written_lt hnot) (Nat.not_lt_of_ge hlength)
  · intro hsurvives
    have hwritten : (String.ofList (written (texts exacts v.toList) [])).toList =
        frontOf exacts ++ v.toList := by
      rw [String.toList_ofList, written_of_survives hsurvives]
    have hmatch := h.matchPath_of_accepts hnever haccepts hwritten hsurvives.1
    refine ⟨o.withCaptures _ _, by rw [Route.matchPath, hmatch]; rfl, ?_⟩
    rw [dispatchValue_withCaptures h.distinct h.length_texts rfl hn h.mem_zip_texts,
      String.ofList_toList]

/-- A value may have slashes in it, and still come through. -/
theorem value_survives_nested : ∃ t r path m, Route.build (.str "/x/<.+>:n") .none .usual = .ok t ∧
    t.withValue (.str "n") (.str "a/b") = .ok r ∧ r.path = .ok path ∧
      t.matchPath path = .ok (some m) ∧ m.dispatchValue (.str "n") = .ok (.str "a/b") := by
  have h : (Route.build (.str "/x/<.+>:n") .none .usual).toOption.any (fun t =>
      t.matcher.pattern == ⟨[.exact ['x'], ⟨.constrained, "n", ".+"⟩], false⟩ &&
        (t.matcher.matchSegment (.str "n") (.str "a/b")).toOption == some true) = true := by
    decide +kernel
  obtain ⟨t, ht, h⟩ := (Option.any_eq_true _ _).1 h
  obtain ⟨hpattern, haccepts⟩ := Bool.and_eq_true_iff.1 h
  have hpattern := beq_iff_eq.1 hpattern
  have hbuild := toOption_eq_some.1 ht
  have hsegments : t.matcher.pattern.segments =
      [Segment.exact ['x']] ++ [⟨.constrained, "n", ".+"⟩] := by
    rw [hpattern]
    rfl
  obtain ⟨r, path, hset, hpath, hmatch⟩ :=
    value_survives_iff hbuild rfl (by rw [hpattern]) hsegments
    (by simp [Segment.exact]) rfl (by decide +kernel)
    (Segment.neverLooksBack_of_isForward (by decide +kernel))
    (toOption_eq_some.1 (beq_iff_eq.1 haccepts))
  obtain ⟨m, hm, hvalue⟩ := (hmatch t rfl).2 ⟨by decide, by decide⟩
  exact ⟨t, r, path, m, hbuild, hset, hpath, hm, hvalue⟩

/-- An empty value is accepted, and then left out with the slash before it. -/
theorem value_lost : ∃ t r, Route.build (.str "/x/<a*>:n") .none .usual = .ok t ∧
    t.matcher.pattern = ⟨[.exact ['x'], ⟨.constrained, "n", "a*"⟩], false⟩ ∧
      t.matcher.matchSegment (.str "n") (.str "") = .ok true ∧
        t.withValue (.str "n") (.str "") = .ok r ∧ r.path = .ok "/x" ∧
          t.matchPath "/x" = .ok none := by
  have h : (Route.build (.str "/x/<a*>:n") .none .usual).toOption.any (fun t =>
      t.matcher.pattern == ⟨[.exact ['x'], ⟨.constrained, "n", "a*"⟩], false⟩ &&
        (t.matcher.matchSegment (.str "n") (.str "")).toOption == some true &&
        ((t.withValue (.str "n") (.str "")).toOption.any fun r => r.path.toOption == some "/x") &&
        (t.matchPath "/x").toOption.any Option.isNone) = true := by
    decide +kernel
  obtain ⟨t, ht, h⟩ := (Option.any_eq_true _ _).1 h
  obtain ⟨h, hmatch⟩ := Bool.and_eq_true_iff.1 h
  obtain ⟨h, hset⟩ := Bool.and_eq_true_iff.1 h
  obtain ⟨hpattern, haccepts⟩ := Bool.and_eq_true_iff.1 h
  obtain ⟨r, hr, hpath⟩ := (Option.any_eq_true _ _).1 hset
  obtain ⟨found, hfound, hnone⟩ := (Option.any_eq_true _ _).1 hmatch
  rw [Option.isNone_iff_eq_none.1 hnone] at hfound
  exact ⟨t, r, toOption_eq_some.1 ht, beq_iff_eq.1 hpattern,
    toOption_eq_some.1 (beq_iff_eq.1 haccepts),
    toOption_eq_some.1 hr, toOption_eq_some.1 (beq_iff_eq.1 hpath), toOption_eq_some.1 hfound⟩

end UrlRouting.Route
