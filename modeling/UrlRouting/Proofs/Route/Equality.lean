import UrlRouting.Proofs.Route.Admission
import UrlRouting.Proofs.Router.Priority
import UrlRouting.Proofs.Value.Reordering

/-! Equal routes are interchangeable: they match the same paths and the same values, with equal
routes as the outcome, and are written alike. -/
namespace UrlRouting.Route

open Expression

variable {r s : Route} {m values : Mapping} {args args' : List WildcardArg} {e : Value × Value}
  {c : Captures} {flag flag' : Bool} {path : String}

/-! ### Routes that come from built ones -/

/-- The pattern and the regard for case determine the matcher. -/
theorem IsDerived.build_matcher (h : r.IsDerived) :
    ∃ p, Pattern.read r.pattern = .ok p ∧ PathMatcher.build p r.caseSensitive = .ok r.matcher := by
  obtain ⟨_, _, _, t, _, hbuild, hr⟩ := h
  obtain ⟨p, _, _, _, hb⟩ := built_of_build hbuild
  have hkeeps := hb.keeps hr
  refine ⟨p, hkeeps.pattern ▸ hb.read, ?_⟩
  rw [hb.caseSensitive_eq hr, hkeeps.matcher]
  exact hb.matcher

theorem IsDerived.matcher_eq (hr : r.IsDerived) (hs : s.IsDerived)
    (hpattern : r.pattern = s.pattern)
    (hcase : r.caseSensitive = s.caseSensitive) : r.matcher = s.matcher := by
  obtain ⟨p, hread, hbuild⟩ := hr.build_matcher
  obtain ⟨p', hread', hbuild'⟩ := hs.build_matcher
  rw [← hpattern, hread] at hread'
  cases hread'
  rw [← hcase, hbuild] at hbuild'
  exact Except.ok.inj hbuild'

theorem IsDerived.sound (h : r.IsDerived) (hkeyed : r.dispatch.Keyed) : r.Sound := by
  obtain ⟨_, _, _, t, _, hbuild, hr⟩ := h
  obtain ⟨p, ds, _, _, hb⟩ := built_of_build hbuild
  exact hb.sound ((hb.keeps hr).dispatch.symm.keyed hkeyed) hr

theorem IsDerived.nodup_names (h : r.IsDerived) : r.matcher.pattern.names.Nodup := by
  obtain ⟨p, hread, hbuild⟩ := h.build_matcher
  rw [(PathMatcher.build_eq_ok hbuild).2.2]
  exact Pattern.nodup_names hread

/-! ### Equality -/

/-- All values and arguments of the route are texts, or nothing. -/
structure IsTextual (r : Route) : Prop where
  dispatch : ∀ e ∈ r.dispatch, e.2.IsTextual
  args : ∀ a ∈ r.args, a.name.IsTextual ∧ a.value.IsTextual

/-- Texts can always be written. -/
theorem IsTextual.not_unwritable {err : RoutingError} (h : r.IsTextual) :
    ¬ (err = .numberUnwritable ∧
      ((∃ e ∈ r.dispatch, e.2.isWritable = false) ∨ ∃ a ∈ r.args, a.isWritable = false)) := by
  rintro ⟨-, ⟨e, he, hlong⟩ | ⟨a, ha, hlong⟩⟩
  · rw [(h.dispatch e he).isWritable] at hlong
    cases hlong
  · obtain ⟨hname, hvalue⟩ := h.args a ha
    rw [WildcardArg.isWritable, hname.isWritable, hvalue.isWritable] at hlong
    cases hlong

instance (r : Route) : Decidable r.IsTextual :=
  decidable_of_iff ((∀ e ∈ r.dispatch, e.2.IsTextual) ∧
    ∀ a ∈ r.args, a.name.IsTextual ∧ a.value.IsTextual) ⟨fun h => ⟨h.1, h.2⟩, fun h => ⟨h.1, h.2⟩⟩

/-- The routes have one pattern, one matcher and the same arguments, and the same values in any
order. -/
structure Alike (r s : Route) : Prop where
  pattern : r.pattern = s.pattern
  matcher : r.matcher = s.matcher
  dispatch : r.dispatch.Alike s.dispatch
  args : r.args = s.args

theorem argsAgree_self (args : List WildcardArg) : argsAgree args args = true := by
  induction args with
  | nil => rfl
  | cons a args ih => rw [argsAgree, Value.agrees_self, Value.agrees_self, ih]; rfl

theorem eq_of_argsAgree (htext : ∀ a ∈ args, a.name.IsTextual ∧ a.value.IsTextual)
    (h : argsAgree args args' = true) : args = args' := by
  induction args generalizing args' with
  | nil =>
    cases args' with
    | nil => rfl
    | cons => cases h
  | cons a args ih =>
    cases args' with
    | nil => cases h
    | cons b args' =>
      obtain ⟨⟨hname, hvalue⟩, htext⟩ := List.forall_mem_cons.1 htext
      rw [argsAgree, Bool.and_eq_true, Bool.and_eq_true, hname.agrees_iff, hvalue.agrees_iff] at h
      obtain ⟨⟨hname, hvalue⟩, hrest⟩ := h
      rw [ih htext hrest]
      cases a
      cases b
      cases hname
      cases hvalue
      rfl

theorem alike_of_equal (hr : r.IsDerived) (hs : s.IsDerived) (hkr : r.dispatch.Keyed)
    (hks : s.dispatch.Keyed) (hcr : r.caseSensitive = .bool flag)
    (hcs : s.caseSensitive = .bool flag')
    (htext : r.IsTextual) (h : r.equal s = true) : r.Alike s := by
  rw [equal, Bool.and_eq_true, Bool.and_eq_true, Bool.and_eq_true, beq_iff_eq] at h
  obtain ⟨⟨⟨hpattern, hcase⟩, hdispatch⟩, hargs⟩ := h
  have hflag : flag = flag' := by
    rw [hcr, hcs] at hcase
    cases flag <;> cases flag' <;> first | rfl | cases hcase
  exact ⟨hpattern, hr.matcher_eq hs hpattern (by rw [hcr, hcs, hflag]),
    Mapping.alike_of_equal hkr hks htext.dispatch hdispatch, eq_of_argsAgree htext.args hargs⟩

/-! ### Filled entries -/

theorem filled_fst : (r.filled values e).1 = e.1 := by
  rw [filled]
  split <;> rfl

/-- Whether an entry is filled depends on the standard form of its key only. -/
theorem standardized_map_filled :
    Mapping.standardized (m.map (r.filled values)) = m.standardized.map (r.filled values) := by
  rw [Mapping.standardized, Mapping.standardized, List.map_map, List.map_map]
  refine List.map_congr_left fun e _ => ?_
  obtain ⟨k, v⟩ := e
  rw [Function.comp_apply, Function.comp_apply]
  cases hk : r.segmentName? k with
  | some name =>
    obtain ⟨rfl, -⟩ := segmentName?_eq_some.1 hk
    simp [filled, hk, Value.standard]
  | none =>
    have hstandard : r.segmentName? k.standard = none := by
      rw [Option.eq_none_iff_forall_ne_some]
      intro name hname
      obtain ⟨hkey, -⟩ := segmentName?_eq_some.1 hname
      rw [hkey, ← Value.standard_eq_str.1 hkey, hk] at hname
      cases hname
    simp [filled, hk, hstandard]

/-! ### Routes that are alike -/

namespace Alike

variable (h : r.Alike s)
include h

theorem symm : s.Alike r :=
  ⟨h.pattern.symm, h.matcher.symm, h.dispatch.symm, h.args.symm⟩

theorem caseSensitive_eq : r.caseSensitive = s.caseSensitive := by
  rw [Route.caseSensitive, h.matcher, Route.caseSensitive]

theorem equal (hr : ∀ e ∈ r.dispatch, e.1.IsKey) (hs : ∀ e ∈ s.dispatch, e.1.IsKey)
    (hcase : r.caseSensitive = .bool flag) : r.equal s = true := by
  have hsame : (Value.bool flag).equal (.bool flag) = true := Value.agrees_self _
  rw [Route.equal, h.pattern, ← h.caseSensitive_eq, hcase, hsame, h.dispatch.equal hr hs, h.args,
    argsAgree_self, beq_self_eq_true]
  rfl

/-! ### Paths -/

theorem withCaptures (hkeys : ∀ e ∈ c.values, ∃ name, e.1 = .str name) (hr : r.dispatch.Keyed)
    (hs : s.dispatch.Keyed) : (r.withCaptures path c).Alike (s.withCaptures path c) where
  pattern := h.pattern
  matcher := h.matcher
  dispatch := (h.dispatch.insertAll hr hs hkeys).1
  args := by rw [Route.withCaptures, Route.withCaptures, h.args]

theorem matchPath (hr : r.IsDerived) (hkr : r.dispatch.Keyed) (hks : s.dispatch.Keyed)
    (hcase : r.caseSensitive = .bool flag) (path : String) :
    ∃ found found', r.matchPath path = .ok found ∧ s.matchPath path = .ok found' ∧
      Option.Rel (fun m n => m.equal n = true) found found' := by
  obtain ⟨p, hread, hbuild⟩ := hr.build_matcher
  obtain ⟨found, hfound⟩ := UrlRouting.exists_matchPath hread hbuild path
  refine ⟨found.map (r.withCaptures path), found.map (s.withCaptures path), ?_, ?_, ?_⟩
  · rw [Route.matchPath, hfound]
    rfl
  · rw [Route.matchPath, ← h.matcher, hfound]
    rfl
  · cases found with
    | none => exact .none
    | some c =>
      have hkeys : ∀ e ∈ c.values, ∃ name, e.1 = .str name := by
        intro e he
        obtain ⟨name, _, hname⟩ :=
          Mapping.exists_name_of_mem (keys_of_matchPath hr.nodup_names hfound) he
        exact ⟨name, hname⟩
      exact .some ((h.withCaptures hkeys hkr hks).equal (h.dispatch.insertAll hkr hks hkeys).2.isKey
        (h.dispatch.symm.insertAll hks hkr hkeys).2.isKey hcase)

/-! ### Values -/

theorem segmentName?_eq : r.segmentName? = s.segmentName? := by
  funext k
  cases k <;> simp [segmentName?, h.matcher]

theorem filled_eq : r.filled values = s.filled values := by
  funext e
  rw [filled, filled, h.segmentName?_eq]

theorem further_eq (hr : r.dispatch.Keyed) (hs : s.dispatch.Keyed) (hvalues : values.Keyed) :
    r.further values = s.further values :=
  List.filter_congr fun e he => by rw [h.dispatch.has_eq hr hs (hvalues.isKey e he)]

/-- For each entry of the one there is one of the other with the same value and an equal key. -/
theorem exists_entry (hr : r.dispatch.Keyed) (hs : s.dispatch.Keyed) (hvalues : values.Keyed)
    {f : Value × Value} (hf : f ∈ s.dispatch) :
    ∃ e ∈ r.dispatch, values.get? f.1 = values.get? e.1 ∧
      s.segmentName? f.1 = r.segmentName? e.1 ∧ f.2 = e.2 := by
  obtain ⟨e, he, hkey, hvalue⟩ := h.dispatch.symm.exists_mem hf
  have hagrees := (Value.agrees_iff (hs.isKey f hf) (hr.isKey e he)).2 hkey.symm
  refine ⟨e, he, ?_, ?_, hvalue.symm⟩
  · exact hvalues.get?_eq_of_standard (hs.isKey f hf) (hr.isKey e he) hkey.symm
  · rw [h.segmentName?_eq, segmentName?_of_agrees hagrees]

theorem has_keys (hr : r.dispatch.Keyed) (hs : s.dispatch.Keyed) (hvalues : values.Keyed)
    (hkeys : ∀ k ∈ r.dispatch.keys, values.has k = true) :
    ∀ k ∈ s.dispatch.keys, values.has k = true := by
  intro k hk
  obtain ⟨f, hf, rfl⟩ := List.mem_map.1 hk
  obtain ⟨e, he, hsame, _⟩ := h.exists_entry hr hs hvalues hf
  rw [Mapping.has_eq_isSome_get?, hsame, ← Mapping.has_eq_isSome_get?]
  exact hkeys e.1 (List.mem_map_of_mem he)

/-- The two routes take in the same values, refuse the same, and fail of the same. -/
theorem isSome_matchDispatch (hr : r.dispatch.Keyed) (hs : s.dispatch.Keyed)
    (hvalues : values.Keyed) :
    (r.matchDispatch values).map Option.isSome = (s.matchDispatch values).map Option.isSome := by
  have hkeys : r.dispatch.keys.all values.has = s.dispatch.keys.all values.has := by
    rw [Bool.eq_iff_iff, List.all_eq_true, List.all_eq_true]
    exact ⟨h.has_keys hr hs hvalues, h.symm.has_keys hs hr hvalues⟩
  have hagree : s.AgreeElsewhere values r.dispatch s.dispatch :=
    fun e he _ => h.dispatch.get?_eq hr hs (hvalues.isKey e he)
  cases hall : r.dispatch.keys.all values.has with
  | false => rw [matchDispatch_of_not_keys hall, matchDispatch_of_not_keys (hkeys ▸ hall)]
  | true =>
    rw [matchDispatch_of_keys hall, matchDispatch_of_keys (hkeys ▸ hall),
      takeEntries_congr h.matcher]
    rcases outcomes_of_isSome (isSome_takeEntries hagree [] []) with
      ⟨err, hm, hn⟩ | ⟨hm, hn⟩ | ⟨_, _, hm, hn⟩
    all_goals
      rw [hm, hn]
      rfl

theorem matchDispatch (hr : r.Sound) (hs : s.Sound) (hcase : r.caseSensitive = .bool flag)
    (hvalues : values.Keyed) :
    (∃ err, r.matchDispatch values = .error err ∧ s.matchDispatch values = .error err) ∨
      ∃ found found', r.matchDispatch values = .ok found ∧ s.matchDispatch values = .ok found' ∧
        Option.Rel (fun m n => m.equal n = true) found found' := by
  rcases outcomes_of_isSome (h.isSome_matchDispatch hr.keyed hs.keyed hvalues) with
    ⟨err, hm, hn⟩ | ⟨hm, hn⟩ | ⟨m, n, hm, hn⟩
  · exact .inl ⟨err, hm, hn⟩
  · exact .inr ⟨none, none, hm, hn, .none⟩
  · refine .inr ⟨some m, some n, hm, hn, .some ?_⟩
    rw [hr.matchDispatch_eq_some hvalues hm, hs.matchDispatch_eq_some hvalues hn]
    have hfilled : ∀ {r : Route}, r.dispatch.Keyed →
        ∀ e ∈ r.dispatch.map (r.filled values), e.1.IsKey := by
      intro r hr e he
      obtain ⟨f, hf, rfl⟩ := List.mem_map.1 he
      rw [filled_fst]
      exact hr.isKey f hf
    have halike :
        Mapping.Alike (r.dispatch.map (r.filled values)) (s.dispatch.map (s.filled values)) := by
      rw [Mapping.Alike, standardized_map_filled, standardized_map_filled, h.filled_eq]
      exact h.dispatch.map _
    refine Alike.equal ⟨h.pattern, h.matcher, halike, ?_⟩ (hfilled hr.keyed)
      (hfilled hs.keyed) hcase
    rw [h.further_eq hr.keyed hs.keyed hvalues]

/-! ### Writing -/

theorem path_eq (hr : r.dispatch.Keyed) (hs : s.dispatch.Keyed) : r.path = s.path := by
  have hpart : r.segmentPart = s.segmentPart := by
    funext segment
    rw [segmentPart, segmentPart, h.dispatch.get?_eq hr hs (Value.isKey_str _), h.pattern]
  rw [Route.path, Route.path, argsPart, argsPart, h.matcher, h.args, hpart]

end Alike

/-- Equal routes that have texts only, or nothing, for their values and arguments cannot be told
apart. They match the same paths and the same values, and what they become is equal again. They are
written as one path, or lack the value for the same name. -/
theorem interchangeable_of_equal (hr : r.IsDerived) (hs : s.IsDerived) (hkr : r.dispatch.Keyed)
    (hks : s.dispatch.Keyed) (hcr : r.caseSensitive = .bool flag)
    (hcs : s.caseSensitive = .bool flag') (htext : r.IsTextual) (h : r.equal s = true) :
    (∀ path, ∃ found found', r.matchPath path = .ok found ∧ s.matchPath path = .ok found' ∧
      Option.Rel (fun m n => m.equal n = true) found found') ∧
    (∀ values : Mapping, values.Keyed →
      (∃ err, r.matchDispatch values = .error err ∧ s.matchDispatch values = .error err) ∨
        ∃ found found', r.matchDispatch values = .ok found ∧ s.matchDispatch values = .ok found' ∧
          Option.Rel (fun m n => m.equal n = true) found found') ∧
    ((∃ path, r.path = .ok path ∧ s.path = .ok path) ∨
      ∃ name ∈ r.matcher.pattern.names, r.path = .error (.incompleteRoute name r.pattern) ∧
        s.path = .error (.incompleteRoute name r.pattern)) := by
  have halike := alike_of_equal hr hs hkr hks hcr hcs htext h
  refine ⟨halike.matchPath hr hkr hks hcr,
    fun values hvalues => halike.matchDispatch (hr.sound hkr) (hs.sound hks) hcr hvalues, ?_⟩
  rw [← halike.path_eq hkr hks]
  cases hpath : r.path with
  | ok path => exact .inl ⟨path, rfl, rfl⟩
  | error err =>
    obtain ⟨name, hname, rfl⟩ := (path_eq_error hpath).resolve_right htext.not_unwritable
    exact .inr ⟨name, hname, rfl, rfl⟩

/-- The defaults come in another order, and the values have another history. -/
theorem interchangeable_of_equal_user : ∃ t t' r s m n m' n',
    Route.build (.str "/user/\\d+:id/*") (.dict [(.str "controller", .str "users"),
      (.str "action", .none)]) .usual = .ok t ∧
    Route.build (.str "/user/\\d+:id/*") (.dict [(.str "action", .none),
      (.str "controller", .str "users")]) .usual = .ok t' ∧
    Reached t [.matchPath (.str "/user/42/x")] r ∧
    Reached t' [.withValue (.str "id") (.str "42"), .matchPath (.str "/user/7/x")] s ∧
    r.IsTextual ∧ r.equal s = true ∧
    r.matchPath "/user/5" = .ok (some m) ∧ s.matchPath "/user/5" = .ok (some n) ∧ m.equal n = true ∧
    r.matchDispatch r.dispatch = .ok (some m') ∧ s.matchDispatch r.dispatch = .ok (some n') ∧
    m'.equal n' = true ∧ r.path = .ok "/user/42/x" ∧ s.path = .ok "/user/42/x" := by
  have h : (Route.build (.str "/user/\\d+:id/*") (.dict [(.str "controller", .str "users"),
      (.str "action", .none)]) .usual).toOption.any (fun t =>
    (Route.build (.str "/user/\\d+:id/*") (.dict [(.str "action", .none),
      (.str "controller", .str "users")]) .usual).toOption.any fun t' =>
    (t.after (.matchPath (.str "/user/42/x"))).toOption.any fun r => r.any fun r =>
    (t'.after (.matchPath (.str "/user/7/x"))).toOption.any fun u => u.any fun u =>
    (u.after (.withValue (.str "id") (.str "42"))).toOption.any fun s => s.any fun s =>
      decide r.IsTextual && r.equal s && (r.matchPath "/user/5").toOption.any (·.isSome) &&
        (r.matchDispatch r.dispatch).toOption.join.isSome && r.path.toOption == some "/user/42/x") =
          true := by
    decide +kernel
  obtain ⟨t, ht, h⟩ := exists_ok_of_any h
  obtain ⟨t', ht', h⟩ := exists_ok_of_any h
  obtain ⟨r, hr, h⟩ := exists_some_of_any h
  obtain ⟨u, hu, h⟩ := exists_some_of_any h
  obtain ⟨s, hs, h⟩ := exists_some_of_any h
  rw [Bool.and_eq_true, Bool.and_eq_true, Bool.and_eq_true, Bool.and_eq_true, decide_eq_true_iff,
    beq_iff_eq, toOption_eq_some] at h
  obtain ⟨⟨⟨⟨htext, hequal⟩, hfound⟩, hown⟩, hpath⟩ := h
  obtain ⟨found, hfound, hsome⟩ := exists_ok_of_any hfound
  obtain ⟨m', hm'⟩ := exists_some_of_join hown
  have hreached : Reached t _ r := .move .start hr
  have hreached' : Reached t' _ s := .move (.move .start hu) hs
  obtain ⟨_, _, _, hds, hb⟩ := built_of_build ht
  obtain ⟨_, _, _, hds', hb'⟩ := built_of_build ht'
  cases hds
  cases hds'
  have hkr := (hb.keeps hreached).dispatch.keyed (hb.keyed ⟨by simp [Value.isKey_str], by decide⟩)
  have hks := (hb'.keeps hreached').dispatch.keyed
    (hb'.keyed ⟨by simp [Value.isKey_str], by decide⟩)
  obtain ⟨hpaths, hvalues, hwritten⟩ := interchangeable_of_equal ⟨_, _, _, _, _, ht, hreached⟩
    ⟨_, _, _, _, _, ht', hreached'⟩ hkr hks (hb.caseSensitive_eq hreached)
      (hb'.caseSensitive_eq hreached')
    htext hequal
  obtain ⟨_, _, hm, hn, hrel⟩ := hpaths "/user/5"
  rw [hfound] at hm
  cases hm
  obtain ⟨m, rfl⟩ := Option.isSome_iff_exists.1 hsome
  obtain ⟨path, hr', hs'⟩ : ∃ path, r.path = .ok path ∧ s.path = .ok path := by
    refine hwritten.resolve_right ?_
    rintro ⟨_, _, herror, _⟩
    rw [hpath] at herror
    cases herror
  cases hr'.symm.trans hpath
  rcases hvalues r.dispatch hkr with ⟨err, herr, _⟩ | ⟨_, _, hgiven, hgiven', hrel'⟩
  · cases herr.symm.trans hm'
  · cases hgiven.symm.trans hm'
    cases hrel with
    | some hmn => cases hrel' with
      | some hmn' =>
        exact ⟨t, t', r, s, m, _, m', _, ht, ht', hreached, hreached', htext, hequal, hfound, hn,
          hmn, hm', hgiven', hmn', hr', hs'⟩

end UrlRouting.Route
