import UrlRouting.Proofs.Pattern.Enforcement
import UrlRouting.Proofs.Route.Moves

/-! A match does not depend on what a route has been populated with before. -/
namespace UrlRouting.Route

open Expression PathMatcher WildcardArg

variable {r t : Route} {p : Pattern} {ds : Mapping} {pattern defaults caseSensitive : Value}
  {options : Options} {moves : List Move} {path : String} {c : Captures}

/-- No move has set a default. -/
def SparesDefaults (t : Route) (moves : List Move) : Prop :=
  ∀ e ∈ t.dispatch, t.segmentName? e.1 = none → ∀ v, .withValue e.1 v ∉ moves

/-- The wildcard takes part in every match of the path. -/
def HasTail (t : Route) (path : String) : Prop :=
  t.hasWildcard = true → ∀ c, t.matcher.matchPath path = .ok (some c) → c.tail.isSome = true

/-- Only the values of segments differ from those of the template. -/
theorem Built.varies_of_spared (hb : t.Built p ds caseSensitive) (hr : Reached t moves r)
    (hspared : SparesDefaults t moves) :
    t.dispatch.Varies (fun k => ∃ name, t.segmentName? k = some name) r.dispatch := by
  refine ((List.forall₂_and_left _ _).2 ⟨fun e he => he, (hb.keeps hr).dispatch⟩).imp ?_
  rintro e f ⟨he, hkey, hvalue⟩
  refine ⟨hkey, fun hfixed => hvalue ?_⟩
  have hnone : t.segmentName? e.1 = none :=
    Option.eq_none_iff_forall_ne_some.2 fun name hname => hfixed ⟨name, hname⟩
  rintro (⟨name, hname, hkey⟩ | ⟨v, hv⟩)
  · exact hfixed ⟨name, segmentName?_eq_some.2 ⟨hkey, hb.hasSegment_iff.2 hname⟩⟩
  · exact hspared e he hnone v hv

/-- Captures cover all names of the pattern. -/
theorem Built.insertAll_captures (hb : t.Built p ds caseSensitive) (hdistinct : t.dispatch.Distinct)
    (hvaries : t.dispatch.Varies (fun k => ∃ name, t.segmentName? k = some name) r.dispatch)
    (hc : t.matcher.matchPath path = .ok (some c)) :
    t.dispatch.insertAll c.values = r.dispatch.insertAll c.values := by
  have hkeys := keys_of_matchPath (hb.pattern_eq ▸ Pattern.nodup_names hb.read) hc
  rw [hb.pattern_eq] at hkeys
  refine hvaries.insertAll_eq hdistinct (fun e he => ?_) fun e he ⟨name, hname⟩ => ?_
  · obtain ⟨name, _, hkey⟩ := Mapping.exists_name_of_mem hkeys he
    exact ⟨name, hkey⟩
  · obtain ⟨hkey, hsegment⟩ := segmentName?_eq_some.1 hname
    have hmem : Value.str name ∈ c.values.keys := by
      rw [hkeys]
      exact List.mem_map_of_mem (hb.hasSegment_iff.1 hsegment)
    obtain ⟨f, hf, hfkey⟩ := List.mem_map.1 hmem
    exact ⟨f, hf, hfkey.trans hkey.symm⟩

theorem Built.matchPath_eq (hb : t.Built p ds caseSensitive) (hdistinct : t.dispatch.Distinct)
    (hr : Reached t moves r) (hspared : SparesDefaults t moves) (htail : HasTail t path) :
    r.matchPath path = t.matchPath path := by
  have hkeeps := hb.keeps hr
  have hvaries := hb.varies_of_spared hr hspared
  have hpopulate : ∀ c, t.matcher.matchPath path = .ok (some c) →
      r.withCaptures path c = t.withCaptures path c := by
    intro c hc
    have hargs : c.tail = none → r.args = t.args := by
      intro hnone
      have hfixed : p.wildcard = false := by
        rw [Bool.eq_false_iff, ← hb.pattern_eq]
        intro hwild
        have hsome := htail hwild c hc
        rw [hnone] at hsome
        cases hsome
      rw [hkeeps.args hfixed, hb.args]
    simp only [withCaptures, hkeeps.pattern, hkeeps.matcher,
      hb.insertAll_captures hdistinct hvaries hc]
    cases htail' : c.tail with
    | none => simp [hargs htail']
    | some tail => rfl
  rw [matchPath, matchPath, hkeeps.matcher]
  cases hfound : t.matcher.matchPath path with
  | error => rfl
  | ok found =>
    cases found with
    | none => rfl
    | some c => simp [Except.map, hpopulate c hfound]

/-- Each key that is a segment is given a value, so that none is left over. -/
theorem Built.takeEntries_eq (hb : t.Built p ds caseSensitive) (hdistinct : t.dispatch.Distinct)
    (hvaries : t.dispatch.Varies (fun k => ∃ name, t.segmentName? k = some name) r.dispatch)
    {values : Mapping} (hall : t.dispatch.keys.all values.has = true) :
    t.takeEntries r.dispatch [] values = t.takeEntries t.dispatch [] values := by
  have hagree : t.AgreeElsewhere values t.dispatch r.dispatch :=
    fun _ _ => get?_eq_of_varies hvaries fun _ hname => hname
  rcases outcomes_of_isSome (isSome_takeEntries hagree [] []) with
    ⟨err, ht, hr⟩ | ⟨ht, hr⟩ | ⟨⟨d, args⟩, _, ht, _⟩
  · rw [ht, hr]
  · rw [ht, hr]
  · obtain ⟨d', hd', hend⟩ := takeEntries_varies hvaries hdistinct (fun _ hk => hk) ht
    have htaking : t.dispatch.Varies (fun _ => True) d :=
      varies_of_takeEntries ht fun k name hk => by
      obtain ⟨rfl, hsegment⟩ := segmentName?_eq_some.1 hk
      exact ⟨hb.has_of_mem (hb.hasSegment_iff.1 hsegment), trivial⟩
    rw [ht, hd', hend.eq]
    rintro e he ⟨⟨name, hname⟩, hmissing⟩
    have hkey : e.1 ∈ t.dispatch.keys := htaking.keys_eq ▸ List.mem_map_of_mem he
    have hhas := List.all_eq_true.1 hall _ hkey
    rw [(segmentName?_eq_some.1 hname).1] at hhas hmissing
    obtain ⟨f, hf, hfkey⟩ := List.mem_map.1 (Mapping.has_str_iff.1 hhas)
    exact hmissing f hf hfkey

theorem Built.matchDispatch_eq (hb : t.Built p ds caseSensitive) (hdistinct : t.dispatch.Distinct)
    (hr : Reached t moves r) (hspared : SparesDefaults t moves) (values : Mapping) :
    r.matchDispatch values =
      (t.matchDispatch values).map (Option.map fun m => { m with matched := r.matched }) := by
  have hkeeps := hb.keeps hr
  have hvaries := hb.varies_of_spared hr hspared
  rw [matchDispatch, matchDispatch, ← hvaries.keys_eq, takeEntries_congr hkeeps.matcher]
  split
  · rfl
  · next hall =>
    rw [hb.takeEntries_eq hdistinct hvaries (by simpa using hall)]
    cases t.takeEntries t.dispatch [] values with
    | error err => rfl
    | ok taken => cases taken with
      | none => rfl
      | some taken =>
        rw [ok_bind, ok_bind, hkeeps.pattern, hkeeps.matcher]
        rfl

theorem Built.hasTail (hb : t.Built p ds caseSensitive)
    (hself : p.IsSelfContained (ignoresCase caseSensitive)) (path : String) : HasTail t path := by
  intro hwild c hc
  rw [hasWildcard, hb.pattern_eq] at hwild
  exact isSome_tail_of_matchPath (Pattern.written_of_read hb.read) hself hb.matcher hc hwild

/-- Whatever a route has been populated with, it matches as the one that it comes from, unless a
default has been set. A path has to give a text to the wildcard, if there is one, and it always does
where the constraints are expressions by themselves. A match of values keeps the path that the route
was matched with. -/
theorem match_of_reached (hbuild : Route.build pattern defaults options = .ok t)
    (hd : Unambiguous defaults) (hr : Reached t moves r) (hspared : SparesDefaults t moves) :
    (∀ path, HasTail t path → r.matchPath path = t.matchPath path) ∧
      (t.matcher.pattern.IsSelfContained (ignoresCase options.caseSensitive) →
        ∀ path, r.matchPath path = t.matchPath path) ∧
      ∀ values, r.matchDispatch values =
        (t.matchDispatch values).map (Option.map fun m => { m with matched := r.matched }) := by
  obtain ⟨p, ds, _, hds, hb⟩ := built_of_build hbuild
  have hdistinct := hb.distinct (distinct_of_defaultsOf hd hds)
  refine ⟨fun path => hb.matchPath_eq hdistinct hr hspared, fun hself path => ?_,
    hb.matchDispatch_eq hdistinct hr hspared⟩
  rw [hb.pattern_eq] at hself
  exact hb.matchPath_eq hdistinct hr hspared (hb.hasTail hself path)

/-- The captures of `/user/42/x` and the arguments that were added are gone. -/
theorem match_of_reached_user : ∃ t r, Route.build (.str "/user/\\d+:id/*")
      (.dict [(.str "controller", .str "users")]) .usual = .ok t ∧
    Reached t [.withWildcardArg (.str "z") (.bool true), .withWildcardArg (.str "y") (.int 1),
      .matchPath (.str "/user/42/x")] r ∧
    r.matchPath "/user/7" = t.matchPath "/user/7" := by
  obtain ⟨t, r, hbuild, hfresh, hr, _⟩ := reached_user
  refine ⟨t, r, hbuild, hr, (match_of_reached hbuild unambiguous_user hr ?_).2.1 ?_ _⟩
  · intro e _ _ v
    simp
  · rw [hfresh.pattern]
    exact isSelfContained_userPattern

/-- The constraint closes its own group. Where `/a` matches, the group of the wildcard takes no
part, and an argument that was added before is still there. -/
theorem match_populated : ∃ t r m m', Route.build (.str "/<a)|(?:b>:x/*") .none .usual = .ok t ∧
    Reached t [.withWildcardArg (.str "secret") .none] r ∧
      SparesDefaults t [.withWildcardArg (.str "secret") .none] ∧
    t.matchPath "/a" = .ok (some m) ∧ m.args = [] ∧
    r.matchPath "/a" = .ok (some m') ∧ ∃ a ∈ m'.args, a.value = .str "secret" := by
  have h : (Route.build (.str "/<a)|(?:b>:x/*") .none .usual).toOption.any (fun t =>
      (t.withWildcardArg (.str "secret") .none).toOption.any fun r =>
        ((t.matchPath "/a").toOption.any fun found => found.any fun m => m.args.isEmpty) &&
          (r.matchPath "/a").toOption.any fun found => found.any fun m =>
            m.args.any fun a => a.value.agrees (.str "secret")) = true := by
    decide +kernel
  obtain ⟨t, ht, h⟩ := (Option.any_eq_true _ _).1 h
  obtain ⟨r, hr, h⟩ := (Option.any_eq_true _ _).1 h
  obtain ⟨hempty, hkept⟩ := Bool.and_eq_true_iff.1 h
  obtain ⟨_, hm, hempty⟩ := (Option.any_eq_true _ _).1 hempty
  obtain ⟨m, rfl, hempty⟩ := (Option.any_eq_true _ _).1 hempty
  obtain ⟨_, hm', hkept⟩ := (Option.any_eq_true _ _).1 hkept
  obtain ⟨m', rfl, hkept⟩ := (Option.any_eq_true _ _).1 hkept
  obtain ⟨a, ha, hvalue⟩ := List.any_eq_true.1 hkept
  have hmove : t.after (.withWildcardArg (.str "secret") .none) = .ok (some r) := by
    rw [after, toOption_eq_some.1 hr]
    rfl
  refine ⟨t, r, m, m', toOption_eq_some.1 ht, .move .start hmove, ?_, toOption_eq_some.1 hm,
    List.isEmpty_iff.1 hempty, toOption_eq_some.1 hm', a, ha, Value.agrees_str.1 hvalue⟩
  intro e _ _ v
  simp

end UrlRouting.Route
