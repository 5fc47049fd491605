import UrlRouting.Proofs.Pattern.Matcher
import UrlRouting.Proofs.Route.Template
import UrlRouting.Proofs.Value.Variation

/-! Routes as they are built, from any pattern. -/
namespace UrlRouting.Route

open Expression PathMatcher

variable {r t m : Route} {p : Pattern} {ds d : Mapping} {text path : String}
  {pattern defaults caseSensitive : Value} {options : Options} {names : List String} {c : Captures}
  {s : Segment} {w : List Char} {ws : List (List Char)}

/-- A mapping that is given has no key twice. -/
def Unambiguous (defaults : Value) : Prop :=
  ∀ entries, defaults = .dict entries → Mapping.Distinct entries

theorem distinct_of_defaultsOf (hd : Unambiguous defaults) (h : defaultsOf defaults = .ok ds) :
    ds.Distinct := by
  unfold defaultsOf at h
  split at h
  · cases h
    exact .nil
  · split at h
    · cases h
      exact hd _ rfl
    · split at h
      · obtain ⟨entries, _, h⟩ := bind_eq_ok.1 h
        cases h
        exact Mapping.distinct_ofList entries
      · cases h

/-- The names are new where their entries could be added. -/
theorem addNames_eq_ok (hnodup : names.Nodup) (h : addNames text ds names = .ok d) :
    (∀ name ∈ names, ds.has (.str name) = false) ∧
      d = ds ++ names.map fun name => (.str name, .none) := by
  have hfresh : ∀ name ∈ names, ds.has (.str name) = false := by
    induction names generalizing ds with
    | nil => simp
    | cons name names ih =>
      obtain ⟨hnot, hnodup⟩ := List.nodup_cons.1 hnodup
      rw [addNames] at h
      split at h
      · cases h
      · next hname =>
        refine List.forall_mem_cons.2 ⟨by simpa using hname, fun other hother => ?_⟩
        have hne : other ≠ name := by
          rintro rfl
          exact hnot hother
        rw [← Mapping.has_insert_of_ne hne]
        exact ih hnodup h other hother
  rw [addNames_eq hnodup hfresh] at h
  exact ⟨hfresh, (Except.ok.inj h).symm⟩

/-- What a route that has been built consists of. -/
structure Built (t : Route) (p : Pattern) (ds : Mapping) (caseSensitive : Value) : Prop where
  read : Pattern.read t.pattern = .ok p
  matcher : PathMatcher.build p caseSensitive = .ok t.matcher
  disjoint : ∀ name ∈ p.names, ds.has (.str name) = false
  dispatch : t.dispatch = ds ++ p.names.map fun name => (.str name, .none)
  args : t.args = []
  matched : t.matched = none

theorem ofValue_eq_ok (h : Pattern.ofValue pattern = .ok (text, p)) :
    pattern = .str text ∧ Pattern.read text = .ok p := by
  unfold Pattern.ofValue at h
  split at h
  · obtain ⟨p', hread, h⟩ := map_eq_ok.1 h
    cases h
    exact ⟨rfl, hread⟩
  · cases h

theorem built_of_build (h : Route.build pattern defaults options = .ok t) :
    ∃ p ds, pattern = .str t.pattern ∧ defaultsOf defaults = .ok ds ∧
      t.Built p ds options.caseSensitive := by
  obtain ⟨⟨text, p⟩, hpattern, h⟩ := bind_eq_ok.1 h
  obtain ⟨ds, hds, h⟩ := bind_eq_ok.1 h
  obtain ⟨dispatch, hdispatch, h⟩ := bind_eq_ok.1 h
  obtain ⟨htext, hread⟩ := ofValue_eq_ok hpattern
  obtain ⟨hdisjoint, hdispatch⟩ := addNames_eq_ok (Pattern.nodup_names hread) hdispatch
  split at h
  · cases h
  · obtain ⟨matcher, hbuild, h⟩ := bind_eq_ok.1 h
    cases h
    exact ⟨p, ds, htext, hds, hread, hbuild, hdisjoint, hdispatch, rfl, rfl⟩

namespace Built

variable (h : t.Built p ds caseSensitive)
include h

theorem pattern_eq : t.matcher.pattern = p :=
  (PathMatcher.build_eq_ok h.matcher).2.2

theorem hasSegment_iff {name : String} : t.matcher.hasSegment name = true ↔ name ∈ p.names :=
  hasSegment_iff_of_build h.matcher

theorem keys_eq : t.dispatch.keys = ds.keys ++ p.names.map Value.str := by
  rw [h.dispatch, Mapping.keys, List.map_append, List.map_map]
  rfl

theorem has_of_mem {name : String} (hname : name ∈ p.names) :
    t.dispatch.has (.str name) = true := by
  rw [Mapping.has_str_iff, h.keys_eq]
  exact List.mem_append_right _ (List.mem_map_of_mem hname)

theorem ne {e : Value × Value} (he : e ∈ ds) {name : String} (hname : name ∈ p.names) :
    e.1 ≠ .str name :=
  Mapping.has_eq_false_iff.1 (h.disjoint name hname) e he

theorem distinct (hd : ds.Distinct) : t.dispatch.Distinct := by
  have hnames : (p.names.map fun name => (Value.str name, Value.none)).Pairwise fun e f =>
      e.1.agrees f.1 = false := by
    refine Mapping.distinct_of_keys_eq ?_ (Pattern.nodup_names h.read)
    rw [Mapping.keys, List.map_map]
    rfl
  rw [h.dispatch]
  refine List.pairwise_append.2 ⟨hd, hnames, fun e he f hf => ?_⟩
  obtain ⟨name, hname, rfl⟩ := List.mem_map.1 hf
  exact Value.agrees_str_of_ne (h.ne he hname)

/-- A route from a plain pattern that regards case is a template for others. -/
theorem fresh (hplain : p.IsPlain) (hcase : caseSensitive.truthy = true) : t.Fresh p ds := by
  obtain ⟨m, hbuild, _, _, hconstraints, hsplits⟩ := build_splits hcase (Pattern.nodup_names h.read)
    (Pattern.written_of_read h.read) hplain (Pattern.wildcard_of_nil h.read)
  obtain rfl : t.matcher = m := Except.ok.inj (h.matcher.symm.trans hbuild)
  exact ⟨h.pattern_eq, hsplits, hconstraints, h.dispatch, h.args⟩

end Built

/-! ### Matching -/

theorem matchPath_eq_some (h : r.matchPath path = .ok (some m)) :
    ∃ c, r.matcher.matchPath path = .ok (some c) ∧ m = r.withCaptures path c := by
  obtain ⟨found, hfound, h⟩ := map_eq_ok.1 h
  obtain ⟨c, rfl, rfl⟩ := Option.map_eq_some_iff.1 h
  exact ⟨c, hfound, rfl⟩

/-- A path gives values to the names of the pattern only. -/
theorem varies_withCaptures (hdistinct : r.matcher.pattern.names.Nodup)
    (hhas : ∀ name ∈ r.matcher.pattern.names, r.dispatch.has (.str name) = true)
    (hc : r.matcher.matchPath path = .ok (some c)) :
    r.dispatch.Varies (fun k => ∃ name ∈ r.matcher.pattern.names, k = .str name)
      (r.withCaptures path c).dispatch := by
  refine Mapping.varies_insertAll fun e he => ?_
  obtain ⟨name, hname, hkey⟩ := Mapping.exists_name_of_mem (keys_of_matchPath hdistinct hc) he
  exact ⟨name, hkey, hhas name hname, name, hname, rfl⟩

/-- A name has the value that has been captured for it. -/
theorem dispatchValue_of_mem {name : String} {v : Value}
    (hkeys : c.values.keys = names.map Value.str)
    (hdistinct : names.Nodup) (hv : (Value.str name, v) ∈ c.values) :
    (r.withCaptures path c).dispatchValue (.str name) = .ok v := by
  have hget : (r.dispatch.insertAll c.values).get? (.str name) = some v :=
    Mapping.get?_insertAll_of_mem hkeys hdistinct hv
  simp only [dispatchValue, withCaptures, hget]
  rfl

/-- Each named segment has the value that it has captured. -/
theorem dispatchValue_withCaptures (hdistinct : p.names.Nodup)
    (hlen : p.segments.length = ws.length)
    (hc : c.values = p.captured ws) (hn : s.isNamed) (hs : (s, w) ∈ p.segments.zip ws) :
    (r.withCaptures path c).dispatchValue (.str s.data) = .ok (.str (String.ofList w)) := by
  have hmem : (Value.str s.data, Value.str (String.ofList w)) ∈ p.captured ws :=
    List.mem_map.2 ⟨(s, w), List.mem_filter.2 ⟨hs, hn⟩, rfl⟩
  exact dispatchValue_of_mem (hc ▸ keys_captured hlen) hdistinct (hc ▸ hmem)

end UrlRouting.Route
