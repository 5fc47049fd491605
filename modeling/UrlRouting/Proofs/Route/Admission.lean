import UrlRouting.Proofs.Route.Merging
import UrlRouting.Proofs.Route.Moves
import UrlRouting.Proofs.Value.Key

/-! Which mappings of values a route matches, and what it takes over from them. -/
namespace UrlRouting.Route

open Expression WildcardArg

variable {r t m m' : Route} {p : Pattern} {ds d d' values values' : Mapping}
  {args args' : List WildcardArg} {err : RoutingError} {k v : Value} {e : Value × Value}
  {entries : List (Value × Value)} {pattern defaults caseSensitive : Value} {options : Options}
  {moves : List Move}

/-- What a mapping has to have: all keys of the route, something for each segment the text of which
its constraint matches in full, the very values of all other entries, and further keys only if the
route has a wildcard. Whether the values can be written is not asked. -/
structure Admits (r : Route) (values : Mapping) : Prop where
  keys : ∀ k ∈ r.dispatch.keys, values.has k = true
  segments : ∀ s ∈ r.matcher.pattern.segments, s.isNamed →
    ∃ v constraint, values.get? (.str s.data) = some v ∧ v.isNothing = false ∧
      PathMatcher.compile r.caseSensitive (Segment.isolated s.expression) = .ok constraint ∧
      constraint.matchesAll v.text = true
  others : ∀ e ∈ r.dispatch, r.segmentName? e.1 = none →
    ∃ v, values.get? e.1 = some v ∧ e.2.identical v = true
  rest : r.hasWildcard = true ∨ ∀ k ∈ values.keys, r.dispatch.has k = true

/-- An entry of a route with the value that a mapping gives to it, which only a segment takes. -/
def filled (r : Route) (values : Mapping) (e : Value × Value) : Value × Value :=
  if (r.segmentName? e.1).isSome then (e.1, (values.get? e.1).getD e.2) else e

/-- The entries of a mapping for which a route has no key. -/
def further (r : Route) (values : Mapping) : Mapping :=
  values.filter fun e => !r.dispatch.has e.1

/-! ### Entries one by one -/

/-- The key and its value are taken in, whatever has been taken in before. -/
def Takes (r : Route) (k v : Value) : Prop :=
  ∃ d args, Intake r r.dispatch [] k v d args

/-- Keys that agree are the name of one segment, if of any. -/
theorem segmentName?_of_agrees {l : Value} (h : k.agrees l = true) :
    r.segmentName? k = r.segmentName? l := by
  refine Option.ext fun name => ?_
  rw [segmentName?_eq_some, segmentName?_eq_some]
  refine and_congr_left fun _ => ⟨?_, ?_⟩
  · rintro rfl
    exact Value.str_agrees.1 h
  · rintro rfl
    exact Value.agrees_str.1 h

theorem takes_segment {name : String} (hk : r.segmentName? k = some name) :
    r.Takes k v ↔
      v.isNothing = false ∧ v.isWritable = true ∧ r.matcher.accepts name v.text = true := by
  constructor
  · rintro ⟨_, _, htaken⟩
    cases htaken with
    | segment hk' hsome hv haccepts =>
      obtain rfl := Option.some.inj (hk.symm.trans hk')
      exact ⟨hsome, hv, haccepts⟩
    | own hk' | arg hk' =>
      rw [hk] at hk'
      cases hk'
  · rintro ⟨hsome, hv, haccepts⟩
    exact ⟨_, _, .segment hk hsome hv haccepts⟩

/-- The route's own values still stand under the keys of entries but for the names of segments. -/
abbrev KeepsOwn (r : Route) (entries : List (Value × Value)) (d : Mapping) : Prop :=
  r.AgreeElsewhere entries d r.dispatch

theorem takes_iff (h : r.segmentName? k = none → d.get? k = r.dispatch.get? k) :
    r.Takes k v ↔ ∃ d' args', Intake r d args k v d' args' :=
  ⟨fun htakes => exists_intake_of_get?_eq (fun hk => (h hk).symm) [] htakes args,
    fun htaken => exists_intake_of_get?_eq h args htaken []⟩

/-- A mapping is taken in exactly if each of its entries is. -/
theorem exists_takeEntries_iff (args : List WildcardArg) (h : r.KeepsOwn entries d) :
    (∃ x, r.takeEntries d args entries = .ok (some x)) ↔ ∀ e ∈ entries, r.Takes e.1 e.2 := by
  induction entries generalizing d args with
  | nil => simp [takeEntries]
  | cons e entries ih =>
    obtain ⟨k, v⟩ := e
    obtain ⟨hfirst, hrest⟩ := List.forall_mem_cons.1 h
    rw [List.forall_mem_cons, takes_iff hfirst]
    constructor
    · rintro ⟨x, hx⟩
      obtain ⟨d', args', htaken, hx⟩ := takeEntries_cons.1 hx
      exact ⟨⟨d', args', htaken⟩, (ih args' (htaken.agreeElsewhere hrest)).1 ⟨x, hx⟩⟩
    · rintro ⟨⟨d', args', htaken⟩, hall⟩
      obtain ⟨x, hx⟩ := (ih args' (htaken.agreeElsewhere hrest)).2 hall
      exact ⟨x, takeEntries_cons.2 ⟨d', args', htaken, hx⟩⟩

/-- Only the entries for which the route has no key become arguments. -/
theorem args_eq_of_takeEntries
    (hhas : ∀ k name, r.segmentName? k = some name → r.dispatch.has k = true)
    (h : r.KeepsOwn entries d) (htaken : r.takeEntries d args entries = .ok (some (d', args'))) :
    args' = mergeAll args ((r.further entries).map fun e => argOf e.1 e.2) := by
  induction entries generalizing d args with
  | nil =>
    cases htaken
    rfl
  | cons e entries ih =>
    obtain ⟨k, v⟩ := e
    obtain ⟨hget', hown⟩ := List.forall_mem_cons.1 h
    obtain ⟨d₁, args₁, hfirst, hrest⟩ := takeEntries_cons.1 htaken
    rw [ih (hfirst.agreeElsewhere hown) hrest, further, further, List.filter_cons]
    cases hfirst with
    | segment hk => simp [hhas _ _ hk]
    | own hk hget =>
      rw [hget' hk] at hget
      simp [Mapping.has_eq_isSome_get?, hget]
    | arg hk hget =>
      rw [hget' hk] at hget
      simp [Mapping.has_eq_isSome_get?, hget, mergeAll]

/-- Each segment has the value that it is given, and all other entries are as they were. -/
theorem dispatch_eq_of_takeEntries (hown : r.dispatch.Distinct)
    (hhas : ∀ k name, r.segmentName? k = some name → r.dispatch.has k = true)
    (hdistinct : values.Distinct) (hkeys : r.dispatch.keys.all values.has = true)
    (htaken : r.takeEntries r.dispatch args values = .ok (some (d', args'))) :
    d' = r.dispatch.map (r.filled values) := by
  have hvaries : r.dispatch.Varies (fun k => (r.segmentName? k).isSome) d' :=
    varies_of_takeEntries htaken fun k name hk => ⟨hhas k name hk, by simp [hk]⟩
  refine hvaries.eq_map (hvaries.distinct hown) (fun e _ hk => if_neg hk) fun e he hk => ?_
  obtain ⟨name, hname⟩ := Option.isSome_iff_exists.1 hk
  obtain ⟨hkey, hsegment⟩ := segmentName?_eq_some.1 hname
  have hgiven : values.has e.1 = true := List.all_eq_true.1 hkeys _ (List.mem_map_of_mem he)
  rw [hkey] at hgiven
  obtain ⟨⟨_, v⟩, hv, rfl⟩ := List.mem_map.1 (Mapping.has_str_iff.1 hgiven)
  refine ⟨v, hkey ▸ (get?_of_takeEntries htaken hdistinct hv hsegment).1, ?_⟩
  rw [filled, if_pos hk, hkey, Mapping.get?_of_mem hdistinct hv, Option.getD_some]

/-! ### Whole mappings -/

theorem matchDispatch_of_keys (h : r.dispatch.keys.all values.has = true) :
    r.matchDispatch values = (r.takeEntries r.dispatch [] values).map fun taken =>
      taken.map fun (d, args) => { r with dispatch := d, args := args } := by
  rw [matchDispatch, h]
  rfl

/-- Without all of its keys a route does not look at the values. -/
theorem matchDispatch_of_not_keys (h : r.dispatch.keys.all values.has = false) :
    r.matchDispatch values = .ok none := by
  rw [matchDispatch, h]
  rfl

theorem exists_matchDispatch : (∃ m, r.matchDispatch values = .ok (some m)) ↔
    r.dispatch.keys.all values.has = true ∧ ∀ e ∈ values, r.Takes e.1 e.2 := by
  rw [← exists_takeEntries_iff (d := r.dispatch) [] fun _ _ _ => rfl]
  cases hkeys : r.dispatch.keys.all values.has with
  | false => simp [matchDispatch_of_not_keys hkeys]
  | true =>
    rw [matchDispatch_of_keys hkeys]
    constructor
    · rintro ⟨m, hm⟩
      obtain ⟨taken, htaken, hm⟩ := map_eq_ok.1 hm
      obtain ⟨x, rfl, _⟩ := Option.map_eq_some_iff.1 hm
      exact ⟨rfl, x, htaken⟩
    · rintro ⟨_, x, hx⟩
      exact ⟨_, map_eq_ok.2 ⟨_, hx, rfl⟩⟩

/-- What is known of a route that comes from one that has been built: the names of its segments are
keys of it, and each segment accepts what its constraint matches in full. -/
structure Sound (r : Route) : Prop where
  keyed : r.dispatch.Keyed
  segmentName?_iff {k : Value} {name : String} :
    r.segmentName? k = some name ↔ k = .str name ∧ name ∈ r.matcher.pattern.names
  has {k : Value} {name : String} (hk : r.segmentName? k = some name) : r.dispatch.has k = true
  accepts_iff {s : Segment} (hs : s ∈ r.matcher.pattern.segments) (hn : s.isNamed) {text : String} :
    r.matcher.accepts s.data text = true ↔ ∃ constraint,
      PathMatcher.compile r.caseSensitive (Segment.isolated s.expression) = .ok constraint ∧
        constraint.matchesAll text = true

theorem Built.keyed (hb : t.Built p ds caseSensitive) (hd : ds.Keyed) : t.dispatch.Keyed := by
  refine ⟨fun e he => ?_, hb.distinct hd.distinct⟩
  rw [hb.dispatch] at he
  rcases List.mem_append.1 he with he | he
  · exact hd.isKey e he
  · obtain ⟨name, _, rfl⟩ := List.mem_map.1 he
    exact Value.isKey_str name

theorem Built.sound (hb : t.Built p ds caseSensitive) (ht : t.dispatch.Keyed)
    (hr : Reached t moves r) : r.Sound := by
  have hkeeps := hb.keeps hr
  have hpattern : r.matcher.pattern = p := hkeeps.matcher ▸ hb.pattern_eq
  constructor
  · exact hkeeps.dispatch.keyed ht
  · exact hb.segmentName?_iff hr
  · exact hb.has_of_segmentName? hr
  · intro s hs hn v
    rw [hb.caseSensitive_eq hr, hkeeps.matcher]
    exact accepts_iff_of_build hb.matcher (Pattern.nodup_names hb.read) (hpattern ▸ hs) hn

namespace Sound

variable (h : r.Sound)
include h

/-- Entries of the two mappings that stand under keys that agree are found by each other's key. -/
theorem get?_of_agrees (hvalues : values.Keyed) {e f : Value × Value} (he : e ∈ values)
    (hf : f ∈ r.dispatch) (hef : e.1.agrees f.1 = true) :
    values.get? f.1 = some e.2 ∧ r.dispatch.get? e.1 = some f.2 := by
  have hkeys : f.1.agrees e.1 = true :=
    Value.agrees_comm (hvalues.isKey e he) (h.keyed.isKey f hf) ▸ hef
  exact ⟨hvalues.get?_of_agrees (h.keyed.isKey f hf) he hef,
    h.keyed.get?_of_agrees (hvalues.isKey e he) hf hkeys⟩

/-- A match takes over the values of segments and makes arguments of what is left. -/
theorem matchDispatch_eq_some (hvalues : values.Keyed)
    (hm : r.matchDispatch values = .ok (some m)) : m = { r with
      dispatch := r.dispatch.map (r.filled values)
      args := settled ((r.further values).map fun e => argOf e.1 e.2) } := by
  obtain ⟨hkeys, d, args, htaken, rfl⟩ := Route.matchDispatch_eq_some hm
  rw [dispatch_eq_of_takeEntries h.keyed.distinct (fun _ _ => h.has) hvalues.distinct
      hkeys htaken,
    args_eq_of_takeEntries (fun _ _ => h.has) (fun _ _ _ => rfl) htaken,
    mergeAll_eq_settled]
  intro a ha
  obtain ⟨e, _, rfl⟩ := List.mem_map.1 ha
  exact isLabel_argOf e.1 e.2

/-! ### The order of the values -/

end Sound

section User

variable (ht : t.Fresh userPattern [(.str "controller", .str "users")])
include ht

end User

end UrlRouting.Route
