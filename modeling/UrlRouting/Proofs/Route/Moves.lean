import UrlRouting.Proofs.Route.Taking

/-! Routes that come from one another by matching, by setting values and by adding arguments. Each
has the matcher and the keys of the first, and the first is left as it was. -/
namespace UrlRouting.Route

open Expression WildcardArg

variable {r r' t : Route} {p : Pattern} {ds : Mapping} {pattern defaults caseSensitive : Value}
  {options : Options} {move : Move} {moves : List Move} {name : String}

/-- What makes a route out of a route. -/
inductive Move
  | matchPath (path : Value)
  | matchDispatch (values : Mapping)
  | withValue (name value : Value)
  | withWildcardArg (value name : Value)

/-- The route that a move makes. Matches may make none, and other moves may be refused. -/
def after (r : Route) : Move → Except RoutingError (Option Route)
  | .matchPath path => r.matchValue path
  | .matchDispatch values => r.matchDispatch values
  | .withValue name value => (r.withValue name value).map some
  | .withWildcardArg value name => (r.withWildcardArg value name).map some

/-- Moves, the last one first, that have all succeeded and lead from one route to the other. -/
inductive Reached (t : Route) : List Move → Route → Prop
  | start : Reached t [] t
  | move {moves : List Move} {r r' : Route} {move : Move} (h : Reached t moves r)
      (hmove : r.after move = .ok (some r')) : Reached t (move :: moves) r'

/-- Makes a move on one of the routes at hand. The route that comes out joins them. -/
def join (routes : List Route) (i : Nat) (move : Move) : List Route :=
  match routes[i]? with
  | none => routes
  | some r => match r.after move with
    | .ok (some made) => routes ++ [made]
    | _ => routes

/-! ### Single moves -/

/-- What a move does where it succeeds. -/
inductive Effect (r : Route) : Move → Route → Prop
  | path {path : String} {c : Captures} (h : r.matcher.matchPath path = .ok (some c)) :
      Effect r (.matchPath (.str path)) (r.withCaptures path c)
  | values {values d : Mapping} {args : List WildcardArg}
      (h : r.takeEntries r.dispatch [] values = .ok (some (d, args))) :
      Effect r (.matchDispatch values) { r with dispatch := d, args := args }
  | entry {name : String} {value : Value} (h : r.dispatch.has (.str name) = true) :
      Effect r (.withValue (.str name) value)
        { r with dispatch := r.dispatch.insert (.str name) value }
  | namedArg {name value : Value} (h : r.hasWildcard = true) : Effect r (.withValue name value)
      { r with args := merge r.args ⟨if name.isPositional then .none else name, value⟩ }
  | arg {name value : Value} (h : r.hasWildcard = true) :
      Effect r (.withWildcardArg value name) { r with args := merge r.args ⟨name, value⟩ }

theorem matchValue_eq_some {path : Value} (h : r.matchValue path = .ok (some r')) :
    ∃ s, path = .str s ∧ r.matchPath s = .ok (some r') := by
  unfold matchValue at h
  split at h
  · next s => exact ⟨s, rfl, h⟩
  · obtain ⟨_, _, h⟩ := map_eq_ok.1 h
    cases h

theorem matchDispatch_eq_some {values : Mapping} (h : r.matchDispatch values = .ok (some r')) :
    r.dispatch.keys.all values.has = true ∧ ∃ d args,
      r.takeEntries r.dispatch [] values = .ok (some (d, args)) ∧
        r' = { r with dispatch := d, args := args } := by
  unfold matchDispatch at h
  split at h
  · cases h
  · next hall =>
    obtain ⟨taken, htaken, h⟩ := bind_eq_ok.1 h
    obtain ⟨⟨d, args⟩, rfl, rfl⟩ := Option.map_eq_some_iff.1 (Except.ok.inj h)
    exact ⟨by simpa using hall, d, args, htaken, rfl⟩

theorem effect_of_after (h : r.after move = .ok (some r')) : Effect r move r' := by
  cases move with
  | matchPath path =>
    obtain ⟨s, rfl, h⟩ := matchValue_eq_some h
    obtain ⟨c, hc, rfl⟩ := matchPath_eq_some h
    exact .path hc
  | matchDispatch values =>
    obtain ⟨_, d, args, htaken, rfl⟩ := matchDispatch_eq_some h
    exact .values htaken
  | withValue name value =>
    obtain ⟨made, hmade, hr⟩ := map_eq_ok.1 h
    obtain rfl := Option.some.inj hr
    cases hs : r.entryName? name with
    | some s =>
      obtain ⟨rfl, hhas⟩ := entryName?_eq_some.1 hs
      obtain ⟨_, rfl⟩ := (withValue_eq_ok hhas).1 hmade
      exact .entry hhas
    | none =>
      rw [withValue, hs] at hmade
      obtain ⟨hwild, rfl⟩ := withWildcardArg_eq_ok.1 hmade
      exact .namedArg hwild
  | withWildcardArg value name =>
    obtain ⟨made, hmade, hr⟩ := map_eq_ok.1 h
    obtain rfl := Option.some.inj hr
    obtain ⟨hwild, rfl⟩ := withWildcardArg_eq_ok.1 hmade
    exact .arg hwild

/-! ### Runs -/

/-- The key is a name of the pattern, or a move has set its value. -/
def Loose (p : Pattern) (moves : List Move) (k : Value) : Prop :=
  (∃ name ∈ p.names, k = .str name) ∨ ∃ v, .withValue k v ∈ moves

theorem Loose.cons {k : Value} (h : Loose p moves k) : Loose p (move :: moves) k :=
  h.imp_right fun ⟨v, hv⟩ => ⟨v, List.mem_cons_of_mem _ hv⟩

/-- What a route keeps of the one that it comes from. -/
structure Keeps (t : Route) (p : Pattern) (moves : List Move) (r : Route) : Prop where
  pattern : r.pattern = t.pattern
  matcher : r.matcher = t.matcher
  dispatch : t.dispatch.Varies (Loose p moves) r.dispatch
  args : p.wildcard = false → r.args = []

theorem Built.keeps_effect (hb : t.Built p ds caseSensitive) (h : Keeps t p moves r)
    (heffect : Effect r move r') : Keeps t p (move :: moves) r' := by
  have hmatcher : r.matcher.pattern = p := h.matcher ▸ hb.pattern_eq
  have hdispatch : t.dispatch.Varies (Loose p (move :: moves)) r.dispatch :=
    h.dispatch.mono fun _ => .cons
  have hhas : ∀ name ∈ p.names, r.dispatch.has (.str name) = true :=
    fun name hname => h.dispatch.has_eq ▸ hb.has_of_mem hname
  have hwildcard : r.hasWildcard = p.wildcard := by rw [hasWildcard, hmatcher]
  cases heffect with
  | @path path c hc =>
    have hvaries := varies_withCaptures (hmatcher ▸ Pattern.nodup_names hb.read)
      (hmatcher ▸ hhas) hc
    rw [hmatcher] at hvaries
    refine ⟨h.pattern, h.matcher, hdispatch.trans (hvaries.mono fun _ => .inl), fun hfixed => ?_⟩
    obtain ⟨_, _, _, htail⟩ := UrlRouting.matchPath_eq_some hc
    rw [hmatcher, hfixed] at htail
    rw [withCaptures, ← Except.ok.inj htail]
    exact h.args hfixed
  | values htaken =>
    refine ⟨h.pattern, h.matcher,
      hdispatch.trans (varies_of_takeEntries htaken fun k name hk => ?_),
      fun hfixed => args_of_takeEntries htaken (hwildcard.trans hfixed)⟩
    obtain ⟨rfl, hsegment⟩ := segmentName?_eq_some.1 hk
    rw [h.matcher, hb.hasSegment_iff] at hsegment
    exact ⟨hhas name hsegment, .inl ⟨name, hsegment, rfl⟩⟩
  | entry hname =>
    refine ⟨h.pattern, h.matcher, hdispatch.trans (Mapping.varies_insert hname ?_), h.args⟩
    exact .inr ⟨_, List.mem_cons_self⟩
  | namedArg hwild | arg hwild =>
    refine ⟨h.pattern, h.matcher, hdispatch, fun hfixed => ?_⟩
    rw [hwildcard, hfixed] at hwild
    cases hwild

theorem Built.keeps (hb : t.Built p ds caseSensitive) (hr : Reached t moves r) :
    Keeps t p moves r := by
  induction hr with
  | start => exact ⟨rfl, rfl, Mapping.Varies.refl _ _, fun _ => hb.args⟩
  | move _ hmove ih => exact hb.keeps_effect ih (effect_of_after hmove)

theorem Built.caseSensitive_eq (hb : t.Built p ds caseSensitive) (hr : Reached t moves r) :
    r.caseSensitive = caseSensitive := by
  rw [Route.caseSensitive, (hb.keeps hr).matcher, caseSensitive_of_build hb.matcher]

theorem Built.segmentName?_iff (hb : t.Built p ds caseSensitive) (hr : Reached t moves r)
    {k : Value} :
    r.segmentName? k = some name ↔ k = .str name ∧ name ∈ r.matcher.pattern.names := by
  rw [segmentName?_eq_some, (hb.keeps hr).matcher, hb.hasSegment_iff, hb.pattern_eq]

/-- The names of segments are among the keys. -/
theorem Built.has_of_segmentName? (hb : t.Built p ds caseSensitive) (hr : Reached t moves r)
    {k : Value} (hk : r.segmentName? k = some name) : r.dispatch.has k = true := by
  obtain ⟨rfl, hname⟩ := (hb.segmentName?_iff hr).1 hk
  rw [(hb.keeps hr).matcher, hb.pattern_eq] at hname
  exact (hb.keeps hr).dispatch.has_eq ▸ hb.has_of_mem hname

/-- A name that is given to an argument is a label. -/
def Move.IsLabelled : Move → Prop
  | .withValue name _ | .withWildcardArg _ name => IsLabel name
  | .matchPath _ | .matchDispatch _ => True

theorem isLabel_argOf (k v : Value) : IsLabel (argOf k v).name := by
  unfold argOf
  split
  · exact .none
  · exact .str _

theorem labelled_effect (h : Labelled r.args) (hmove : move.IsLabelled)
    (heffect : Effect r move r') :
    Labelled r'.args := by
  cases heffect with
  | @path path c =>
    cases htail : c.tail with
    | none => simpa [withCaptures, htail] using h
    | some tail => simpa [withCaptures, htail] using labelled_parse tail.toList
  | values htaken =>
    exact args_induction (fun _ k v hargs => hargs.add (isLabel_argOf k v)) htaken labelled_nil
  | entry => exact h
  | namedArg =>
    refine h.add ?_
    dsimp only
    split
    · exact .none
    · exact hmove
  | arg => exact h.add hmove

theorem labelled_reached (ht : t.args = []) (hr : Reached t moves r)
    (hlabels : ∀ move ∈ moves, move.IsLabelled) : Labelled r.args := by
  induction hr with
  | start =>
    rw [ht]
    exact labelled_nil
  | move _ hmove ih =>
    obtain ⟨hlabel, hlabels⟩ := List.forall_mem_cons.1 hlabels
    exact labelled_effect (ih hlabels) hlabel (effect_of_after hmove)

theorem getElem?_join {routes : List Route} {i : Nat} (h : routes[i]? = some r) (j : Nat)
    (move : Move) :
    (join routes j move)[i]? = some r := by
  unfold join
  split
  · exact h
  · split
    · rw [List.getElem?_append_left (List.getElem?_eq_some_iff.1 h).1]
      exact h
    · exact h

theorem unambiguous_user : Unambiguous (.dict [(.str "controller", .str "users")]) := by
  intro entries h
  cases h
  exact List.pairwise_singleton _ _

/-- A path is matched, and two arguments are added under names that are equal. -/
theorem reached_user : ∃ t r, Route.build (.str "/user/\\d+:id/*")
      (.dict [(.str "controller", .str "users")]) .usual = .ok t ∧
    t.Fresh userPattern [(.str "controller", .str "users")] ∧
    Reached t [.withWildcardArg (.str "z") (.bool true), .withWildcardArg (.str "y") (.int 1),
      .matchPath (.str "/user/42/x")] r ∧
    r.args = [.positional (.str "x"), ⟨.bool true, .str "z"⟩] := by
  obtain ⟨t, hbuild, hfresh⟩ := constructible_user.build
  have hwild : t.hasWildcard = true := by
    rw [hasWildcard, hfresh.pattern]
    rfl
  have hfirst : t.after (.matchPath (.str "/user/42/x")) = .ok (some (t.withCaptures "/user/42/x"
      ⟨userPattern.captured ["user".toList, "42".toList], some "/x"⟩)) :=
    matchPath_of_splits hfresh.splits splits_userPattern
  have harg : ∀ {r : Route} (value name : Value), r.matcher = t.matcher →
      r.after (.withWildcardArg value name) =
        .ok (some { r with args := merge r.args ⟨name, value⟩ }) := by
    intro r value name hm
    have hr : r.hasWildcard = true := by rw [hasWildcard, hm, ← hasWildcard, hwild]
    simp [after, withWildcardArg, hr, Except.map]
  refine ⟨t, _, hbuild, hfresh, .move (.move (.move .start hfirst) (harg (.str "y") (.int 1) rfl))
    (harg (.str "z") (.bool true) rfl), ?_⟩
  have hparse : parse "/x".toList = [.positional (.str "x")] := by cbv
  simp only [withCaptures, hparse]
  rfl

/-- Whatever moves have led to a route, it has the pattern and the matcher of the first one, and the
keys of the defaults and then the names of the pattern. A default has another value only where a
move has set it. There are arguments only with a wildcard, and no two have one name. A move leaves
all routes at hand as they are. -/
theorem invariant_of_reached (hbuild : Route.build pattern defaults options = .ok t)
    (hd : Unambiguous defaults) (hr : Reached t moves r)
    (hlabels : ∀ move ∈ moves, move.IsLabelled) :
    ∃ p ds, pattern = .str t.pattern ∧ Pattern.read t.pattern = .ok p ∧
      defaultsOf defaults = .ok ds ∧ r.pattern = t.pattern ∧ r.matcher = t.matcher ∧
      r.dispatch.keys = ds.keys ++ p.names.map Value.str ∧ r.dispatch.Distinct ∧
      (∀ e ∈ ds, (∀ v, .withValue e.1 v ∉ moves) → e ∈ r.dispatch) ∧
      (p.wildcard = false → r.args = []) ∧ WildcardArg.Distinct r.args ∧
      ∀ (routes : List Route) (i j : Nat) (move : Move), routes[i]? = some r →
        (join routes j move)[i]? = some r := by
  obtain ⟨p, ds, hpattern, hds, hb⟩ := built_of_build hbuild
  have hkeeps := hb.keeps hr
  have hdistinct := hkeeps.dispatch.distinct (hb.distinct (distinct_of_defaultsOf hd hds))
  refine ⟨p, ds, hpattern, hb.read, hds, hkeeps.pattern, hkeeps.matcher, ?_, hdistinct, ?_,
    hkeeps.args,
    (labelled_reached hb.args hr hlabels).distinct, fun routes i j move h => getElem?_join h j move⟩
  · rw [← hkeeps.dispatch.keys_eq, hb.keys_eq]
  · intro e he hunset
    refine hkeeps.dispatch.mem (hb.dispatch ▸ List.mem_append_left _ he) ?_
    rintro (⟨name, hname, hkey⟩ | ⟨v, hv⟩)
    · exact hb.ne he hname hkey
    · exact hunset v hv

/-- A number and a truth value that are equal name one argument. -/
theorem invariant_of_reached_user : ∃ t r, Route.build (.str "/user/\\d+:id/*")
      (.dict [(.str "controller", .str "users")]) .usual = .ok t ∧
    Reached t [.withWildcardArg (.str "z") (.bool true), .withWildcardArg (.str "y") (.int 1),
      .matchPath (.str "/user/42/x")] r ∧
    r.args = [.positional (.str "x"), ⟨.bool true, .str "z"⟩] ∧ r.matcher = t.matcher ∧
    r.dispatch.keys = [.str "controller", .str "id"] ∧
    (.str "controller", .str "users") ∈ r.dispatch ∧ WildcardArg.Distinct r.args := by
  obtain ⟨t, r, hbuild, _, hr, hargs⟩ := reached_user
  obtain ⟨p, ds, hpattern, hread, hds, -, hmatcher, hkeys, -, hkept, -, hdistinct, -⟩ :=
    invariant_of_reached hbuild unambiguous_user hr
      (by simp [Move.IsLabelled, IsLabel.int, IsLabel.bool])
  rw [← Value.str.inj hpattern, read_userPattern] at hread
  cases hread
  cases hds
  exact ⟨t, r, hbuild, hr, hargs, hmatcher, hkeys, hkept _ List.mem_cons_self (by simp), hdistinct⟩

end UrlRouting.Route
