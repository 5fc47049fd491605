import UrlRouting.Proofs.Pattern.Constraint
import UrlRouting.Proofs.Value.Mapping
import UrlRouting.Proofs.Value.Writing
import UrlRouting.Route.Values

/-! Routes of plain patterns as they are built, which serve as templates for others. -/
namespace UrlRouting.Route

open Expression Expression.Reading

variable {r t m : Route} {p : Pattern} {ds : Mapping} {text path : String} {defaults : Value}
  {options : Options} {names : List String} {s : Segment} {ws : List (List Char)}
  {tail : Option (List Char)}

/-! ### Building -/

/-- A plain pattern and defaults that a route can be built from: no name is among the defaults, and
there is something to dispatch on where that is required. -/
structure Constructible (text : String) (defaults : Value) (options : Options) (p : Pattern)
    (ds : Mapping) : Prop where
  read : Pattern.read text = .ok p
  plain : p.IsPlain
  caseSensitive : options.caseSensitive.truthy = true
  defaults : defaultsOf defaults = .ok ds
  disjoint : ∀ name ∈ p.names, ds.has (.str name) = false
  dispatch : options.requireDispatch.truthy = true → ds ≠ [] ∨ p.names ≠ [] ∨ p.wildcard = true

/-- What is known of a route that has just been built. -/
structure Fresh (t : Route) (p : Pattern) (ds : Mapping) : Prop where
  pattern : t.matcher.pattern = p
  splits : t.matcher.Splits p
  constrains : t.matcher.Constrains p
  dispatch : t.dispatch = ds ++ p.names.map fun name => (.str name, .none)
  args : t.args = []

theorem addNames_eq (hnodup : names.Nodup) (hfresh : ∀ name ∈ names, ds.has (.str name) = false) :
    addNames text ds names = .ok (ds ++ names.map fun name => (.str name, .none)) := by
  induction names generalizing ds with
  | nil => simp [addNames]
  | cons name names ih =>
    obtain ⟨hname, hfresh⟩ := List.forall_mem_cons.1 hfresh
    obtain ⟨hnot, hnodup⟩ := List.nodup_cons.1 hnodup
    have hinsert : ds.insert (.str name) .none = ds ++ [(.str name, .none)] :=
      Mapping.insert_of_fresh fun e he =>
        Value.agrees_str_of_ne (Mapping.has_eq_false_iff.1 hname e he)
    have hrest : ∀ other ∈ names, (ds.insert (.str name) .none).has (.str other) = false := by
      intro other hother
      have hne : other ≠ name := by
        rintro rfl
        exact hnot hother
      rw [Mapping.has_insert_of_ne hne]
      exact hfresh other hother
    rw [addNames, if_neg (by simp [hname]), ih hnodup hrest, hinsert]
    simp

theorem Constructible.build (h : Constructible text defaults options p ds) :
    ∃ t, Route.build (.str text) defaults options = .ok t ∧ t.Fresh p ds := by
  have hw := Pattern.written_of_read h.read
  have hdistinct := Pattern.nodup_names h.read
  obtain ⟨m, hbuild, hpattern, _, hconstraints, hsplits⟩ :=
    build_splits h.caseSensitive hdistinct hw h.plain (Pattern.wildcard_of_nil h.read)
  have hread : Pattern.ofValue (.str text) = .ok (text, p) := by
    rw [Pattern.ofValue, h.read]
    rfl
  have hneeds : ¬(options.requireDispatch.truthy &&
      (ds ++ p.names.map fun name => (Value.str name, Value.none)).isEmpty && !p.wildcard) =
        true := by
    cases hr : options.requireDispatch.truthy with
    | false => simp
    | true => rcases h.dispatch hr with hd | hn | hwild <;> simp_all
  refine ⟨⟨text, m, ds ++ p.names.map fun name => (.str name, .none), [], none⟩, ?_, hpattern,
    hsplits, hconstraints, rfl, rfl⟩
  simp only [Route.build, hread, h.defaults, ok_bind, addNames_eq hdistinct h.disjoint]
  rw [if_neg hneeds, hbuild]
  rfl

theorem Constructible.ne (h : Constructible text defaults options p ds) :
    ∀ e ∈ ds, ∀ name ∈ p.names, e.1 ≠ .str name :=
  fun e he name hname => Mapping.has_eq_false_iff.1 (h.disjoint name hname) e he

/-- Without names nothing is asked of the defaults. -/
theorem constructible_of_names_eq_nil (hread : Pattern.read text = .ok p) (hnames : p.names = [])
    (hd : defaultsOf defaults = .ok ds) : Constructible text defaults .usual p ds where
  read := hread
  plain := isPlain_of_names_eq_nil hnames
  caseSensitive := rfl
  defaults := hd
  disjoint := by simp [hnames]
  dispatch := nofun

theorem segmentName?_eq_none {k : Value} (hp : r.matcher.Constrains p)
    (h : ∀ name ∈ p.names, k ≠ .str name) : r.segmentName? k = none := by
  cases k with
  | str s =>
    refine if_neg fun hs => ?_
    exact h s ((hasSegment_iff hp).1 hs) rfl
  | _ => rfl

theorem constructible_user :
    Constructible "/user/\\d+:id/*" (.dict [(.str "controller", .str "users")])
    .usual userPattern [(.str "controller", .str "users")] where
  read := read_userPattern
  plain := isPlain_userPattern
  caseSensitive := rfl
  defaults := rfl
  disjoint := by
    rw [names_userPattern]
    simp [Mapping.has_eq_false_iff]
  dispatch := fun _ => .inr (.inr rfl)

/-! ### Matching -/

theorem matchPath_of_splits (h : r.matcher.Splits p) (hs : p.Splits path.toList ws tail) :
    r.matchPath path =
      .ok (some (r.withCaptures path ⟨p.captured ws, tail.map String.ofList⟩)) := by
  rw [matchPath, h.hit hs]
  rfl

theorem splits_of_matchPath (h : r.matcher.Splits p) (hm : r.matchPath path = .ok (some m)) :
    ∃ ws tail, p.Splits path.toList ws tail ∧
      m = r.withCaptures path ⟨p.captured ws, tail.map String.ofList⟩ := by
  by_cases hex : ∃ ws tail, p.Splits path.toList ws tail
  · obtain ⟨ws, tail, hs⟩ := hex
    rw [matchPath_of_splits h hs] at hm
    cases hm
    exact ⟨ws, tail, hs, rfl⟩
  · rw [matchPath, h.miss hex] at hm
    cases hm

/-! ### Setting values -/

theorem entryName?_eq_some {k : Value} {name : String} : r.entryName? k = some name ↔
    k = .str name ∧ r.dispatch.has (.str name) = true := by
  cases k with
  | str s =>
    simp only [entryName?, Value.str.injEq]
    split
    · next h => exact ⟨fun hs => Option.some.inj hs ▸ ⟨rfl, h⟩, fun hs => congrArg some hs.1⟩
    · next h => exact ⟨fun hs => (by cases hs), fun hs => absurd (hs.1 ▸ hs.2) h⟩
  | _ => simp [entryName?]

/-- Only a segment asks for anything: it has to accept the value as it is written. -/
theorem checkValue_eq_ok {name : String} {v : Value} : r.checkValue name v = .ok () ↔
    (r.matcher.hasSegment name = true →
      v.isWritable = true ∧ r.matcher.accepts name v.text = true) := by
  unfold checkValue
  cases r.matcher.hasSegment name with
  | false => exact ⟨fun _ h => (by cases h), fun _ => rfl⟩
  | true =>
    rw [if_pos rfl, bind_eq_ok]
    constructor
    · rintro ⟨text, hwrite, h⟩ -
      obtain ⟨hv, rfl⟩ := Value.write_eq_ok.1 hwrite
      cases haccepts : r.matcher.accepts name v.text with
      | true => exact ⟨hv, rfl⟩
      | false =>
        rw [haccepts] at h
        cases h
    · intro h
      obtain ⟨hv, haccepts⟩ := h rfl
      exact ⟨_, Value.write_of_isWritable hv, by rw [haccepts]; rfl⟩

theorem withValue_eq_ok {q : Route} {name : String} {v : Value}
    (hhas : r.dispatch.has (.str name) = true) : r.withValue (.str name) v = .ok q ↔
      r.checkValue name v = .ok () ∧
        q = { r with dispatch := r.dispatch.insert (.str name) v } := by
  rw [withValue, entryName?_eq_some.2 ⟨rfl, hhas⟩]
  dsimp only
  rw [bind_eq_ok]
  constructor
  · rintro ⟨⟨⟩, hcheck, h⟩
    cases h
    exact ⟨hcheck, rfl⟩
  · rintro ⟨hcheck, rfl⟩
    exact ⟨(), hcheck, rfl⟩

theorem withWildcardArg_eq_ok {q : Route} {k v : Value} : r.withWildcardArg v k = .ok q ↔
    r.hasWildcard = true ∧ q = { r with args := WildcardArg.merge r.args ⟨k, v⟩ } := by
  unfold withWildcardArg
  cases r.hasWildcard with
  | false => simp [bind_eq_ok]
  | true => simp [eq_comm]

/-! ### Writing -/

/-- The path made of texts for the segments and of arguments. -/
def written (ws : List (List Char)) (args : List WildcardArg) : List Char :=
  let fixed := Text.trimEnd (· == '/') ('/' :: Text.joinPieces '/' ws)
  let whole := if args.isEmpty then fixed else fixed ++ '/' :: WildcardArg.joined args
  if whole.isEmpty then ['/'] else whole

/-- A segment without a name is written as it is. -/
theorem segmentPart_fixed (hn : s.isNamed = false) : r.segmentPart s = .ok s.data.toList := by
  rw [segmentPart, hn]
  rfl

/-- A named segment is written as its value, if that is not nothing. -/
theorem segmentPart_named {v : Value} (hn : s.isNamed)
    (hget : r.dispatch.get? (.str s.data) = some v)
    (hsome : v.isNothing = false) (hv : v.isWritable = true) :
    r.segmentPart s = .ok v.text.toList := by
  have hpart : r.segmentPart s = v.write >>= fun text => .ok text.toList := by
    rw [segmentPart, if_pos hn, hget]
    cases v with
    | none => cases hsome
    | _ => rfl
  rw [hpart, Value.write_of_isWritable hv]
  rfl

theorem argsPart_eq : r.argsPart = if r.args.all WildcardArg.isWritable then
    .ok (if r.args.isEmpty then [] else '/' :: WildcardArg.joined r.args)
      else .error .numberUnwritable := by
  rw [argsPart, WildcardArg.format]
  cases r.args with
  | nil => rfl
  | cons a args => cases (a :: args).all WildcardArg.isWritable <;> rfl

/-- Where the segments can be written, all depends on the arguments. -/
theorem path_eq_of_parts (hp : r.matcher.pattern = p)
    (hparts : List.Forall₂ (fun s w => r.segmentPart s = .ok w) p.segments ws) :
    r.path = if r.args.all WildcardArg.isWritable then .ok (String.ofList (written ws r.args))
      else .error .numberUnwritable := by
  rw [path, hp, mapM_eq_ok.2 hparts, ok_bind, argsPart_eq, written]
  cases r.args.all WildcardArg.isWritable with
  | false => rfl
  | true =>
    rw [if_pos rfl, if_pos rfl, ok_bind]
    cases r.args <;> simp [pure, Except.pure]

theorem path_eq_written (hp : r.matcher.pattern = p)
    (hparts : List.Forall₂ (fun s w => r.segmentPart s = .ok w) p.segments ws)
    (hargs : ∀ a ∈ r.args, a.isWritable = true) :
    r.path = .ok (String.ofList (written ws r.args)) := by
  rw [path_eq_of_parts hp hparts, if_pos (List.all_eq_true.2 hargs)]

/-- A route whose names have values that are something and can be written is written as a path,
unless an argument cannot be written. -/
theorem exists_path_or (h : ∀ name ∈ r.matcher.pattern.names, ∃ v,
    r.dispatch.get? (.str name) = some v ∧ v.isNothing = false ∧ v.isWritable = true) :
    (∃ path, r.path = .ok path) ∧ (∀ a ∈ r.args, a.isWritable = true) ∨
      r.path = .error .numberUnwritable ∧ ∃ a ∈ r.args, a.isWritable = false := by
  have hparts : ∀ s ∈ r.matcher.pattern.segments, ∃ w, r.segmentPart s = .ok w := by
    intro s hs
    cases hn : s.isNamed with
    | false => exact ⟨_, segmentPart_fixed hn⟩
    | true =>
      obtain ⟨v, hget, hsome, hv⟩ := h s.data (List.mem_map_of_mem (List.mem_filter.2 ⟨hs, hn⟩))
      exact ⟨_, segmentPart_named hn hget hsome hv⟩
  obtain ⟨ws, hws⟩ := exists_forall₂ hparts
  rw [path_eq_of_parts rfl hws]
  cases hall : r.args.all WildcardArg.isWritable with
  | true => exact .inl ⟨⟨_, rfl⟩, List.all_eq_true.1 hall⟩
  | false => exact .inr ⟨rfl, by simpa using hall⟩

theorem segmentPart_eq_error {err : RoutingError} (h : r.segmentPart s = .error err) :
    s.isNamed ∧ err = .incompleteRoute s.data r.pattern ∨
      err = .numberUnwritable ∧ ∃ e ∈ r.dispatch, e.2.isWritable = false := by
  unfold segmentPart at h
  split at h
  · next hn =>
    split at h
    · cases h
      exact .inl ⟨hn, rfl⟩
    · cases h
      exact .inl ⟨hn, rfl⟩
    · next v _ hget =>
      rcases bind_eq_error.1 h with h | ⟨_, _, h⟩
      · obtain ⟨hv, herr⟩ := Value.write_eq_error.1 h
        obtain ⟨e, he, _, rfl⟩ := Mapping.mem_of_get? hget
        exact .inr ⟨herr, e, he, hv⟩
      · cases h
  · cases h

/-- A route that cannot be written lacks the value for a name, or a number in it cannot be
written. -/
theorem path_eq_error {err : RoutingError} (h : r.path = .error err) :
    (∃ name ∈ r.matcher.pattern.names, err = .incompleteRoute name r.pattern) ∨
      err = .numberUnwritable ∧
        ((∃ e ∈ r.dispatch, e.2.isWritable = false) ∨ ∃ a ∈ r.args, a.isWritable = false) := by
  cases hparts : r.matcher.pattern.segments.mapM r.segmentPart with
  | ok ws =>
    rw [path_eq_of_parts rfl (mapM_eq_ok.1 hparts)] at h
    cases hall : r.args.all WildcardArg.isWritable with
    | true =>
      rw [hall] at h
      cases h
    | false =>
      rw [hall] at h
      cases h
      exact .inr ⟨rfl, .inr (by simpa using hall)⟩
  | error err' =>
    rw [path, hparts] at h
    cases h
    obtain ⟨s, hs, herr⟩ := exists_of_mapM_eq_error hparts
    refine (segmentPart_eq_error herr).imp ?_ (And.imp_right .inl)
    rintro ⟨hn, rfl⟩
    exact ⟨s.data, List.mem_map_of_mem (List.mem_filter.2 ⟨hs, hn⟩), rfl⟩

end UrlRouting.Route
