import UrlRouting.Proofs.Route.Template
import UrlRouting.Proofs.Route.WildcardArg

/-! The values and arguments that a route matched in a path match the route again. -/
namespace UrlRouting.Route

open Expression Segment WildcardArg

variable {r t m : Route} {p : Pattern} {ds d d' done : Mapping} {text path : String}
  {defaults : Value}
  {options : Options} {names : List String} {ws : List (List Char)} {tail : Option (List Char)}
  {args args' before : List WildcardArg} {entries : List (Value × Value)} {k v : Value}

/-! ### Arguments among other values -/

/-- Arguments as entries: positional ones under their index, the others under their name. -/
def keyed : Nat → List WildcardArg → List (Value × Value)
  | _, [] => []
  | i, a :: rest =>
    if a.isPositional then (.int i, a.value) :: keyed (i + 1) rest
    else (a.name, a.value) :: keyed i rest

theorem agrees_int_of_lt {i j : Nat} (h : i < j) : (Value.int i).agrees (.int j) = false := by
  have hne : (i : Int) ≠ j := by omega
  simpa [Value.agrees, Value.scalarEqual, Value.asInt?] using hne

theorem agrees_str_int (s : String) (n : Int) : (Value.str s).agrees (.int n) = false := rfl

theorem agrees_int_str (n : Int) (s : String) : (Value.int n).agrees (.str s) = false := rfl

theorem mem_keyed {i : Nat} {e : Value × Value} (h : e ∈ keyed i args) :
    (∃ j : Nat, i ≤ j ∧ j < i + (args.filter WildcardArg.isPositional).length ∧ e.1 = .int j) ∨
      ∃ a ∈ args, a.isPositional = false ∧ e.1 = a.name := by
  induction args generalizing i with
  | nil => cases h
  | cons a args ih =>
    rw [keyed] at h
    split at h
    · next hpos =>
      rw [List.filter_cons_of_pos hpos, List.length_cons]
      rcases List.mem_cons.1 h with rfl | h
      · exact .inl ⟨i, Nat.le_refl _, by omega, rfl⟩
      · rcases ih h with ⟨j, hle, hlt, hj⟩ | ⟨b, hb, hname, he⟩
        · exact .inl ⟨j, by omega, by omega, hj⟩
        · exact .inr ⟨b, List.mem_cons_of_mem _ hb, hname, he⟩
    · next hpos =>
      rw [List.filter_cons_of_neg hpos]
      rcases List.mem_cons.1 h with rfl | h
      · exact .inr ⟨a, List.mem_cons_self, by simpa using hpos, rfl⟩
      · rcases ih h with hj | ⟨b, hb, hname, he⟩
        · exact .inl hj
        · exact .inr ⟨b, List.mem_cons_of_mem _ hb, hname, he⟩

/-- The name of an argument that can be written, if it is not positional. -/
theorem name_of_spellable {a : WildcardArg} (h : a.Spellable) (hpos : a.isPositional = false) :
    ∃ n, a.name = .str n := by
  cases h with
  | positional => cases hpos
  | @named n => exact ⟨n, rfl⟩

/-- No two arguments come under keys that agree. -/
theorem pairwise_keyed {i : Nat} (hs : ∀ a ∈ args, a.Spellable) (hd : Distinct args) :
    (keyed i args).Pairwise fun e f => e.1.agrees f.1 = false := by
  induction args generalizing i with
  | nil => exact .nil
  | cons a args ih =>
    obtain ⟨ha, hs⟩ := List.forall_mem_cons.1 hs
    obtain ⟨hnames, hd⟩ := List.pairwise_cons.1 hd
    rw [keyed]
    split
    · next hpos =>
      refine List.pairwise_cons.2 ⟨fun f hf => ?_, ih hs hd⟩
      rcases mem_keyed hf with ⟨j, hle, _, hj⟩ | ⟨b, hb, hbpos, he⟩
      · rw [hj]
        exact agrees_int_of_lt hle
      · obtain ⟨n, hn⟩ := name_of_spellable (hs b hb) hbpos
        rw [he, hn]
        exact agrees_int_str i n
    · next hpos =>
      obtain ⟨n, hn⟩ := name_of_spellable ha (by simpa using hpos)
      refine List.pairwise_cons.2 ⟨fun f hf => ?_, ih hs hd⟩
      rcases mem_keyed hf with ⟨j, _, _, hj⟩ | ⟨b, hb, hbpos, he⟩
      · rw [hj]
        show a.name.agrees _ = false
        rw [hn]
        exact agrees_str_int n j
      · have hne := (hnames b hb).resolve_left (by simp [hbpos])
        obtain ⟨n', hn'⟩ := name_of_spellable (hs b hb) hbpos
        rw [he]
        show a.name.agrees b.name = false
        rw [hn, hn'] at hne ⊢
        exact hne

/-! ### Taking in entries -/

theorem takeEntries_cons_of_eq (h : r.takeEntry d args k v = .ok (some (d', args'))) :
    r.takeEntries d args ((k, v) :: entries) = r.takeEntries d' args' entries := by
  rw [takeEntries, h]
  rfl

theorem takeEntries_append {xs ys : List (Value × Value)}
    (h : r.takeEntries d args xs = .ok (some (d', args'))) :
    r.takeEntries d args (xs ++ ys) = r.takeEntries d' args' ys := by
  induction xs generalizing d args with
  | nil =>
    cases h
    rfl
  | cons e xs ih =>
    obtain ⟨k, v⟩ := e
    obtain ⟨taken, htaken, hrest⟩ := bind_eq_ok.1 h
    cases taken with
    | none => cases hrest
    | some taken => rw [List.cons_append, takeEntries_cons_of_eq htaken, ih hrest]

/-- Values that the route has already. -/
theorem takeEntries_own (h : ∀ e ∈ entries, r.takeEntry d args e.1 e.2 = .ok (some (d, args))) :
    r.takeEntries d args entries = .ok (some (d, args)) := by
  induction entries with
  | nil => rfl
  | cons e entries ih =>
    obtain ⟨he, hentries⟩ := List.forall_mem_cons.1 h
    rw [takeEntries_cons_of_eq he, ih hentries]

/-- Values for segments. -/
theorem takeEntries_segments (h : ∀ e ∈ entries, ∀ d : Mapping,
      r.takeEntry d args e.1 e.2 = .ok (some (d.insert e.1 e.2, args))) :
    r.takeEntries d args entries = .ok (some (d.insertAll entries, args)) := by
  induction entries generalizing d with
  | nil => rfl
  | cons e entries ih =>
    obtain ⟨he, hentries⟩ := List.forall_mem_cons.1 h
    rw [takeEntries_cons_of_eq (he d), ih hentries]
    rfl

theorem takeEntry_of_fresh {a : WildcardArg} (hwild : r.hasWildcard = true)
    (hk : r.segmentName? k = none) (hfresh : ∀ e ∈ d, e.1.agrees k = false)
    (harg : argFor k v = .ok a) : r.takeEntry d args k v = .ok (some (d, merge args a)) := by
  rw [takeEntry, hk, Mapping.get?_of_fresh hfresh, harg]
  simp only [hwild]
  rfl

/-- Values that are arguments. -/
theorem takeEntries_keyed {i : Nat} (hwild : r.hasWildcard = true)
    (hs : ∀ a ∈ args, a.Spellable)
    (hdigits : ∀ a ∈ args, ∀ n, a.name = .str n → (Value.str n).isPositional = false)
    (hfresh : ∀ e ∈ keyed i args, r.segmentName? e.1 = none ∧ ∀ f ∈ d, f.1.agrees e.1 = false) :
    r.takeEntries d before (keyed i args) = .ok (some (d, mergeAll before args)) := by
  induction args generalizing i before with
  | nil => rfl
  | cons a args ih =>
    obtain ⟨ha, hs⟩ := List.forall_mem_cons.1 hs
    obtain ⟨hdigit, hdigits⟩ := List.forall_mem_cons.1 hdigits
    rw [keyed] at hfresh ⊢
    split
    · next hpos =>
      rw [if_pos hpos] at hfresh
      obtain ⟨⟨hk, hfree⟩, hfresh⟩ := List.forall_mem_cons.1 hfresh
      have harg : argFor (.int i) a.value = .ok a := by
        cases ha with
        | positional => rfl
        | named => cases hpos
      rw [takeEntries_cons_of_eq (takeEntry_of_fresh hwild hk hfree harg)]
      exact ih hs hdigits hfresh
    · next hpos =>
      rw [if_neg hpos] at hfresh
      obtain ⟨⟨hk, hfree⟩, hfresh⟩ := List.forall_mem_cons.1 hfresh
      have harg : argFor a.name a.value = .ok a := by
        cases ha with
        | positional => exact absurd rfl hpos
        | @named n v =>
          rw [argFor, hdigit n rfl]
          rfl
      rw [takeEntries_cons_of_eq (takeEntry_of_fresh hwild hk hfree harg)]
      exact ih hs hdigits hfresh

/-! ### What a fresh route matches -/

/-- Entries without a value are given theirs in their order. -/
theorem insertAll_names (hkeys : entries.map Prod.fst = names.map Value.str) (hnodup : names.Nodup)
    (hdone : ∀ e ∈ done, ∀ name ∈ names, e.1 ≠ .str name) :
    Mapping.insertAll (done ++ names.map fun name => (.str name, .none)) entries =
      done ++ entries := by
  induction entries generalizing names done with
  | nil =>
    obtain rfl : names = [] := by simpa using hkeys.symm
    rfl
  | cons e entries ih =>
    obtain ⟨k, v⟩ := e
    cases names with
    | nil => cases hkeys
    | cons name names =>
      simp only [List.map_cons, List.cons.injEq] at hkeys
      obtain ⟨rfl, hkeys⟩ := hkeys
      obtain ⟨hnot, hnodup⟩ := List.nodup_cons.1 hnodup
      have hinsert : Mapping.insert (done ++ (name :: names).map fun name => (.str name, .none))
          (.str name) v = (done ++ [(.str name, v)]) ++ names.map fun name =>
            (.str name, .none) := by
        rw [Mapping.insert_append fun e he => Value.agrees_str_of_ne (hdone e he name (by simp))]
        simp [Mapping.insert, Value.agrees_self]
      have hdone' : ∀ e ∈ done ++ [(Value.str name, v)], ∀ other ∈ names, e.1 ≠ .str other := by
        intro e he other hother
        rcases List.mem_append.1 he with he | he
        · exact hdone e he other (List.mem_cons_of_mem _ hother)
        · rw [List.mem_singleton.1 he]
          intro heq
          rw [Value.str.inj heq] at hnot
          exact hnot hother
      change Mapping.insertAll (Mapping.insert _ (.str name) v) entries = _
      rw [hinsert, ih hkeys hnodup hdone', List.append_assoc]
      rfl

/-- What is known of the route that a fresh one matches in a path. -/
structure Matches (t m : Route) (p : Pattern) (ds : Mapping) (ws : List (List Char)) : Prop where
  fits : List.Forall₂ Fits p.segments ws
  matcher : m.matcher = t.matcher
  pattern : m.pattern = t.pattern
  dispatch : m.dispatch = ds ++ p.captured ws
  spellable : ∀ a ∈ m.args, a.Spellable
  distinct : Distinct m.args
  args : p.wildcard = false → m.args = []

theorem fits_of_splits {path : List Char} (h : p.Splits path ws tail) :
    List.Forall₂ Fits p.segments ws := by
  cases h with
  | fixed _ hfits => exact hfits
  | tail _ _ hfits => exact hfits
  | bare _ hnil =>
    rw [hnil]
    exact .nil

theorem Fresh.matches (h : t.Fresh p ds) (hc : Constructible text defaults options p ds)
    (hm : t.matchPath path = .ok (some m)) : ∃ ws, Matches t m p ds ws := by
  obtain ⟨ws, tail, hs, rfl⟩ := splits_of_matchPath h.splits hm
  have hfits := fits_of_splits hs
  have hdispatch : t.dispatch.insertAll (p.captured ws) = ds ++ p.captured ws := by
    rw [h.dispatch]
    exact insertAll_names (keys_captured hfits.length_eq) (Pattern.nodup_names hc.read) hc.ne
  have hargs : ∀ {rest : List Char}, '\n' ∉ rest → p.wildcard = true →
      (∀ a ∈ parse rest, a.Spellable) ∧ Distinct (parse rest) ∧
        (p.wildcard = false → parse rest = []) := by
    intro rest hline hwild
    obtain ⟨hs, hd⟩ := parse_invariant hline
    exact ⟨hs, hd, fun hfixed => by simp [hwild] at hfixed⟩
  have hall : (∀ a ∈ (t.withCaptures path ⟨p.captured ws, tail.map String.ofList⟩).args,
      a.Spellable) ∧ Distinct (t.withCaptures path ⟨p.captured ws, tail.map String.ofList⟩).args ∧
      (p.wildcard = false →
        (t.withCaptures path ⟨p.captured ws, tail.map String.ofList⟩).args = []) := by
    cases hs with
    | fixed =>
      have hnone : t.args = [] := h.args
      simp [withCaptures, hnone, Distinct]
    | tail hwild _ _ _ hline => simpa [withCaptures] using hargs hline hwild
    | bare hwild _ hline => simpa [withCaptures] using hargs hline hwild
  exact ⟨ws, hfits, rfl, rfl, hdispatch, hall.1, hall.2.1, hall.2.2⟩

theorem mem_captured {e : Value × Value} (hfits : List.Forall₂ Fits p.segments ws)
    (h : e ∈ p.captured ws) : ∃ s ∈ p.segments, s.isNamed ∧ ∃ w, s.Fits w ∧
      e = (.str s.data, .str (String.ofList w)) := by
  obtain ⟨⟨s, w⟩, hmem, rfl⟩ := List.mem_map.1 h
  obtain ⟨hmem, hn⟩ := List.mem_filter.1 hmem
  exact ⟨s, (List.of_mem_zip hmem).1, hn, w, List.forall₂_zip hfits hmem, rfl⟩

theorem mem_names_of_mem_captured {e : Value × Value} (hfits : List.Forall₂ Fits p.segments ws)
    (h : e ∈ p.captured ws) : ∃ name ∈ p.names, e.1 = .str name := by
  obtain ⟨s, hs, hn, w, _, rfl⟩ := mem_captured hfits h
  exact ⟨s.data, List.mem_map.2 ⟨s, List.mem_filter.2 ⟨hs, hn⟩, rfl⟩, rfl⟩

theorem exists_captured {name : String} (hfits : List.Forall₂ Fits p.segments ws)
    (h : name ∈ p.names) : ∃ e ∈ p.captured ws, e.1 = .str name := by
  have hkey : Value.str name ∈ (p.captured ws).keys := by
    rw [keys_captured hfits.length_eq]
    exact List.mem_map.2 ⟨name, h, rfl⟩
  exact List.mem_map.1 hkey

/-- No two keys of what a route has matched agree. -/
theorem pairwise_matched (hkeys : ds.Pairwise fun e f => e.1.agrees f.1 = false)
    (hne : ∀ e ∈ ds, ∀ name ∈ p.names, e.1 ≠ .str name) (hdistinct : p.names.Nodup)
    (hfits : List.Forall₂ Fits p.segments ws) :
    (ds ++ p.captured ws).Pairwise fun e f => e.1.agrees f.1 = false := by
  refine List.pairwise_append.2 ⟨hkeys, pairwise_captured hdistinct hfits.length_eq, ?_⟩
  intro e he f hf
  obtain ⟨name, hname, hkey⟩ := mem_names_of_mem_captured hfits hf
  rw [hkey]
  exact Value.agrees_str_of_ne (hne e he name hname)

/-- What a route has matched is enough to write a path. -/
theorem path_of_captured (hp : r.matcher.pattern = p) (hd : r.dispatch = ds ++ p.captured ws)
    (hpair : (ds ++ p.captured ws).Pairwise fun e f => e.1.agrees f.1 = false)
    (hfits : List.Forall₂ Fits p.segments ws) (hargs : ∀ a ∈ r.args, a.isWritable = true) :
    r.path = .ok (String.ofList (written ws r.args)) := by
  refine path_eq_written hp (List.forall₂_iff_zip.2 ⟨hfits.length_eq, fun {s w} hmem => ?_⟩) hargs
  have hfit := List.forall₂_zip hfits hmem
  cases hn : s.isNamed with
  | false =>
    rw [segmentPart_fixed hn, (fits_exact hn).1 hfit]
  | true =>
    have hentry : (Value.str s.data, Value.str (String.ofList w)) ∈ p.captured ws :=
      List.mem_map.2 ⟨(s, w), List.mem_filter.2 ⟨hmem, hn⟩, rfl⟩
    have hget := Mapping.get?_of_mem hpair (List.mem_append_right ds hentry)
    rw [segmentPart_named hn (hd ▸ hget) rfl rfl]
    simp [Value.text]

/-! ### Agreement -/

/-- The defaults are taken as they are. -/
theorem Fresh.takeEntries_defaults (h : t.Fresh p ds)
    (hkeys : ds.Pairwise fun e f => e.1.agrees f.1 = false)
    (hself : ∀ e ∈ ds, e.2.identical e.2 = true)
    (hne : ∀ e ∈ ds, ∀ name ∈ p.names, e.1 ≠ .str name) :
    t.takeEntries t.dispatch args ds = .ok (some (t.dispatch, args)) := by
  refine takeEntries_own fun e he => ?_
  have hget : t.dispatch.get? e.1 = some e.2 := by
    rw [h.dispatch, Mapping.get?_append, Mapping.get?_of_mem hkeys he]
    rfl
  rw [takeEntry, segmentName?_eq_none h.constrains (hne e he), hget]
  simp [hself e he]

/-- What was captured satisfies the constraints and is taken for the segments. -/
theorem Fresh.takeEntries_captured (h : t.Fresh p ds) (hdistinct : p.names.Nodup)
    (hfits : List.Forall₂ Fits p.segments ws) :
    t.takeEntries d args (p.captured ws) = .ok (some (d.insertAll (p.captured ws), args)) := by
  refine takeEntries_segments fun e he d => ?_
  obtain ⟨s, hs, hn, w, hfit, rfl⟩ := mem_captured hfits he
  have hname : s.data ∈ p.names := List.mem_map.2 ⟨s, List.mem_filter.2 ⟨hs, hn⟩, rfl⟩
  have hsegment : t.segmentName? (.str s.data) = some s.data :=
    if_pos ((hasSegment_iff h.constrains).2 hname)
  have haccepts : t.matcher.accepts s.data (String.ofList w) = true :=
    (accepts_iff h.constrains hdistinct hs hn).2 (by simpa using hfit)
  rw [takeEntry, hsegment]
  simp only [Value.isNothing, Value.write_str, ok_bind, haccepts]
  rfl

/-- The keys of arguments are new to what a route has matched. -/
theorem Matches.fresh_keyed (h : Matches t m p ds ws)
    (hnames : ∀ a ∈ m.args, ∀ name, a.name = .str name → m.dispatch.has (.str name) = false)
    (hints : ∀ i < m.positionals.length, ds.has (.int i) = false) :
    ∀ e ∈ keyed 0 m.args, (∀ name ∈ p.names, e.1 ≠ .str name) ∧
      ∀ f ∈ ds ++ p.captured ws, f.1.agrees e.1 = false := by
  intro e he
  rcases mem_keyed he with ⟨j, _, hlt, hj⟩ | ⟨a, ha, hpos, hname⟩
  · rw [hj]
    refine ⟨fun name _ => by simp, fun f hf => ?_⟩
    rcases List.mem_append.1 hf with hf | hf
    · have hfree := hints j (by simpa [positionals] using hlt)
      simpa using List.any_eq_false.1 hfree f hf
    · obtain ⟨name, _, hkey⟩ := mem_names_of_mem_captured h.fits hf
      rw [hkey]
      exact agrees_str_int name j
  · obtain ⟨n, hn⟩ := name_of_spellable (h.spellable a ha) hpos
    have hfree := hnames a ha n hn
    rw [h.dispatch, Mapping.has_eq_false_iff] at hfree
    rw [hname, hn]
    refine ⟨fun name hmem heq => ?_, fun f hf => Value.agrees_str_of_ne (hfree f hf)⟩
    obtain ⟨f, hf, hkey⟩ := exists_captured h.fits hmem
    exact hfree f (List.mem_append_right _ hf) (hkey.trans heq.symm)

/-- None of the keys of the route is missing. -/
theorem Fresh.keys_all (h : t.Fresh p ds) (hfits : List.Forall₂ Fits p.segments ws) :
    t.dispatch.keys.all (ds ++ p.captured ws ++ entries : Mapping).has = true := by
  refine List.all_eq_true.2 fun k hk => ?_
  obtain ⟨e, he, rfl⟩ := List.mem_map.1 hk
  rw [h.dispatch] at he
  rcases List.mem_append.1 he with he | he
  · exact Mapping.has_of_mem (List.mem_append_left _ (List.mem_append_left _ he))
  · obtain ⟨name, hname, rfl⟩ := List.mem_map.1 he
    obtain ⟨f, hf, hkey⟩ := exists_captured hfits hname
    change Mapping.has _ (.str name) = true
    rw [← hkey]
    exact Mapping.has_of_mem (List.mem_append_left _ (List.mem_append_right _ hf))

/-- What is left are the arguments, which are taken one after the other. -/
theorem Matches.takeEntries_args (h : Matches t m p ds ws) (ht : t.Fresh p ds)
    (hdigits : ∀ a ∈ m.args, ∀ name, a.name = .str name → (Value.str name).isPositional = false)
    (hnew : ∀ e ∈ keyed 0 m.args, (∀ name ∈ p.names, e.1 ≠ .str name) ∧
      ∀ f ∈ ds ++ p.captured ws, f.1.agrees e.1 = false) :
    t.takeEntries m.dispatch [] (keyed 0 m.args) = .ok (some (m.dispatch, m.args)) := by
  cases hwild : p.wildcard with
  | false =>
    rw [h.args hwild]
    rfl
  | true =>
    have htakes : t.hasWildcard = true := by rw [hasWildcard, ht.pattern, hwild]
    have hmerge : mergeAll [] m.args = m.args := mergeAll_of_distinct h.distinct
    rw [takeEntries_keyed htakes h.spellable hdigits, hmerge]
    intro e he
    rw [h.dispatch]
    exact ⟨segmentName?_eq_none ht.constrains (hnew e he).1, (hnew e he).2⟩

/-- Matching a path and then the values and arguments found in it gives the same values and
arguments, and the same path. No argument may have digits or the key of a value for its name, and
no default may have the index of a positional argument for its key. -/
theorem matchDispatch_of_matchPath (h : Constructible text defaults options p ds)
    (hkeys : ds.Pairwise fun e f => e.1.agrees f.1 = false)
    (hself : ∀ e ∈ ds, e.2.identical e.2 = true) :
    ∃ t, Route.build (.str text) defaults options = .ok t ∧
      ∀ path m, t.matchPath path = .ok (some m) →
        (∀ a ∈ m.args, ∀ name, a.name = .str name →
          (Value.str name).isPositional = false ∧ m.dispatch.has (.str name) = false) →
        (∀ i < m.positionals.length, ds.has (.int i) = false) →
        ∃ q u, t.matchDispatch (m.dispatch.insertAll (keyed 0 m.args)) = .ok (some q) ∧
          q.dispatch = m.dispatch ∧ q.args = m.args ∧ q.path = .ok u ∧ m.path = .ok u := by
  obtain ⟨t, hbuild, hfresh⟩ := h.build
  refine ⟨t, hbuild, fun path m hm hnames hints => ?_⟩
  obtain ⟨ws, hmatch⟩ := hfresh.matches h hm
  have hdistinct := Pattern.nodup_names h.read
  have hnew := hmatch.fresh_keyed (fun a ha name hname => (hnames a ha name hname).2) hints
  have hpair := pairwise_matched hkeys h.ne hdistinct hmatch.fits
  have hvalues : m.dispatch.insertAll (keyed 0 m.args) =
      ds ++ p.captured ws ++ keyed 0 m.args := by
    rw [hmatch.dispatch]
    exact Mapping.insertAll_of_fresh (fun e he f hf => (hnew f hf).2 e he)
      (pairwise_keyed hmatch.spellable hmatch.distinct)
  have hall : t.dispatch.keys.all (ds ++ p.captured ws ++ keyed 0 m.args : Mapping).has = true :=
    hfresh.keys_all hmatch.fits
  have htaken : t.takeEntries t.dispatch [] (ds ++ p.captured ws ++ keyed 0 m.args) =
      .ok (some (m.dispatch, m.args)) := by
    have hinsert : t.dispatch.insertAll (p.captured ws) = m.dispatch := by
      rw [hfresh.dispatch, hmatch.dispatch]
      exact insertAll_names (keys_captured hmatch.fits.length_eq) hdistinct h.ne
    rw [List.append_assoc, takeEntries_append (hfresh.takeEntries_defaults hkeys hself h.ne),
      takeEntries_append (hfresh.takeEntries_captured hdistinct hmatch.fits), hinsert]
    exact hmatch.takeEntries_args hfresh (fun a ha name hname => (hnames a ha name hname).1) hnew
  have hpattern : t.matcher.pattern = p := hfresh.pattern
  have hargs : ∀ a ∈ m.args, a.isWritable = true := fun a ha => (hmatch.spellable a ha).isWritable
  refine ⟨{ t with dispatch := m.dispatch, args := m.args }, _, ?_, rfl, rfl,
    path_of_captured hpattern hmatch.dispatch hpair hmatch.fits hargs,
    path_of_captured (by rw [hmatch.matcher, hpattern]) hmatch.dispatch hpair hmatch.fits hargs⟩
  rw [matchDispatch, hvalues, hall, htaken]
  rfl

theorem matchDispatch_of_matchPath_user : ∃ t m q u,
    Route.build (.str "/user/\\d+:id/*") (.dict [(.str "controller", .str "users")]) .usual =
      .ok t ∧ t.matchPath "/user/42/x" = .ok (some m) ∧ m.args = [.positional (.str "x")] ∧
      t.matchDispatch (m.dispatch.insertAll (keyed 0 m.args)) = .ok (some q) ∧
        q.dispatch = m.dispatch ∧ q.args = m.args ∧ q.path = .ok u ∧ m.path = .ok u := by
  have hc := constructible_user
  have hself : (Value.str "users").identical (.str "users") = true := by
    rw [Value.identical, beq_self_eq_true, Bool.true_and]
    exact equal_str.2 rfl
  obtain ⟨t, hbuild, h⟩ :=
    matchDispatch_of_matchPath hc (List.pairwise_singleton _ _) (by simpa using hself)
  obtain ⟨t', hbuild', hfresh⟩ := hc.build
  obtain rfl : t' = t := Except.ok.inj (hbuild'.symm.trans hbuild)
  obtain ⟨m, hm, hargs⟩ : ∃ m, t'.matchPath "/user/42/x" = .ok (some m) ∧
      m.args = [.positional (.str "x")] := by
    refine ⟨_, matchPath_of_splits hfresh.splits splits_userPattern, ?_⟩
    have hparse : parse "/x".toList = [.positional (.str "x")] := by cbv
    simpa [withCaptures] using hparse
  obtain ⟨q, u, hq⟩ := h _ m hm (by simp [hargs, positional]) fun _ _ => rfl
  exact ⟨t', m, q, u, hbuild, hm, hargs, hq⟩

end UrlRouting.Route
