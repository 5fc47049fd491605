import UrlRouting.Proofs.Route.Template
import UrlRouting.Proofs.Route.WildcardArg

/-! A route that has all its values matches its own path, with its own values and arguments. -/
namespace UrlRouting.Route

open Segment WildcardArg

variable {r r' t m : Route} {p : Pattern} {ds : Mapping} {text path : String} {defaults : Value}
  {options : Options} {given : List String} {ws : List (List Char)} {tail : Option (List Char)}
  {args : List WildcardArg} {after : List Char}

/-! ### Paths as they are written -/

theorem joinPieces_eq_spelled (h : ws ≠ []) : '/' :: Text.joinPieces '/' ws = spelled ws := by
  induction ws with
  | nil => exact absurd rfl h
  | cons w ws ih =>
    cases ws with
    | nil => simp [Text.joinPieces]
    | cons v ws => rw [Text.joinPieces_cons (by simp), ih (by simp), spelled_cons w]

theorem getLast?_spelled (hlast : ws.getLast? ≠ some []) (hslash : ∀ w ∈ ws, '/' ∉ w) :
    ∀ c, (spelled ws).getLast? = some c → (c == '/') = false := by
  intro c hc
  induction ws with
  | nil => cases hc
  | cons w ws ih =>
    obtain ⟨hw, hslash⟩ := List.forall_mem_cons.1 hslash
    cases ws with
    | nil =>
      have hne : w ≠ [] := fun hnil => hlast (by simp [hnil])
      rw [spelled_cons, spelled_nil, List.append_nil, List.getLast?_cons_of_ne_nil hne] at hc
      have hmem := List.mem_of_getLast? hc
      rw [beq_eq_false_iff_ne]
      rintro rfl
      exact hw hmem
    | cons v ws =>
      rw [List.getLast?_cons_cons] at hlast
      have hv : spelled (v :: ws) ≠ [] := by simp
      rw [spelled_cons w, ← List.cons_append, List.getLast?_append_of_ne_nil _ hv] at hc
      exact ih hlast hslash hc

theorem written_eq (hne : ws ≠ []) (hlast : ws.getLast? ≠ some []) (hslash : ∀ w ∈ ws, '/' ∉ w) :
    written ws args = spelled ws ++ if args.isEmpty then [] else '/' :: joined args := by
  have hfixed : Text.trimEnd (· == '/') ('/' :: Text.joinPieces '/' ws) = spelled ws := by
    rw [joinPieces_eq_spelled hne]
    exact Text.trimEnd_eq_self (getLast?_spelled hlast hslash)
  have hspelled : spelled ws ≠ [] := by
    cases ws with
    | nil => exact absurd rfl hne
    | cons w ws => simp
  simp only [written, hfixed]
  cases args <;> simp [hspelled]

theorem written_nil : written [] args = '/' :: joined args := by
  cases args <;> rfl

theorem eq_exact_of_fits_nil {s : Segment} (hw : s.Written) (h : s.Fits []) : s = .exact [] := by
  cases hn : s.isNamed with
  | true => exact absurd rfl ((fits_iff hn).1 h).1
  | false =>
    cases hw with
    | @exact text htext =>
      have : [] = text := by simpa [Fits, Segment.exact] using h
      rw [this]
    | placeholder => cases hn
    | constrained => cases hn

theorem not_mem_of_fits_all {segments : List Segment} (hw : ∀ s ∈ segments, s.Written)
    (hfits : List.Forall₂ Fits segments ws) : ∀ w ∈ ws, '/' ∉ w := by
  induction hfits with
  | nil => simp
  | cons hfit _ ih =>
    obtain ⟨hs, hw⟩ := List.forall_mem_cons.1 hw
    exact List.forall_mem_cons.2 ⟨not_mem_of_fits hs hfit, ih hw⟩

/-- The arguments that a tail stands for, which are none without a tail. -/
def argsOf : Option (List Char) → List WildcardArg
  | some tail => parse tail
  | none => []

/-- What is left of a written path after the texts for the segments. -/
inductive Remains (args : List WildcardArg) (after : List Char) : Option (List Char) → Prop
  | fixed (hnone : args = []) : Remains args after none
  | tail (slashes : List Char) (h : ∀ c ∈ slashes, c = '/') :
      Remains args after (some (slashes ++ joined args ++ after))

/-- A written path can be split again, also with a slash after it, whatever its arguments are. They
have to stand on one line. -/
theorem splits_written (hread : Pattern.read text = .ok p)
    (hlast : p.wildcard → p.segments.getLast? ≠ some (.exact []))
    (hfits : List.Forall₂ Fits p.segments ws) (hjoined : '\n' ∉ joined args)
    (hargs : p.wildcard = false → args = []) (hafter : after = [] ∨ after = ['/']) :
    ∃ tail, p.Splits (written ws args ++ after) ws tail ∧ Remains args after tail := by
  have hw := Pattern.written_of_read hread
  have hend : p.segments.getLast? ≠ some (.exact []) → ws.getLast? ≠ some [] := by
    intro hlast hnil
    obtain ⟨s, hs, hfit⟩ := getLast?_forall₂ hfits hnil
    rw [eq_exact_of_fits_nil (hw s (List.mem_of_getLast? hs)) hfit] at hs
    exact hlast hs
  have hspelled : p.segments ≠ [] → p.segments.getLast? ≠ some (.exact []) →
      written ws args = spelled ws ++ if args.isEmpty then [] else '/' :: joined args := by
    intro hne hlast
    have hws : ws ≠ [] := by
      rintro rfl
      exact hne (List.forall₂_nil_right_iff.1 hfits)
    exact written_eq hws (hend hlast) (not_mem_of_fits_all hw hfits)
  cases hwild : p.wildcard with
  | false =>
    obtain rfl := hargs hwild
    have hne : p.segments ≠ [] := by
      intro hnil
      have := Pattern.wildcard_of_nil hread hnil
      simp [hwild] at this
    have hwritten : written ws [] = spelled ws := by
      rcases Pattern.getLast?_of_read hread hwild with hbare | hlast
      · rw [hbare] at hfits
        obtain ⟨w, rest, hw, hrest, rfl⟩ := List.forall₂_cons_left_iff.1 hfits
        rw [List.forall₂_nil_left_iff.1 hrest]
        obtain rfl : w = [] := hw
        rfl
      · simpa using hspelled hne hlast
    refine ⟨none, .fixed hwild hfits ?_, .fixed rfl⟩
    rw [hwritten]
    rcases hafter with rfl | rfl
    · exact .inl (List.append_nil _)
    · exact .inr rfl
  | true =>
    have hline : '\n' ∉ joined args ++ after := by
      rw [List.mem_append, not_or]
      refine ⟨hjoined, ?_⟩
      rcases hafter with rfl | rfl <;> simp
    by_cases hnil : p.segments = []
    · rw [hnil] at hfits
      rw [List.forall₂_nil_left_iff.1 hfits, written_nil]
      exact ⟨some (joined args ++ after), .bare hwild hnil hline rfl, .tail [] (by simp)⟩
    · rw [hspelled hnil (hlast hwild), List.append_assoc]
      cases args with
      | nil =>
        refine ⟨some after, .tail hwild hnil hfits ?_ hline rfl, .tail [] (by simp)⟩
        rcases hafter with rfl | rfl
        · exact .inl rfl
        · exact .inr rfl
      | cons a args =>
        have hline : '\n' ∉ '/' :: (joined (a :: args) ++ after) := by simpa using hline
        exact ⟨some ('/' :: (joined (a :: args) ++ after)),
          .tail hwild hnil hfits (.inr rfl) hline rfl, .tail ['/'] (by simp)⟩

/-- Arguments that can be written are read again from what is left. -/
theorem argsOf_remains (h : Remains args after tail) (hs : ∀ a ∈ args, a.Spellable)
    (hd : Distinct args) (hafter : ∀ c ∈ after, c = '/') : argsOf tail = args := by
  cases h with
  | fixed hnone => exact hnone.symm
  | tail slashes hslashes =>
    exact parse_joined slashes hslashes hafter (fun a ha => (spellable_iff.1 (hs a ha)).1) hd

/-! ### Populating a template -/

/-- Routes that come from a template by setting the values of its names to texts and by adding
arguments that can be written. -/
inductive Populated (t : Route) : (given : List String) → Route → Prop
  | template : Populated t [] t
  | value {given : List String} {r r' : Route} {name value : String} (h : Populated t given r)
      (hname : name ∈ t.matcher.pattern.names)
      (hset : r.withValue (.str name) (.str value) = .ok r') : Populated t (name :: given) r'
  | arg {given : List String} {r r' : Route} {a : WildcardArg} (h : Populated t given r)
      (ha : a.Spellable) (hadd : r.withWildcardArg a.value a.name = .ok r') : Populated t given r'

/-- What holds of a populated route. -/
structure Populates (r : Route) (p : Pattern) (ds : Mapping) (given : List String) : Prop where
  pattern : r.matcher.pattern = p
  splits : r.matcher.Splits p
  constrains : r.matcher.Constrains p
  named : ∀ name ∈ p.names, r.dispatch.has (.str name)
  /-- The defaults are untouched. -/
  defaults : ds <+: r.dispatch
  spellable : ∀ a ∈ r.args, a.Spellable
  distinct : Distinct r.args
  args : p.wildcard = false → r.args = []
  values : ∀ s ∈ p.segments, s.isNamed → s.data ∈ given →
    ∃ v : String, r.dispatch.get? (.str s.data) = some (.str v) ∧ s.Fits v.toList

theorem Fresh.populates (h : t.Fresh p ds) : t.Populates p ds [] where
  pattern := h.pattern
  splits := h.splits
  constrains := h.constrains
  named := by
    intro name hname
    rw [h.dispatch, Mapping.has, List.any_append, Bool.or_eq_true]
    refine .inr (List.any_eq_true.2 ⟨(.str name, .none), List.mem_map.2 ⟨name, hname, rfl⟩, ?_⟩)
    exact Value.agrees_self _
  defaults := ⟨_, h.dispatch.symm⟩
  spellable := by simp [h.args]
  distinct := by
    rw [h.args]
    exact .nil
  args := fun _ => h.args
  values := by simp

theorem Populates.withValue {name value : String} (h : r.Populates p ds given)
    (hdistinct : p.names.Nodup) (hne : ∀ e ∈ ds, ∀ name ∈ p.names, e.1 ≠ .str name)
    (hname : name ∈ p.names) (hset : r.withValue (.str name) (.str value) = .ok r') :
    r'.Populates p ds (name :: given) := by
  obtain ⟨hcheck, rfl⟩ := (withValue_eq_ok (h.named name hname)).1 hset
  have haccepts : r.matcher.accepts name value = true :=
    (checkValue_eq_ok.1 hcheck ((hasSegment_iff h.constrains).2 hname)).2
  refine ⟨h.pattern, h.splits, h.constrains, ?_, ?_, h.spellable, h.distinct, h.args, ?_⟩
  · intro other hother
    by_cases heq : other = name
    · rw [heq, Mapping.has_eq_isSome_get?, Mapping.get?_insert_self]
      rfl
    · rw [Mapping.has_insert_of_ne heq]
      exact h.named other hother
  · obtain ⟨rest, hrest⟩ := h.defaults
    refine ⟨Mapping.insert rest (.str name) (.str value), ?_⟩
    rw [← hrest, Mapping.insert_append fun e he => Value.agrees_str_of_ne (hne e he name hname)]
  · intro s hs hn hgiven
    by_cases heq : s.data = name
    · subst heq
      exact ⟨value, Mapping.get?_insert_self, (accepts_iff h.constrains hdistinct hs hn).1 haccepts⟩
    · rw [Mapping.get?_insert_of_ne heq]
      exact h.values s hs hn ((List.mem_cons.1 hgiven).resolve_left heq)

theorem Populates.withWildcardArg {a : WildcardArg} (h : r.Populates p ds given) (ha : a.Spellable)
    (hadd : r.withWildcardArg a.value a.name = .ok r') : r'.Populates p ds given := by
  obtain ⟨hwild, rfl⟩ := withWildcardArg_eq_ok.1 hadd
  obtain ⟨hs, hd⟩ := merge_invariant ha h.spellable h.distinct
  refine ⟨h.pattern, h.splits, h.constrains, h.named, h.defaults, hs, hd, ?_, h.values⟩
  intro hfixed
  simp [hasWildcard, h.pattern, hfixed] at hwild

/-- A text that fits its segment can be set. -/
theorem Populates.withValue_eq_ok {s : Segment} {value : String} (h : r.Populates p ds given)
    (hdistinct : p.names.Nodup) (hs : s ∈ p.segments) (hn : s.isNamed)
    (hfit : s.Fits value.toList) :
    r.withValue (.str s.data) (.str value) =
      .ok { r with dispatch := r.dispatch.insert (.str s.data) (.str value) } := by
  have hname : s.data ∈ p.names := List.mem_map.2 ⟨s, List.mem_filter.2 ⟨hs, hn⟩, rfl⟩
  have haccepts := (accepts_iff h.constrains hdistinct hs hn).2 hfit
  exact (Route.withValue_eq_ok (h.named _ hname)).2
    ⟨checkValue_eq_ok.2 fun _ => ⟨rfl, haccepts⟩, rfl⟩

theorem Populates.withWildcardArg_of_wildcard (h : r.Populates p ds given) (hwild : p.wildcard)
    (a : WildcardArg) :
    r.withWildcardArg a.value a.name = .ok { r with args := merge r.args a } :=
  withWildcardArg_eq_ok.2 ⟨by simp [hasWildcard, h.pattern, hwild], rfl⟩

/-- Populating a template keeps to it. -/
theorem Fresh.populated (h : t.Fresh p ds) (hdistinct : p.names.Nodup)
    (hne : ∀ e ∈ ds, ∀ name ∈ p.names, e.1 ≠ .str name) (hr : Populated t given r) :
    r.Populates p ds given := by
  induction hr with
  | template => exact h.populates
  | value _ hname hset ih =>
    rw [h.pattern] at hname
    exact ih.withValue hdistinct hne hname hset
  | arg _ ha hadd ih => exact ih.withWildcardArg ha hadd

/-! ### The round trip -/

/-- The values that a path captures are those that a route has. -/
theorem insertAll_captured {d : Mapping} (h : List.Forall₂ (fun s w => s.isNamed →
      d.get? (.str s.data) = some (.str (String.ofList w))) p.segments ws) :
    d.insertAll (p.captured ws) = d := by
  refine Mapping.insertAll_of_get? fun e he => ?_
  obtain ⟨⟨s, w⟩, hmem, rfl⟩ := List.mem_map.1 he
  obtain ⟨hmem, hn⟩ := List.mem_filter.1 hmem
  exact ⟨s.data, rfl, List.forall₂_zip h hmem hn⟩

/-- With all values set there is a text for each segment. -/
theorem Populates.texts (h : r.Populates p ds given) (hall : ∀ name ∈ p.names, name ∈ given) :
    ∃ ws, List.Forall₂ (fun s w => r.segmentPart s = .ok w ∧ s.Fits w ∧ (s.isNamed →
      r.dispatch.get? (.str s.data) = some (.str (String.ofList w)))) p.segments ws := by
  refine exists_forall₂ fun s hs => ?_
  cases hn : s.isNamed with
  | false =>
    exact ⟨s.data.toList, segmentPart_fixed hn, (fits_exact hn).2 rfl, by simp⟩
  | true =>
    have hname : s.data ∈ p.names := List.mem_map.2 ⟨s, List.mem_filter.2 ⟨hs, hn⟩, rfl⟩
    obtain ⟨v, hv, hfit⟩ := h.values s hs hn (hall _ hname)
    exact ⟨v.toList, segmentPart_named hn hv rfl rfl, hfit, fun _ => by simpa using hv⟩

theorem getLast?_userPattern : userPattern.segments.getLast? ≠ some (.exact []) := by
  have hid : userPattern.segments.getLast? = some ⟨.constrained, "id", "\\d+"⟩ := rfl
  rw [hid]
  exact fun h => absurd (congrArg Segment.kind (Option.some.inj h)) (by decide)

/-- A route from a plain pattern, with all its values set and with any arguments, can be written
as a path. It matches that path, and the path with another slash, with the same values and
arguments. -/
theorem matchPath_path (h : Constructible text defaults options p ds)
    (hlast : p.wildcard → p.segments.getLast? ≠ some (.exact [])) :
    ∃ t, Route.build (.str text) defaults options = .ok t ∧
      ∀ given r, Populated t given r → (∀ name ∈ p.names, name ∈ given) →
        ∃ path, r.path = .ok path ∧ ∀ slash ∈ ["", "/"], ∃ m,
          r.matchPath (path ++ slash) = .ok (some m) ∧
            m.dispatch = r.dispatch ∧ ds <+: m.dispatch ∧ m.args = r.args := by
  obtain ⟨t, hbuild, hfresh⟩ := h.build
  refine ⟨t, hbuild, fun given r hr hall => ?_⟩
  have hp := hfresh.populated (Pattern.nodup_names h.read) h.ne hr
  obtain ⟨ws, hws⟩ := hp.texts hall
  have hparts := hws.imp fun _ _ hw => hw.1
  have hfits := hws.imp fun _ _ hw => hw.2.1
  refine ⟨_, path_eq_written hp.pattern hparts fun a ha => (hp.spellable a ha).isWritable,
    fun slash hslash => ?_⟩
  have hafter : slash.toList = [] ∨ slash.toList = ['/'] := by
    rcases List.mem_cons.1 hslash with rfl | hslash
    · exact .inl rfl
    · rw [List.mem_singleton.1 hslash]
      exact .inr rfl
  obtain ⟨tail, hsplits, hremains⟩ :=
    splits_written h.read hlast hfits (not_mem_joined hp.spellable) hp.args hafter
  have htail := argsOf_remains hremains hp.spellable hp.distinct
    (by rcases hafter with h | h <;> simp [h])
  have hsame := insertAll_captured (hws.imp fun _ _ hw => hw.2.2)
  refine ⟨_, matchPath_of_splits hp.splits (by simpa using hsplits), hsame, ?_, ?_⟩
  · change ds <+: r.dispatch.insertAll (p.captured ws)
    rw [hsame]
    exact hp.defaults
  · cases tail with
    | some tail => simpa [withCaptures, argsOf] using htail
    | none => rfl

theorem matchPath_path_user : ∃ t r, Route.build (.str "/user/\\d+:id/*")
      (.dict [(.str "controller", .str "users")]) .usual = .ok t ∧ Populated t ["id"] r ∧
    r.dispatch.get? (.str "id") = some (.str "42") ∧ r.args = [.positional (.str "x")] ∧
    ∃ path, r.path = .ok path ∧ ∀ slash ∈ ["", "/"], ∃ m,
      r.matchPath (path ++ slash) = .ok (some m) ∧ m.dispatch = r.dispatch ∧
        [(.str "controller", .str "users")] <+: m.dispatch ∧ m.args = r.args := by
  have hc := constructible_user
  obtain ⟨t, hbuild, h⟩ := matchPath_path hc fun _ => getLast?_userPattern
  obtain ⟨t', hbuild', hfresh⟩ := hc.build
  obtain rfl : t' = t := Except.ok.inj (hbuild'.symm.trans hbuild)
  have hdistinct := Pattern.nodup_names read_userPattern
  have hp := hfresh.populated hdistinct hc.ne .template
  have hid : ⟨.constrained, "id", "\\d+"⟩ ∈ userPattern.segments := by simp [userPattern]
  have hfits : Fits ⟨.constrained, "id", "\\d+"⟩ "42".toList :=
    ⟨by decide, List.all_eq_true.1 (by decide)⟩
  have hvalue := hp.withValue_eq_ok hdistinct hid rfl hfits
  have hpop := Populated.value .template (by simp [hfresh.pattern, names_userPattern]) hvalue
  have hp' := hfresh.populated hdistinct hc.ne hpop
  have harg := hp'.withWildcardArg_of_wildcard rfl (.positional (.str "x"))
  have hx : OnePiece "x" := ⟨by decide, by decide⟩
  have hpop' := Populated.arg hpop (.positional (by decide) hx (by decide)) harg
  refine ⟨t', _, hbuild, hpop', Mapping.get?_insert_self, ?_, h _ _ hpop' ?_⟩
  · rw [hfresh.args]
    rfl
  · simp [names_userPattern]

end UrlRouting.Route
