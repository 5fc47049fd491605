import UrlRouting.CommandLine.Run
import UrlRouting.Proofs.CommandLine.Pair
import UrlRouting.Proofs.Pattern.Grammar
import UrlRouting.Proofs.Route.Filling
import UrlRouting.Proofs.Router.Reverse

/-! Reversing on the command line what has been matched there. -/
namespace UrlRouting.CommandLine

open Route Segment

variable {p : Pattern} {s : Segment} {w : List Char} {ws : List (List Char)}
  {text name path : String} {t : Router} {e : Entry} {r r' m : Route} {moves : List Move}
  {pattern defaults : Value} {options : Options} {application : String} {other : Option String}
  {verbose : Bool}

/-- The pairs for the values of a route, in the order in which they are listed. -/
def pairsOf (r : Route) : List String :=
  r.dispatch.map pairOf

/-- The route with its values as they are read again. -/
def rereadRoute (r : Route) : Route :=
  { r with dispatch := r.dispatch.map fun e => (e.1, reread e.2) }

/-- A name is the key of a pair, since it consists of word characters. -/
theorem isKeyText_of_name (hread : Pattern.read text = .ok p) (hname : name ∈ p.names)
    (hletter : ∃ c ∈ name.toList, Text.isDigit c.toNat = false) : IsKeyText name := by
  obtain ⟨hne, hword⟩ := Pattern.isWord_of_mem_names hread hname
  have hfree : ∀ {c : Char}, Text.isWord c.toNat = false → c ∉ name.toList := by
    intro c hc hmem
    rw [hword c hmem] at hc
    cases hc
  obtain ⟨c, hc, hdigit⟩ := hletter
  exact ⟨hne, hfree (by decide), looksNumeric_eq_false (hfree (by decide)) hc hdigit⟩

theorem fits_reread (hkind : s.kind = .placeholder) (hfits : s.Fits w)
    (hread : ∃ v, parseValue w = .ok v) :
    s.Fits (reread (.str (String.ofList w))).text.toList := by
  rw [← String.toList_ofList (l := w)] at hread
  rcases reread_cases hread with ⟨_, hv⟩ | ⟨_, n, _, hv⟩
  · rw [hv]
    simpa [Value.text] using hfits
  · have htext : (reread (.str (String.ofList w))).text = toString n := by rw [hv]; rfl
    have hslash : '/' ∉ (toString n).toList := by
      intro hmem
      rcases Text.mem_toString hmem with h | h <;> revert h <;> decide
    simp only [Fits, hkind, htext]
    exact ⟨Text.toString_ne_nil, hslash⟩

theorem exists_str_of_captured {f : Value × Value} (hf : f ∈ p.captured ws) :
    ∃ w, f.2 = .str (String.ofList w) := by
  obtain ⟨x, _, rfl⟩ := List.mem_map.1 hf
  exact ⟨x.2, rfl⟩

/-- The pairs for captured values are read as these values. -/
theorem parsePairs_captured (hread : Pattern.read text = .ok p)
    (hlength : p.segments.length = ws.length)
    (hletters : ∀ name ∈ p.names, ∃ c ∈ name.toList, Text.isDigit c.toNat = false)
    (hvalues : ∀ f ∈ p.captured ws, ∃ v, parseValue f.2.text.toList = .ok v) :
    parsePairs (((p.captured ws).map pairOf).map String.toList) =
      .ok (.values ((p.captured ws).map fun f => (f.1, reread f.2))) := by
  refine parsePairs_pairs (pairwise_captured (Pattern.nodup_names hread) hlength)
    (fun f hf => ?_) hvalues
  obtain ⟨name, hname, hkey⟩ := Mapping.exists_name_of_mem (keys_captured hlength) hf
  exact ⟨name, hkey, isKeyText_of_name hread hname (hletters name hname)⟩

/-- Numbers fill placeholders as well as any text. -/
theorem fills_reread (hkinds : ∀ s ∈ p.segments, s.kind ≠ .constrained)
    (h : Fills p (p.captured ws) ws)
    (hread : ∀ f ∈ p.captured ws, ∃ v, parseValue f.2.text.toList = .ok v) :
    ∃ ws', Fills p ((p.captured ws).map fun f => (f.1, reread f.2)) ws' := by
  refine exists_forall₂ fun s hs => ?_
  obtain ⟨w, _, hfits, hvalue⟩ := exists_of_forall₂ h hs
  cases hn : s.isNamed with
  | false => exact ⟨w, hfits, by simp⟩
  | true =>
    obtain ⟨v, hget, _, _, rfl⟩ := hvalue hn
    have hmem := Mapping.mem_of_get?_str hget
    obtain ⟨w, rfl⟩ := exists_str_of_captured hmem
    have hparsed := hread _ hmem
    simp only [Value.text] at hfits hparsed
    have hkind : s.kind = .placeholder := (kind_of_named hn).resolve_right (hkinds s hs)
    have hget' := (Mapping.get?_map (f := reread) ..).trans (congrArg (Option.map reread) hget)
    refine ⟨_, ?_, fun _ => ⟨_, hget', isNothing_reread hparsed, isWritable_reread hparsed, rfl⟩⟩
    rw [String.toList_ofList] at hfits hparsed
    exact fits_reread hkind hfits hparsed

/-- The texts for the segments stay as they are if all values are written as before. -/
theorem fills_reread_iff (hnames : p.names.Nodup) (h : Fills p (p.captured ws) ws)
    (hread : ∀ f ∈ p.captured ws, ∃ v, parseValue f.2.text.toList = .ok v) :
    Fills p ((p.captured ws).map fun f => (f.1, reread f.2)) ws ↔
      ∀ f ∈ p.captured ws, (reread f.2).text = f.2.text := by
  have hlength := h.fits.length_eq
  constructor
  · intro h' f hf
    obtain ⟨⟨s, w⟩, hzip, rfl⟩ := List.mem_map.1 hf
    obtain ⟨hzip, hn⟩ := List.mem_filter.1 hzip
    obtain ⟨v, hget, _, _, hw⟩ := ((List.forall₂_iff_zip.1 h').2 hzip).2 hn
    rw [Mapping.get?_map, Mapping.get?_of_mem (pairwise_captured hnames hlength) hf] at hget
    obtain rfl := Option.some.inj hget
    rw [← String.toList_inj, ← hw]
    simp [Value.text]
  · intro hsame
    refine h.imp ?_
    rintro s w ⟨hfits, hvalue⟩
    refine ⟨hfits, fun hn => ?_⟩
    obtain ⟨v, hget, _, _, rfl⟩ := hvalue hn
    have hmem := Mapping.mem_of_get?_str hget
    obtain ⟨w, rfl⟩ := exists_str_of_captured hmem
    have hparsed := hread _ hmem
    simp only [Value.text] at hparsed
    exact ⟨_, by rw [Mapping.get?_map, hget]; rfl, isNothing_reread hparsed,
      isWritable_reread hparsed, by rw [hsame _ hmem]⟩

/-- Pairs that are read as values for the only entry of a table are answered with its path. -/
theorem serve_pairs {values : Mapping} {pairs : List String} (hentries : t.entries = [e])
    (hne : pairs ≠ []) (hpairs : parsePairs (pairs.map String.toList) = .ok (.values values))
    (hm : e.route.matchDispatch values = .ok (some m)) (hpath : m.path = .ok path) :
    serve t ⟨application, other, none, pairs, verbose⟩ = .ofLines 0 [path] := by
  have hreverses : t.Reverses none values e m := ⟨rfl, hm, [], [], hentries, nofun⟩
  have hmethods : MethodSet.ofValue (methodsValue none) = .ok none := rfl
  have hfound : t.reverseRoute values (methodsValue none) = .ok (some path) := by
    rw [Router.reverseRoute_eq hmethods, Router.reverses_iff.1 hreverses, Expression.ok_bind]
    exact Expression.map_eq_ok.2 ⟨path, hpath, rfl⟩
  rw [serve, if_pos (by simpa using hne), reverse, hpairs]
  simp only [hfound]

/-- The only route of a table has neither defaults nor a constraint nor a wildcard, and matches a
path. The pairs for what has been captured lead back to a path. It is that of the matched route,
where each value that looks like a whole number is written in the usual spelling of that number, so
that it is the path of the matched route itself if no value has to be spelled in another way. -/
theorem serve_pairsOf (hbuild : Route.build pattern defaults options = .ok r)
    (hdefaults : Route.defaultsOf defaults = .ok []) (hcase : options.caseSensitive.truthy = true)
    (hr : Reached r moves r') (hroute : e.route = .route r') (hentries : t.entries = [e])
    (hkinds : ∀ s ∈ r'.matcher.pattern.segments, s.kind ≠ .constrained)
    (hfixed : r'.hasWildcard = false) (hsome : r'.matcher.pattern.names ≠ [])
    (hletters : ∀ name ∈ r'.matcher.pattern.names,
      ∃ c ∈ name.toList, Text.isDigit c.toNat = false)
    (hm : r'.matchPath path = .ok (some m))
    (hread : ∀ f ∈ m.dispatch, ∃ v, parseValue f.2.text.toList = .ok v) :
    ∃ url line, m.path = .ok url ∧ (rereadRoute m).path = .ok line ∧
      serve t ⟨application, other, none, pairsOf m, verbose⟩ = .ofLines 0 [line] ∧
      (line = url ↔ ∀ f ∈ m.dispatch,
        looksNumeric f.2.text.toList = true → ∃ n : Int, f.2.text = toString n) := by
  obtain ⟨p, ds, _, hds, hb⟩ := built_of_build hbuild
  rw [hdefaults] at hds
  cases hds
  have hnames := Pattern.nodup_names hb.read
  have hpattern := hb.pattern_of_reached hr
  rw [hasWildcard, hpattern] at hfixed
  rw [hpattern] at hkinds hsome hletters
  have hplain : p.IsPlain := fun s hs hkind => absurd hkind (hkinds s hs)
  have hfresh := hb.fresh hplain hcase
  obtain ⟨ws, hfits, hpattern', hdispatch, hargs⟩ := hb.matchPath_fixed hr hfresh hfixed hm
  rw [hdispatch] at hread
  have hkeys := keys_captured hfits.length_eq
  have hfills := fills_captured hnames hfits
  obtain ⟨ws', hfills'⟩ := fills_reread hkinds hfills hread
  have hurl : m.path = .ok (String.ofList (written ws [])) :=
    path_of_fills hpattern' hargs (by rwa [hdispatch])
  have hreread : ∀ {ws}, Fills p ((p.captured _).map fun f => (f.1, reread f.2)) ws →
      (rereadRoute m).path = .ok (String.ofList (written ws [])) :=
    fun h => path_of_fills hpattern' hargs (by rwa [rereadRoute, hdispatch])
  have hne : pairsOf m ≠ [] := by
    intro hnil
    rw [pairsOf, hdispatch, List.map_eq_nil_iff] at hnil
    rw [hnil] at hkeys
    exact hsome (List.map_eq_nil_iff.1 hkeys.symm)
  have hpairs := parsePairs_captured hb.read hfits.length_eq hletters hread
  rw [← hdispatch] at hpairs
  obtain ⟨q, hq, hqpath⟩ :=
    hb.matchDispatch_fixed hr hfresh hfixed (keys_map_reread.trans hkeys) hfills'
  have hq' : e.route.matchDispatch (m.dispatch.map fun f => (f.1, reread f.2)) = .ok (some q) := by
    rw [hroute, hdispatch]
    exact hq
  refine ⟨_, _, hurl, hreread hfills', serve_pairs hentries hne hpairs hq' hqpath, ?_⟩
  have hsame : String.ofList (written ws' []) = String.ofList (written ws []) ↔
      Fills p ((p.captured ws).map fun f => (f.1, reread f.2)) ws := by
    constructor
    · intro h
      rw [String.ofList_inj] at h
      rwa [← written_inj hb.read hfixed hfills'.fits hfits h] at hfills'
    · exact fun h => Except.ok.inj ((hreread hfills').symm.trans (hreread h))
  rw [hsame, fills_reread_iff hnames hfills hread, hdispatch]
  refine forall₂_congr fun f hf => ?_
  obtain ⟨w, hw⟩ := exists_str_of_captured hf
  have hparsed := hread f hf
  rw [hw] at hparsed ⊢
  exact text_reread_eq_iff hparsed

/-- A number in its usual spelling, and a text that looks like a pair itself. -/
theorem serve_pairsOf_usual : ∃ r m url, Route.build (.str "/n/:x/:y") .none .usual = .ok r ∧
    r.matchPath "/n/-42/a=07" = .ok (some m) ∧ pairsOf m = ["x=-42", "y=a=07"] ∧ m.path = .ok url ∧
    serve (Router.bare.run [.addBuilt (.route r) .none .none]).1
      ⟨"app.router", none, none, pairsOf m, false⟩ = .ofLines 0 [url] := by
  have h : (Route.build (.str "/n/:x/:y") .none .usual).toOption.any (fun r =>
      r.matcher.pattern == ⟨[.exact ['n'], .placeholder ['x'], .placeholder ['y']], false⟩ &&
        (r.matchPath "/n/-42/a=07").toOption.any fun m => m.any fun m =>
          pairsOf m == ["x=-42", "y=a=07"] && m.dispatch.all fun f =>
            (parseValue f.2.text.toList).toOption.isSome &&
              (f.2.text == toString (-42 : Int) || !looksNumeric f.2.text.toList)) = true := by
    decide +kernel
  obtain ⟨r, hr, h⟩ := Expression.exists_ok_of_any h
  obtain ⟨hpattern, h⟩ := Bool.and_eq_true_iff.1 h
  obtain ⟨m, hm, h⟩ := Expression.exists_some_of_any h
  rw [Bool.and_eq_true, beq_iff_eq, List.all_eq_true] at h
  obtain ⟨hpairs, hvalues⟩ := h
  have hpattern := beq_iff_eq.1 hpattern
  have hread : ∀ f ∈ m.dispatch, ∃ v, parseValue f.2.text.toList = .ok v := by
    intro f hf
    obtain ⟨v, hv⟩ := Option.isSome_iff_exists.1 (Bool.and_eq_true_iff.1 (hvalues f hf)).1
    exact ⟨v, Expression.toOption_eq_some.1 hv⟩
  have husual : ∀ f ∈ m.dispatch,
      looksNumeric f.2.text.toList = true → ∃ n : Int, f.2.text = toString n := by
    intro f hf hlooks
    have hsame := (Bool.and_eq_true_iff.1 (hvalues f hf)).2
    rw [hlooks, Bool.not_true, Bool.or_false, beq_iff_eq] at hsame
    exact ⟨-42, hsame⟩
  have hnames : r.matcher.pattern.names = ["x", "y"] := by rw [hpattern]; rfl
  have hletters : ∀ name ∈ r.matcher.pattern.names,
      ∃ c ∈ name.toList, Text.isDigit c.toNat = false := by
    rw [hnames]
    intro name hname
    rcases List.mem_pair.1 hname with rfl | rfl
    · exact ⟨'x', by simp, by decide⟩
    · exact ⟨'y', by simp, by decide⟩
  obtain ⟨url, line, hurl, _, hserve, hiff⟩ := serve_pairsOf hr rfl rfl .start
    (t := (Router.bare.run [.addBuilt (.route r) .none .none]).1)
    (e := ⟨.route r, MethodSet.usual, none⟩) rfl rfl (by rw [hpattern]; decide)
    (by rw [Route.hasWildcard, hpattern]) (by simp [hnames]) hletters hm hread
  rw [hiff.2 husual] at hserve
  exact ⟨r, m, url, hr, hm, hpairs, hurl, hserve⟩

/-- Zeros in front of a number are lost. -/
theorem serve_pairsOf_zeros : ∃ r m, Route.build (.str "/:x") .none .usual = .ok r ∧
    r.matcher.pattern = ⟨[.placeholder ['x']], false⟩ ∧ r.matchPath "/007" = .ok (some m) ∧
    pairsOf m = ["x=007"] ∧ m.path = .ok "/007" ∧
    serve (Router.bare.run [.addBuilt (.route r) .none .none]).1
      ⟨"app.router", none, none, pairsOf m, false⟩ ≠ .ofLines 0 ["/007"] ∧
    (serve (Router.bare.run [.addBuilt (.route r) .none .none]).1
      ⟨"app.router", none, none, pairsOf m, false⟩).output = "/7\n" := by
  have h : (Route.build (.str "/:x") .none .usual).toOption.any (fun r =>
      r.matcher.pattern == ⟨[.placeholder ['x']], false⟩ &&
        (r.matchPath "/007").toOption.any fun m => m.any fun m =>
          pairsOf m == ["x=007"] && m.path.toOption == some "/007" &&
            (serve (Router.bare.run [.addBuilt (.route r) .none .none]).1
              ⟨"app.router", none, none, pairsOf m, false⟩).output == "/7\n") = true := by
    decide +kernel
  obtain ⟨r, hr, h⟩ := Expression.exists_ok_of_any h
  obtain ⟨hpattern, h⟩ := Bool.and_eq_true_iff.1 h
  obtain ⟨m, hm, h⟩ := Expression.exists_some_of_any h
  rw [Bool.and_eq_true, Bool.and_eq_true, beq_iff_eq, beq_iff_eq, beq_iff_eq,
    Expression.toOption_eq_some] at h
  obtain ⟨⟨hpairs, hpath⟩, houtput⟩ := h
  refine ⟨r, m, hr, beq_iff_eq.1 hpattern, hm, hpairs, hpath, fun hserve => ?_, houtput⟩
  rw [hserve] at houtput
  revert houtput
  decide

end UrlRouting.CommandLine
