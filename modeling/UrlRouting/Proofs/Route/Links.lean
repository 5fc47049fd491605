import UrlRouting.Proofs.Route.Admission
import UrlRouting.Proofs.Route.RoundTrip

/-! Paths of routes that have been matched with values. Such a path is matched again, with the texts
of the values that were given to the segments. -/
namespace UrlRouting.Route

open Expression Segment WildcardArg

variable {r t m : Route} {p : Pattern} {ds values : Mapping}
  {pattern defaults caseSensitive : Value} {options : Options} {moves : List Move}
  {name : String} {ws : List (List Char)}

/-- Each name of the pattern has been given a value that its segment accepts as it is written. -/
theorem Built.get?_of_matchDispatch (hb : t.Built p ds caseSensitive) (hr : Reached t moves r)
    (hdistinct : values.Distinct) (hmatch : r.matchDispatch values = .ok (some m))
    (hname : name ∈ p.names) :
    ∃ v, values.get? (.str name) = some v ∧ m.dispatch.get? (.str name) = some v ∧
      v.isNothing = false ∧ v.isWritable = true ∧ t.matcher.accepts name v.text = true := by
  have hkeeps := hb.keeps hr
  obtain ⟨hall, d, args, htaken, rfl⟩ := matchDispatch_eq_some hmatch
  have hkey : .str name ∈ r.dispatch.keys :=
    Mapping.has_str_iff.1 (hkeeps.dispatch.has_eq ▸ hb.has_of_mem hname)
  have hgiven : values.has (.str name) = true := List.all_eq_true.1 hall _ hkey
  obtain ⟨⟨_, v⟩, hv, rfl⟩ := List.mem_map.1 (Mapping.has_str_iff.1 hgiven)
  have hsegment : r.matcher.hasSegment name = true := by
    rw [hkeeps.matcher]
    exact hb.hasSegment_iff.2 hname
  obtain ⟨hget, hsome, hwritable, haccepts⟩ := get?_of_takeEntries htaken hdistinct hv hsegment
  exact ⟨v, Mapping.get?_of_mem hdistinct hv, hget, hsome, hwritable, hkeeps.matcher ▸ haccepts⟩

/-- There is a text for each segment, which is that of the given value if the segment is named. -/
theorem Built.texts_of_matchDispatch (hb : t.Built p ds caseSensitive) (hfresh : t.Fresh p ds)
    (hr : Reached t moves r) (hdistinct : values.Distinct)
    (hmatch : r.matchDispatch values = .ok (some m)) :
    ∃ ws, List.Forall₂ (fun s w => m.segmentPart s = .ok w ∧ s.Fits w ∧ (s.isNamed →
      ∃ v, values.get? (.str s.data) = some v ∧ w = v.text.toList)) p.segments ws := by
  refine exists_forall₂ fun s hs => ?_
  cases hn : s.isNamed with
  | false =>
    exact ⟨s.data.toList, segmentPart_fixed hn, (fits_exact hn).2 rfl, by simp⟩
  | true =>
    have hname : s.data ∈ p.names := List.mem_map.2 ⟨s, List.mem_filter.2 ⟨hs, hn⟩, rfl⟩
    obtain ⟨v, hgiven, hget, hsome, hwritable, haccepts⟩ :=
      hb.get?_of_matchDispatch hr hdistinct hmatch hname
    have hfits : s.Fits v.text.toList :=
      (accepts_iff hfresh.constrains (Pattern.nodup_names hb.read) hs hn).1 haccepts
    exact ⟨v.text.toList, segmentPart_named hn hget hsome hwritable, hfits,
      fun _ => ⟨v, hgiven, rfl⟩⟩

/-- The path of what has been matched is matched again, if its arguments stand on one line. -/
theorem Built.exists_matchPath {path : String} (hb : t.Built p ds caseSensitive)
    (hfresh : t.Fresh p ds) (hlast : p.wildcard = true → p.segments.getLast? ≠ some (.exact []))
    (hr : Reached t moves r) (hdistinct : values.Distinct)
    (hmatch : r.matchDispatch values = .ok (some m)) (hargs : ∀ a ∈ m.args, a.isWritable = true)
    (hpath : m.path = .ok path) (hline : '\n' ∉ joined m.args) :
    ∃ q, r.matchPath path = .ok (some q) ∧
      (∀ name ∈ p.names, ∃ v, values.get? (.str name) = some v ∧
        q.dispatchValue (.str name) = .ok (.str v.text)) ∧
      q.dispatch.filter (fun e => (r.segmentName? e.1).isNone) =
        r.dispatch.filter fun e => (r.segmentName? e.1).isNone := by
  have hkeeps := hb.keeps hr
  have hnames := Pattern.nodup_names hb.read
  have hpattern : r.matcher.pattern = p := hkeeps.matcher ▸ hfresh.pattern
  obtain ⟨ws, hws⟩ := hb.texts_of_matchDispatch hfresh hr hdistinct hmatch
  obtain ⟨_, d, args, htaken, rfl⟩ := matchDispatch_eq_some hmatch
  obtain rfl := Except.ok.inj
    (hpath.symm.trans (path_eq_written hpattern (hws.imp fun _ _ h => h.1) hargs))
  have hfixed : p.wildcard = false → args = [] := by
    intro hfixed
    refine args_of_takeEntries htaken ?_
    rw [hasWildcard, hpattern, hfixed]
  obtain ⟨tail, hsplits, _⟩ :=
    splits_written hb.read hlast (hws.imp fun _ _ h => h.2.1) hline hfixed (.inl (Eq.refl []))
  rw [List.append_nil, ← String.toList_ofList (l := written ws args)] at hsplits
  have hfound := (hkeeps.matcher ▸ hfresh.splits : r.matcher.Splits p).hit hsplits
  refine ⟨_, congrArg (Except.map (Option.map (r.withCaptures _))) hfound, fun name hname => ?_, ?_⟩
  · obtain ⟨s, hs, rfl⟩ := List.mem_map.1 hname
    obtain ⟨hs, hn⟩ := List.mem_filter.1 hs
    obtain ⟨w, hw, _, _, hgiven⟩ := exists_of_forall₂ hws hs
    obtain ⟨v, hv, rfl⟩ := hgiven hn
    refine ⟨v, hv, ?_⟩
    rw [dispatchValue_withCaptures hnames hws.length_eq rfl hn hw, String.ofList_toList]
  · have hhas : ∀ name ∈ p.names, r.dispatch.has (.str name) = true :=
      fun name hname => hkeeps.dispatch.has_eq ▸ hb.has_of_mem hname
    refine ((varies_withCaptures (hpattern ▸ hnames) (hpattern ▸ hhas) hfound).filter
      (fun k => (r.segmentName? k).isNone) ?_).symm
    rintro k hk ⟨name, hname, rfl⟩
    rw [Option.isNone_iff_eq_none] at hk
    rw [hpattern, ← hb.hasSegment_iff, ← hkeeps.matcher] at hname
    exact absurd (segmentName?_eq_some.2 ⟨rfl, hname⟩) (by simp [hk])

end UrlRouting.Route
