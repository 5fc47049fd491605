import UrlRouting.Proofs.Route.Admission
import UrlRouting.Proofs.Route.Links

/-! Routes with neither defaults nor a wildcard: all that they hold are values of segments. -/
namespace UrlRouting.Route

open Segment

variable {r t m : Route} {p : Pattern} {values : Mapping} {caseSensitive : Value}
  {moves : List Move} {ws ws' : List (List Char)} {text path : String}

/-- The texts fit the segments of the pattern, and are those of the values for the named ones. -/
def Fills (p : Pattern) (values : Mapping) (ws : List (List Char)) : Prop :=
  List.Forall₂ (fun s w => s.Fits w ∧ (s.isNamed → ∃ v, values.get? (.str s.data) = some v ∧
    v.isNothing = false ∧ v.isWritable = true ∧ w = v.text.toList)) p.segments ws

theorem fills_captured (hnames : p.names.Nodup) (hfits : List.Forall₂ Fits p.segments ws) :
    Fills p (p.captured ws) ws := by
  refine List.forall₂_iff_zip.2 ⟨hfits.length_eq, fun {s w} hzip => ?_⟩
  refine ⟨(List.forall₂_iff_zip.1 hfits).2 hzip, fun hn => ?_⟩
  have hmem : (.str s.data, .str (String.ofList w)) ∈ p.captured ws :=
    List.mem_map.2 ⟨(s, w), List.mem_filter.2 ⟨hzip, hn⟩, rfl⟩
  refine ⟨_, Mapping.get?_of_mem (pairwise_captured hnames hfits.length_eq) hmem, rfl, rfl, ?_⟩
  simp [Value.text]

theorem Fills.fits (h : Fills p values ws) : List.Forall₂ Fits p.segments ws :=
  h.imp fun _ _ h => h.1

theorem path_of_fills (hp : r.matcher.pattern = p) (hargs : r.args = [])
    (h : Fills p r.dispatch ws) : r.path = .ok (String.ofList (written ws [])) := by
  rw [← hargs]
  refine path_eq_written hp (h.imp ?_) (by simp [hargs])
  rintro s w ⟨hfits, hvalue⟩
  cases hn : s.isNamed with
  | false => rw [segmentPart_fixed hn, (fits_exact hn).1 hfits]
  | true =>
    obtain ⟨v, hget, hsome, hwritable, rfl⟩ := hvalue hn
    exact segmentPart_named hn hget hsome hwritable

/-- Texts for the segments can be told from the path that is written with them. -/
theorem written_inj (hread : Pattern.read text = .ok p) (hfixed : p.wildcard = false)
    (hfits : List.Forall₂ Fits p.segments ws) (hfits' : List.Forall₂ Fits p.segments ws')
    (h : written ws [] = written ws' []) : ws' = ws := by
  have hsplits : ∀ {ws}, List.Forall₂ Fits p.segments ws →
      ∃ tail, p.Splits (written ws []) ws tail := by
    intro ws hfits
    obtain ⟨tail, hsplits, _⟩ := splits_written hread (by simp [hfixed]) hfits (List.not_mem_nil)
      (fun _ => rfl) (.inl rfl)
    exact ⟨tail, by simpa using hsplits⟩
  obtain ⟨_, hs⟩ := hsplits hfits
  obtain ⟨_, hs'⟩ := hsplits hfits'
  rw [← h] at hs'
  exact (splits_unique (Pattern.written_of_read hread) hs hs').1

namespace Built

variable (hb : t.Built p [] caseSensitive) (hr : Reached t moves r)
include hb hr

theorem keys_of_reached : r.dispatch.keys = p.names.map Value.str := by
  rw [← (hb.keeps hr).dispatch.keys_eq, hb.keys_eq]
  rfl

theorem pattern_of_reached : r.matcher.pattern = p := by
  rw [(hb.keeps hr).matcher, hb.pattern_eq]

/-- A match leaves nothing of the values that the route had before. -/
theorem matchPath_fixed (hfresh : t.Fresh p []) (hfixed : p.wildcard = false)
    (hm : r.matchPath path = .ok (some m)) : ∃ ws, List.Forall₂ Fits p.segments ws ∧
      m.matcher.pattern = p ∧ m.dispatch = p.captured ws ∧ m.args = [] := by
  have hsplits : r.matcher.Splits p := (hb.keeps hr).matcher ▸ hfresh.splits
  obtain ⟨ws, tail, hs, rfl⟩ := splits_of_matchPath hsplits hm
  cases hs with
  | fixed _ hfits =>
    have hpattern := hb.pattern_of_reached hr
    exact ⟨ws, hfits, hpattern, Mapping.insertAll_of_keys_eq (hb.keys_of_reached hr)
      (keys_captured hfits.length_eq) (Pattern.nodup_names hb.read), (hb.keeps hr).args hfixed⟩
  | tail hwild | bare hwild =>
    rw [hfixed] at hwild
    cases hwild

/-- Values for all segments are taken over as they are. -/
theorem matchDispatch_fixed (hfresh : t.Fresh p []) (hfixed : p.wildcard = false)
    (hkeys : values.keys = p.names.map Value.str) (h : Fills p values ws) :
    ∃ q, r.matchDispatch values = .ok (some q) ∧ q.path = .ok (String.ofList (written ws [])) := by
  have hnames := Pattern.nodup_names hb.read
  have hdistinct : values.Distinct := Mapping.distinct_of_keys_eq hkeys hnames
  have htakes : ∀ e ∈ values, r.Takes e.1 e.2 := by
    intro e he
    obtain ⟨name, hname, hkey⟩ := Mapping.exists_name_of_mem hkeys he
    obtain ⟨s, hs, rfl⟩ := List.mem_map.1 hname
    obtain ⟨hs, hn⟩ := List.mem_filter.1 hs
    obtain ⟨_, _, hfits, hvalue⟩ := exists_of_forall₂ h hs
    obtain ⟨v, hget, hsome, hwritable, rfl⟩ := hvalue hn
    rw [← hkey, Mapping.get?_of_mem hdistinct he] at hget
    obtain rfl := Option.some.inj hget
    have hsegment : r.segmentName? e.1 = some s.data :=
      (hb.segmentName?_iff hr).2 ⟨hkey, by rwa [hb.pattern_of_reached hr]⟩
    refine (takes_segment hsegment).2 ⟨hsome, hwritable, ?_⟩
    rw [(hb.keeps hr).matcher]
    exact (accepts_iff hfresh.constrains hnames hs hn).2 hfits
  have hall : r.dispatch.keys.all values.has = true := by
    rw [hb.keys_of_reached hr, ← hkeys]
    refine List.all_eq_true.2 fun k hk => ?_
    obtain ⟨e, he, rfl⟩ := List.mem_map.1 hk
    exact Mapping.has_of_mem he
  obtain ⟨q, hq⟩ := exists_matchDispatch.2 ⟨hall, htakes⟩
  have hreached : Reached t (.matchDispatch values :: moves) q := .move hr hq
  refine ⟨q, hq, path_of_fills (hb.pattern_of_reached hreached) ((hb.keeps hreached).args hfixed)
    ?_⟩
  refine ((List.forall₂_and_left _ _).2 ⟨fun s hs => hs, h⟩).imp ?_
  rintro s w ⟨hs, hfits, hvalue⟩
  refine ⟨hfits, fun hn => ?_⟩
  obtain ⟨v, hget, hsome, hwritable, hw⟩ := hvalue hn
  have hname : s.data ∈ p.names := List.mem_map_of_mem (List.mem_filter.2 ⟨hs, hn⟩)
  obtain ⟨v', hgiven, htaken, _⟩ := hb.get?_of_matchDispatch hr hdistinct hq hname
  obtain rfl := Option.some.inj (hget.symm.trans hgiven)
  exact ⟨v, htaken, hsome, hwritable, hw⟩

end Built

end UrlRouting.Route
