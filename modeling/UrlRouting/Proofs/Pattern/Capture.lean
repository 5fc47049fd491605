import UrlRouting.Proofs.Pattern.Splitting
import UrlRouting.Proofs.Value.Variation

/-! What a plain pattern captures: for each named segment the piece of the path that it has
taken. -/
namespace UrlRouting

open Expression Expression.Reading PathMatcher Segment

variable {ignoreCase : Bool} {text : Subject} {st t : State} {rest : List Char} {i k : Nat}
  {s : Segment} {segments : List (Segment × Nat)} {g g' : GroupTable} {ns : List Node}
  {ws : List (List Char)} {p : Pattern} {names : List (String × Nat)}

/-! ### Groups of segments -/

/-- The text between two places. -/
theorem slice_eq {w : List Char} (h : Left text st (w ++ rest)) :
    (text.toList.drop st.pos).take (st.pos + w.length - st.pos) = w := by
  obtain ⟨before, htext, hpos⟩ := h
  rw [htext, hpos, List.drop_left, Nat.add_sub_cancel_left, List.take_left]

/-- Each named segment has a group, and the group holds what the segment has taken. -/
theorem captured_laid (h : Laid false segments g ns g') (hw : ∀ s ∈ segments, s.1.Written)
    (hp : ∀ s ∈ segments, s.1.IsPlain) (hfits : List.Forall₂ (fun s w => s.1.Fits w) segments ws)
    (hl : Left text st (spelled ws ++ rest)) :
    List.Forall₂ (fun s w => s.1.isNamed → ∃ k < g'.next, g'.names.lookup (groupName s.2) = some k ∧
      ∃ span, (afterAll g.next segments ws st).span? k = some span ∧
        (text.toList.drop span.1).take (span.2 - span.1) = w) segments ws := by
  induction hfits generalizing g ns st with
  | nil => exact .nil
  | @cons s w segments ws hfit hfits ih =>
    obtain ⟨s, i⟩ := s
    obtain ⟨hws, hw⟩ := List.forall_mem_cons.1 hw
    obtain ⟨hps, hp⟩ := List.forall_mem_cons.1 hp
    rw [spelled_cons, List.cons_append, List.append_assoc] at hl
    have hleft := left_after (s := s) (k := g.next) hl.move_one
    cases h with
    | exact hs h =>
      have hrest := ih h hw hp hleft
      simp only [afterAll, hs]
      exact .cons (fun hn => by simp [hs] at hn) hrest
    | @named _ _ _ _ _ _ a hs ha hadmits h =>
      obtain ⟨length, ha'⟩ := alone_of_plain hws hps hs
      obtain rfl := alone_unique ha ha'
      have hnext : (g.grouped (groupName i) (repetition length s.test)).next = g.next + 1 := by
        simp [GroupTable.grouped, repetition, GroupTable.empty, Nat.add_comm]
      have hrest := ih h hw hp hleft
      simp only [afterAll, hs, if_true]
      rw [hnext] at hrest
      refine .cons (fun _ => ⟨g.next, ?_, ?_, ?_⟩) hrest
      · exact Nat.le_trans (Nat.le_of_eq hnext.symm) h.next_le
      · exact lookup_extended h.names_extended (lookup_grouped hadmits)
      · refine ⟨_, (span?_afterAll (Nat.lt_succ_self _)).trans (span?_after hs), ?_⟩
        exact slice_eq hl.move_one

/-! ### Captured values -/

/-- What a pattern captures from the texts for its segments: the text of each named one. -/
def Pattern.captured (p : Pattern) (ws : List (List Char)) : Mapping :=
  ((p.segments.zip ws).filter (·.1.isNamed)).map fun x =>
    (Value.str x.1.data, Value.str (String.ofList x.2))

theorem keys_captured (hlen : p.segments.length = ws.length) :
    (p.captured ws).keys = p.names.map Value.str := by
  obtain ⟨segs, wildcard⟩ := p
  simp only [Mapping.keys, Pattern.captured, Pattern.names, List.map_map]
  induction segs generalizing ws with
  | nil => rfl
  | cons s segs ih =>
    cases ws with
    | nil => cases hlen
    | cons w ws =>
      have := ih (Nat.succ.inj hlen)
      cases hn : s.isNamed <;> simp_all

theorem pairwise_captured (hnames : p.names.Nodup) (hlen : p.segments.length = ws.length) :
    (p.captured ws).Pairwise fun e f => e.1.agrees f.1 = false :=
  Mapping.distinct_of_keys_eq (keys_captured hlen) hnames

theorem mapM_captured {f : Segment × Nat → Except RoutingError (Value × Value)}
    (h : List.Forall₂ (fun s w => s.1.isNamed →
      f s = .ok (Value.str s.1.data, Value.str (String.ofList w))) segments ws) :
    (segments.filter (·.1.isNamed)).mapM f =
      .ok ((((segments.map Prod.fst).zip ws).filter (·.1.isNamed)).map fun x =>
        (Value.str x.1.data, Value.str (String.ofList x.2))) := by
  induction h with
  | nil => rfl
  | @cons s w segments ws hs _ ih =>
    cases hn : s.1.isNamed with
    | false => simpa [hn] using ih
    | true =>
      simp only [List.filter_cons, hn, if_true, List.mapM_cons, hs hn, ih, ok_bind, List.map_cons,
        List.zip_cons_cons]
      rfl

theorem capture_eq {m : PathMatcher} {name : String} {span : Nat × Nat} {w : List Char}
    (hlook : m.expression.names.lookup name = some k) (hspan : st.span? k = some span)
    (hslice : (text.toList.drop span.1).take (span.2 - span.1) = w) :
    m.capture ⟨text, st⟩ name = .ok (some (String.ofList w)) := by
  simp only [PathMatcher.capture, hlook, Match.group?, hspan, Option.map_some, hslice]

/-- The captured values, where the group of each named segment holds a text. -/
theorem captureValues_eq {m : PathMatcher} {found : Match} (hm : m.pattern = p)
    (hnames : p.names.Nodup) (h : List.Forall₂ (fun s w => s.1.isNamed →
      m.capture found (groupName s.2) = .ok (some (String.ofList w))) p.segments.zipIdx ws) :
    m.captureValues found = .ok (p.captured ws) := by
  have hlen : p.segments.length = ws.length := by simpa using h.length_eq
  have hentries : List.Forall₂ (fun s w => s.1.isNamed → (do
      return (Value.str s.1.data, textOrNone (← m.capture found (groupName s.2))) :
        Except RoutingError (Value × Value)) =
      .ok (Value.str s.1.data, Value.str (String.ofList w))) p.segments.zipIdx ws := by
    refine h.imp fun s w hs hn => ?_
    rw [hs hn]
    rfl
  rw [PathMatcher.captureValues, hm]
  simp only [mapM_captured hentries, ok_bind, List.zipIdx_map_fst]
  exact congrArg Except.ok (Mapping.ofList_of_pairwise (pairwise_captured hnames hlen))

/-! ### Splits -/

/-- A path is made of texts that fit the segments of a pattern, and perhaps a tail. -/
inductive Pattern.Splits (p : Pattern) (path : List Char) :
    List (List Char) → Option (List Char) → Prop
  /-- A slash at the end is tolerated. -/
  | fixed {ws : List (List Char)} (hwild : p.wildcard = false)
      (hfits : List.Forall₂ Segment.Fits p.segments ws)
      (hpath : path = spelled ws ∨ path = spelled ws ++ ['/']) : Splits p path ws none
  | tail {ws : List (List Char)} {rest : List Char} (hwild : p.wildcard = true)
      (hne : p.segments ≠ []) (hfits : List.Forall₂ Segment.Fits p.segments ws)
      (hbreak : rest = [] ∨ rest.head? = some '/') (hline : '\n' ∉ rest)
      (hpath : path = spelled ws ++ rest) : Splits p path ws (some rest)
  | bare {rest : List Char} (hwild : p.wildcard = true) (hnil : p.segments = [])
      (hline : '\n' ∉ rest) (hpath : path = '/' :: rest) : Splits p path [] (some rest)

theorem spelled_unique {segs : List Segment} {ws ws' : List (List Char)} {rest rest' : List Char}
    (hw : ∀ s ∈ segs, s.Written) (hfits : List.Forall₂ Segment.Fits segs ws)
    (hfits' : List.Forall₂ Segment.Fits segs ws') (hb : AtBreak rest) (hb' : AtBreak rest')
    (h : spelled ws ++ rest = spelled ws' ++ rest') : ws' = ws ∧ rest' = rest := by
  induction hfits generalizing ws' with
  | nil =>
    cases hfits'
    exact ⟨rfl, h.symm⟩
  | @cons s w segs ws hfit _ ih =>
    cases hfits' with
    | @cons _ w' _ ws' hfit' hfits' =>
      obtain ⟨hs, hw⟩ := List.forall_mem_cons.1 hw
      simp only [spelled_cons, List.cons_append, List.append_assoc, List.cons.injEq, true_and] at h
      have hfree : ∀ {v : List Char}, s.Fits v → ∀ c ∈ v, (c != '/') = true := by
        intro v hv c hc
        simp only [bne_iff_ne]
        rintro rfl
        exact not_mem_of_fits hs hv hc
      have hcut : ∀ {v after : List Char}, s.Fits v → AtBreak after →
          (v ++ after).takeWhile (· != '/') = v := by
        intro v after hv ha
        rw [List.takeWhile_append_of_pos (hfree hv)]
        rcases atBreak_iff.1 ha with rfl | ha
        · simp
        · obtain ⟨after, rfl⟩ := List.head?_eq_some_iff.1 ha
          simp
      have hww : w' = w := by
        rw [← hcut hfit (atBreak_spelled hb), h, hcut hfit' (atBreak_spelled hb')]
      subst hww
      obtain ⟨rfl, rfl⟩ := ih hw hfits' (List.append_cancel_left h)
      exact ⟨rfl, rfl⟩

theorem splits_unique {path : List Char} {ws' : List (List Char)} {tail tail' : Option (List Char)}
    (hw : ∀ s ∈ p.segments, s.Written) (h : p.Splits path ws tail) (h' : p.Splits path ws' tail') :
    ws' = ws ∧ tail' = tail := by
  cases h with
  | fixed hwild hfits hpath =>
    cases h' with
    | fixed _ hfits' hpath' =>
      refine ⟨?_, rfl⟩
      have hslash : AtBreak ['/'] := by simp [AtBreak]
      have hnil : AtBreak [] := by simp [AtBreak]
      rcases hpath with rfl | rfl <;> rcases hpath' with hpath' | hpath'
      · exact (spelled_unique hw hfits hfits' hnil hnil (by simpa using hpath')).1
      · exact (spelled_unique hw hfits hfits' hnil hslash (by simpa using hpath')).1
      · exact (spelled_unique hw hfits hfits' hslash hnil (by simpa using hpath')).1
      · exact (spelled_unique hw hfits hfits' hslash hslash hpath').1
    | tail hwild' => simp [hwild] at hwild'
    | bare hwild' => simp [hwild] at hwild'
  | tail hwild hne hfits hbreak hline hpath =>
    cases h' with
    | fixed hwild' => simp [hwild] at hwild'
    | tail _ _ hfits' hbreak' _ hpath' =>
      obtain ⟨rfl, rfl⟩ := spelled_unique hw hfits hfits' (atBreak_iff.2 hbreak)
        (atBreak_iff.2 hbreak') (hpath.symm.trans hpath')
      exact ⟨rfl, rfl⟩
    | bare _ hnil => exact absurd hnil hne
  | bare hwild hnil hline hpath =>
    cases h' with
    | fixed hwild' => simp [hwild] at hwild'
    | tail _ hne => exact absurd hnil hne
    | bare _ _ _ hpath' =>
      rw [hpath] at hpath'
      cases hpath'
      exact ⟨rfl, rfl⟩

end UrlRouting
