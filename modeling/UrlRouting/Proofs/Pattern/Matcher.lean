import UrlRouting.Proofs.Pattern.Constraint

/-! What is known of any matcher that has been built, whatever its constraints are. -/
namespace UrlRouting

open Expression PathMatcher Segment

variable {p : Pattern} {m : PathMatcher} {c : Captures} {caseSensitive : Value} {path name : String}
  {e : Expression} {found : Match} {values : Mapping}

/-! ### Building -/

theorem PathMatcher.compile_eq_ok {text : String} :
    PathMatcher.compile caseSensitive text = .ok e ↔
      Expression.compile (ignoresCase caseSensitive) text = .ok e := by
  unfold PathMatcher.compile
  cases Expression.compile (ignoresCase caseSensitive) text <;> simp

theorem PathMatcher.build_eq_ok (h : PathMatcher.build p caseSensitive = .ok m) :
    constraintsOf caseSensitive p = .ok m.constraints ∧
      Expression.compile (ignoresCase caseSensitive) (expressionText p) = .ok m.expression ∧
      m.pattern = p := by
  obtain ⟨constraints, hc, h⟩ := bind_eq_ok.1 h
  obtain ⟨e, he, h⟩ := bind_eq_ok.1 h
  cases h
  exact ⟨hc, PathMatcher.compile_eq_ok.1 he, rfl⟩

/-- There is a constraint for each named segment, in their order. -/
theorem constraints_of_build (h : PathMatcher.build p caseSensitive = .ok m) :
    List.Forall₂ (fun s entry => s.data = entry.1 ∧
      PathMatcher.compile caseSensitive (isolated s.expression) = .ok entry.2)
      (p.segments.filter Segment.isNamed) m.constraints := by
  refine (mapM_eq_ok.1 (PathMatcher.build_eq_ok h).1).imp fun s entry h => ?_
  obtain ⟨e, he, h⟩ := bind_eq_ok.1 h
  cases h
  exact ⟨rfl, he⟩

theorem names_constraints (h : PathMatcher.build p caseSensitive = .ok m) :
    p.names = m.constraints.map Prod.fst := by
  rw [← List.forall₂_eq_eq_eq]
  exact List.forall₂_map_left_iff.2
    (List.forall₂_map_right_iff.2 ((constraints_of_build h).imp fun _ _ h => h.1))

theorem hasSegment_iff_of_build (h : PathMatcher.build p caseSensitive = .ok m) :
    m.hasSegment name = true ↔ name ∈ p.names := by
  rw [hasSegment_iff_mem, names_constraints h]

theorem caseSensitive_of_build (h : PathMatcher.build p caseSensitive = .ok m) :
    m.caseSensitive = caseSensitive := by
  obtain ⟨constraints, _, h⟩ := bind_eq_ok.1 h
  obtain ⟨e, _, h⟩ := bind_eq_ok.1 h
  cases h
  rfl

/-- The constraint of a segment is its expression, isolated from what could be around it. -/
theorem exists_constraint (h : PathMatcher.build p caseSensitive = .ok m)
    (hdistinct : p.names.Nodup) {s : Segment} (hs : s ∈ p.segments) (hn : s.isNamed) :
    ∃ e, PathMatcher.compile caseSensitive (isolated s.expression) = .ok e ∧
      m.constraint? s.data = some e := by
  obtain ⟨⟨name, e⟩, hmem, hname, he⟩ :=
    exists_of_forall₂ (constraints_of_build h) (List.mem_filter.2 ⟨hs, hn⟩)
  obtain rfl : s.data = name := hname
  exact ⟨e, he, lookup_reverse_of_mem (names_constraints h ▸ hdistinct) (List.of_mem_zip hmem).2⟩

theorem accepts_iff_of_build (h : PathMatcher.build p caseSensitive = .ok m)
    (hdistinct : p.names.Nodup) {s : Segment} (hs : s ∈ p.segments) (hn : s.isNamed) {v : String} :
    m.accepts s.data v = true ↔
      ∃ e, PathMatcher.compile caseSensitive (isolated s.expression) = .ok e ∧
      e.matchesAll v = true := by
  obtain ⟨e, he, hconstraint⟩ := exists_constraint h hdistinct hs hn
  rw [PathMatcher.accepts, hconstraint, he]
  simp

/-! ### Matching -/

/-- The captured values are the texts of the groups, one for each named segment. -/
def PathMatcher.Captured (m : PathMatcher) (found : Match) (values : Mapping) : Prop :=
  List.Forall₂ (fun s entry => ∃ v, m.capture found (groupName s.2) = .ok v ∧
    entry = (Value.str s.1.data, textOrNone v)) (m.pattern.segments.zipIdx.filter (·.1.isNamed))
      values

theorem names_eq_zipIdx (p : Pattern) :
    p.names = (p.segments.zipIdx.filter (·.1.isNamed)).map (·.1.data) := by
  have hfst := List.zipIdx_map_fst 0 p.segments
  rw [Pattern.names]
  nth_rewrite 1 [← hfst]
  rw [List.filter_map, List.map_map]
  rfl

/-- Each named segment has its entry among the captured values, also if it took no part. -/
theorem PathMatcher.Captured.keys_eq (h : m.Captured found values) :
    values.keys = m.pattern.names.map Value.str := by
  rw [names_eq_zipIdx, List.map_map, ← List.forall₂_eq_eq_eq]
  refine List.forall₂_map_left_iff.2 (List.forall₂_map_right_iff.2 (h.flip.imp fun entry s h => ?_))
  obtain ⟨v, _, rfl⟩ := h
  rfl

theorem captured_of_captureValues (hdistinct : m.pattern.names.Nodup)
    (h : m.captureValues found = .ok values) : m.Captured found values := by
  obtain ⟨entries, hentries, h⟩ := bind_eq_ok.1 h
  cases h
  have hcaptured : m.Captured found entries := by
    refine (mapM_eq_ok.1 hentries).imp fun s entry h => ?_
    obtain ⟨v, hv, h⟩ := bind_eq_ok.1 h
    cases h
    exact ⟨v, hv, rfl⟩
  rwa [Mapping.ofList_of_pairwise (Mapping.distinct_of_keys_eq hcaptured.keys_eq hdistinct)]

theorem matchPath_eq_some (h : m.matchPath path = .ok (some c)) :
    ∃ t, m.expression.node.fullMatch path.toList.toArray = some t ∧
      m.captureValues ⟨path.toList.toArray, t⟩ = .ok c.values ∧
      (if m.pattern.wildcard then m.capture ⟨path.toList.toArray, t⟩ tailName else .ok none) =
        .ok c.tail := by
  unfold PathMatcher.matchPath Expression.fullMatch? at h
  cases ht : m.expression.node.fullMatch path.toList.toArray with
  | none => simp [ht] at h
  | some t =>
    simp only [ht, Option.map_some] at h
    obtain ⟨values, hvalues, h⟩ := bind_eq_ok.1 h
    refine ⟨t, rfl, ?_⟩
    split at h
    · next hwild =>
      obtain ⟨tail, htail, h⟩ := bind_eq_ok.1 h
      cases h
      exact ⟨hvalues, by rw [if_pos hwild, htail]⟩
    · next hfixed =>
      cases h
      exact ⟨hvalues, if_neg hfixed⟩

theorem fullMatch_eq_none (h : m.matchPath path = .ok none) :
    m.expression.node.fullMatch path.toList.toArray = none := by
  cases hst : m.expression.node.fullMatch path.toList.toArray with
  | none => rfl
  | some st =>
    simp only [PathMatcher.matchPath, fullMatch?, hst, Option.map_some] at h
    obtain ⟨_, _, h⟩ := bind_eq_ok.1 h
    split at h
    · obtain ⟨_, _, h⟩ := bind_eq_ok.1 h
      cases h
    · cases h

theorem keys_of_matchPath (hdistinct : m.pattern.names.Nodup)
    (h : m.matchPath path = .ok (some c)) :
    c.values.keys = m.pattern.names.map Value.str := by
  obtain ⟨_, _, hvalues, _⟩ := matchPath_eq_some h
  exact (captured_of_captureValues hdistinct hvalues).keys_eq

end UrlRouting
