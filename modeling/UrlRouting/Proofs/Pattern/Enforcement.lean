import UrlRouting.Proofs.Pattern.Matcher
import UrlRouting.Proofs.Pattern.Places

/-! What a path that matches gives to a named segment, the constraint of the segment accepts, if its
expression does not look at what is around it. -/
namespace UrlRouting

open Expression Expression.Reading PathMatcher Segment

variable {text : Subject} {ignoreCase : Bool} {s : Segment} {p : Pattern} {m : PathMatcher}
  {c : Captures}
  {caseSensitive : Value} {path name : String} {e : Expression} {ws : List (List Char)}

namespace Segment

/-- The expression of the segment can be read by itself, and refers to no group by a number. -/
def isSelfContained (ignoreCase : Bool) (s : Segment) : Bool :=
  match Expression.compile ignoreCase s.expression with
  | .ok _ => !isNumbered ignoreCase s.expression
  | .error _ => false

/-- What the expression of the segment matches does not depend on what is around it. -/
def isIndependent (ignoreCase : Bool) (s : Segment) : Bool :=
  match Expression.compile ignoreCase s.expression with
  | .ok e => e.node.isIndependent
  | .error _ => false

theorem exists_of_selfContained (h : s.isSelfContained ignoreCase = true) :
    ∃ e, Expression.compile ignoreCase s.expression = .ok e ∧
      isNumbered ignoreCase s.expression = false := by
  unfold isSelfContained at h
  split at h
  · next e he => exact ⟨e, he, by simpa using h⟩
  · cases h

theorem isIndependent_eq (h : Expression.compile ignoreCase s.expression = .ok e) :
    s.isIndependent ignoreCase = e.node.isIndependent := by
  simp only [isIndependent, h]

theorem isSelfContained_congr {s' : Segment} (h : s.expression = s'.expression) :
    s.isSelfContained ignoreCase = s'.isSelfContained ignoreCase := by
  simp only [isSelfContained, h]

theorem isSelfContained_placeholder (ignoreCase : Bool) (name : List Char) :
    (placeholder name).isSelfContained ignoreCase = true := by
  rw [isSelfContained_congr
    (show (placeholder name).expression = (placeholder []).expression from rfl)]
  cases ignoreCase <;> decide +kernel

end Segment

/-- All constraints of the pattern are self-contained. -/
def Pattern.IsSelfContained (ignoreCase : Bool) (p : Pattern) : Prop :=
  ∀ s ∈ p.segments, s.kind = .constrained → s.isSelfContained ignoreCase = true

theorem isSelfContained_userPattern : userPattern.IsSelfContained false := by
  intro s hs hk
  simp only [userPattern, List.mem_cons, List.not_mem_nil, or_false] at hs
  rcases hs with rfl | rfl
  · cases hk
  · decide +kernel

theorem selfContained_of_named (hw : s.Written)
    (h : s.kind = .constrained → s.isSelfContained ignoreCase = true) (hn : s.isNamed) :
    s.isSelfContained ignoreCase = true := by
  cases hw with
  | exact => cases hn
  | placeholder name => exact isSelfContained_placeholder ignoreCase name
  | constrained => exact h rfl

theorem readable_of_selfContained (hw : s.Written)
    (h : s.kind = .constrained → s.isSelfContained ignoreCase = true) : Readable ignoreCase s where
  exact hn := by
    cases hw with
    | exact => simp [Segment.exact]
    | placeholder | constrained => cases hn
  named hn := by
    obtain ⟨e, he, hnumbered⟩ := exists_of_selfContained (selfContained_of_named hw h hn)
    obtain ⟨a, ha, _⟩ := alone_of_compile he hnumbered
    exact ⟨a, ha⟩

/-! ### Matchers -/

/-- The constraint of a segment is its expression in parentheses, which change nothing. -/
theorem constraint?_of_build (hbuild : PathMatcher.build p caseSensitive = .ok m)
    (hdistinct : p.names.Nodup) (hs : s ∈ p.segments) (hn : s.isNamed)
    (he : Expression.compile (ignoresCase caseSensitive) s.expression = .ok e)
    (hnumbered : isNumbered (ignoresCase caseSensitive) s.expression = false) :
    m.constraint? s.data = some ⟨isolated s.expression, e.node, e.names⟩ := by
  obtain ⟨e', he', hconstraint⟩ := exists_constraint hbuild hdistinct hs hn
  have hsame : (⟨isolated s.expression, e.node, e.names⟩ : Expression) = e' :=
    Except.ok.inj ((compile_parenthesized he hnumbered).symm.trans
      (PathMatcher.compile_eq_ok.1 he'))
  rw [hsame]
  exact hconstraint

theorem matchSegment_str (h : m.hasSegment name = true) (v : String) :
    m.matchSegment (.str name) (.str v) = .ok (m.accepts name v) := by
  have hhas : m.hasSegmentValue (.str name) = .ok true := by
    rw [← h]
    rfl
  rw [PathMatcher.matchSegment, hhas]
  rfl

theorem accepts_of_taken {g : GroupTable} {t : State} {s : Segment × Nat} {w : List Char}
    (hbuild : PathMatcher.build p caseSensitive = .ok m) (hdistinct : p.names.Nodup)
    (hs : s.1 ∈ p.segments) (hn : s.1.isNamed)
    (hself : s.1.isSelfContained (ignoresCase caseSensitive) = true)
    (h : Taken (ignoresCase caseSensitive) text g t s w) :
    m.hasSegment s.1.data = true ∧ (s.1.isIndependent (ignoresCase caseSensitive) = true →
      m.accepts s.1.data (String.ofList w) = true) := by
  obtain ⟨e, he, hnumbered⟩ := exists_of_selfContained hself
  obtain ⟨a, ha, _, rfl⟩ := alone_of_compile he hnumbered
  obtain ⟨k, b, _, _, hb, _, hsafe⟩ := h
  obtain rfl := alone_unique ha hb
  have hconstraint := constraint?_of_build hbuild hdistinct hs hn he hnumbered
  refine ⟨by rw [PathMatcher.hasSegment, hconstraint]; rfl, fun hs => ?_⟩
  rw [isIndependent_eq he] at hs
  rw [PathMatcher.accepts, hconstraint]
  simpa [matchesAll, fullMatch?] using hsafe hs

/-- The expression of a pattern consists of its segments and of the ending. -/
theorem laid_of_build (hw : ∀ s ∈ p.segments, s.Written)
    (hself : p.IsSelfContained (ignoresCase caseSensitive))
    (hbuild : PathMatcher.build p caseSensitive = .ok m) (hne : p.segments ≠ []) :
    ∃ ns g, Laid (ignoresCase caseSensitive) p.segments.zipIdx .empty ns g ∧
      (p.wildcard → g.Admits tailName (tailReading (ignoresCase caseSensitive))) ∧
      m.expression = ⟨expressionText p, .ofList (ns ++ ending p.wildcard g),
        endingNames p.wildcard g⟩ := by
  obtain ⟨_, hcompile, _⟩ := PathMatcher.build_eq_ok hbuild
  rcases compile_expressionText hne fun s hs => readable_of_selfContained (hw s hs) (hself s hs)
    with ⟨ns, g, hlaid, hadmits, h⟩ | ⟨_, rejection, h⟩
  · rw [hcompile] at h
    split at h
    · cases h
    · exact ⟨ns, g, hlaid, hadmits, Except.ok.inj h⟩
  · rw [hcompile] at h
    cases h

/-- What a path gives to the named segments. -/
theorem accepts_of_matchPath (hw : ∀ s ∈ p.segments, s.Written) (hdistinct : p.names.Nodup)
    (hself : p.IsSelfContained (ignoresCase caseSensitive))
    (hbuild : PathMatcher.build p caseSensitive = .ok m)
    (hmatch : m.matchPath path = .ok (some c)) :
    ∃ ws, c.values = p.captured ws ∧
      List.Forall₂ (fun s w => s.isNamed → m.hasSegment s.data = true ∧
      (s.isIndependent (ignoresCase caseSensitive) = true →
        m.accepts s.data (String.ofList w) = true)) p.segments ws := by
  obtain ⟨t, ht, hvalues, _⟩ := matchPath_eq_some hmatch
  obtain ⟨_, _, hpattern⟩ := PathMatcher.build_eq_ok hbuild
  by_cases hne : p.segments = []
  · rw [captureValues_eq hpattern hdistinct (by rw [hne]; exact .nil)] at hvalues
    exact ⟨[], (Except.ok.inj hvalues).symm, by rw [hne]; exact .nil⟩
  obtain ⟨ns, g, hlaid, _, hexpression⟩ := laid_of_build hw hself hbuild hne
  rw [hexpression] at ht
  have htaken := taken_of_fullMatch hlaid ht
  have hall : ∀ s ∈ p.segments.zipIdx, ∃ w, s.1.isNamed = true →
      Taken (ignoresCase caseSensitive) path.toList.toArray g t s w := by
    intro s hs
    cases hn : s.1.isNamed with
    | false => exact ⟨[], fun h => by cases h⟩
    | true =>
      obtain ⟨w, hw⟩ := htaken s hs hn
      exact ⟨w, fun _ => hw⟩
  obtain ⟨ws, hws⟩ := exists_forall₂ hall
  have hprefix : g.names <+: m.expression.names := by
    rw [hexpression, endingNames]
    split
    · exact List.prefix_append _ _
    · exact List.prefix_rfl
  refine ⟨ws, ?_, ?_⟩
  · have hcaptures := captureValues_eq hpattern hdistinct (hws.imp fun s w h hn => by
      obtain ⟨k, a, _, hlook, _, ⟨span, hspan, hslice⟩, _⟩ := h hn
      exact capture_eq (lookup_extended hprefix hlook) hspan hslice)
    rw [hcaptures] at hvalues
    exact (Except.ok.inj hvalues).symm
  · have hmem := (List.forall₂_and_left (p := fun s => s.1 ∈ p.segments) _ _).2
      ⟨fun s hs => List.fst_mem_of_mem_zipIdx hs, hws⟩
    refine forall₂_zipIdx_iff.1 (hmem.imp fun s w h hn => ?_)
    exact accepts_of_taken hbuild hdistinct h.1 hn
      (selfContained_of_named (hw _ h.1) (hself _ h.1) hn) (h.2 hn)

/-! ### The tail -/

/-- With a wildcard there is a tail wherever the path matches, even if it is empty. -/
theorem isSome_tail_of_matchPath (hw : ∀ s ∈ p.segments, s.Written)
    (hself : p.IsSelfContained (ignoresCase caseSensitive))
    (hbuild : PathMatcher.build p caseSensitive = .ok m) (hmatch : m.matchPath path = .ok (some c))
    (hwild : p.wildcard = true) : c.tail.isSome = true := by
  obtain ⟨t, ht, _, htail⟩ := matchPath_eq_some hmatch
  obtain ⟨_, hcompile, hpattern⟩ := PathMatcher.build_eq_ok hbuild
  suffices h : ∃ k span, m.expression.names.lookup tailName = some k ∧ t.span? k = some span by
    obtain ⟨k, span, hlook, hspan⟩ := h
    rw [hpattern, if_pos hwild, capture_eq hlook hspan rfl] at htail
    cases c
    cases htail
    rfl
  obtain ⟨hu, _⟩ := mem_ways_of_fullMatch ht
  by_cases hne : p.segments = []
  · rw [compile_bare hwild hne] at hcompile
    rw [← Except.ok.inj hcompile] at hu ⊢
    obtain ⟨v, _, hu⟩ := List.mem_flatMap.1 hu
    obtain ⟨w, hgroup, hu⟩ := List.mem_flatMap.1 hu
    rw [List.mem_singleton.1 hu]
    exact ⟨1, _, rfl, span?_group (by simp [Node.ofList, Node.indices]) hgroup⟩
  · obtain ⟨ns, g, _, hadmits, hexpression⟩ := laid_of_build hw hself hbuild hne
    rw [hexpression, hwild] at hu ⊢
    obtain ⟨v, _, hu⟩ := mem_ways_append.1 hu
    obtain ⟨w, hgroup, hu⟩ := List.mem_flatMap.1 hu
    have hmarks : t.marks = w.marks := marks_ways (n := Node.ofList [optionalSlash]) rfl hu
    refine ⟨g.next, (v.pos, w.pos), lookup_tailName (hadmits hwild), ?_⟩
    rw [State.span?, hmarks]
    exact span?_group (by simp [tailBody, slash, Node.indices]) hgroup

end UrlRouting
