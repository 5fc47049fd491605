import UrlRouting.Proofs.Expression.Caseless
import UrlRouting.Proofs.Expression.Portion
import UrlRouting.Proofs.Pattern.Passage

/-! Matchers that ignore case. Paths that differ in the case of ASCII letters only are matched
alike, and what is captured from them covers the same characters. -/
namespace UrlRouting

open Expression Expression.Reading PathMatcher Segment

variable {p : Pattern} {m : PathMatcher} {c : Captures} {s : Segment} {caseSensitive : Value}
  {text path other name : String} {st : State} {i k : Nat}

/-! ### Expressions of patterns -/

/-- No constraint has a group that switches letters back to be compared as they are. -/
def Pattern.IsTame (p : Pattern) : Prop :=
  ∀ s ∈ p.segments, s.kind = .constrained → regardsCase (isolated s.expression) = false

theorem regardsCase_anything : regardsCase (isolated anything) = false := by
  decide +kernel

theorem Pattern.IsTame.segment (h : p.IsTame) (hs : s ∈ p.segments) (hw : s.Written) :
    s.IsTame := by
  intro hn
  cases hw with
  | exact => cases hn
  | placeholder => exact regardsCase_anything
  | constrained => exact h _ hs rfl

theorem ignoresCase_bare : bareExpression.node.IgnoresCase := by
  have hslash : slash.IgnoresCase := ignoresCase_ofCode (f := .full) nofun 47
  exact ⟨hslash, ⟨ignoresCase_exceptNewline, trivial⟩, trivial⟩

/-- A matcher that is not to regard case has an expression that ignores it. -/
theorem ignoresCase_of_build (hread : Pattern.read text = .ok p) (htame : p.IsTame)
    (hbuild : PathMatcher.build p caseSensitive = .ok m) (hcase : caseSensitive.truthy = false) :
    m.expression.node.IgnoresCase := by
  have hcompile := (PathMatcher.build_eq_ok hbuild).2.1
  have hw := Pattern.written_of_read hread
  by_cases hne : p.segments = []
  · rw [compile_bare (Pattern.wildcard_of_nil hread hne) hne] at hcompile
    rw [← Except.ok.inj hcompile]
    exact ignoresCase_bare
  · obtain ⟨fin, h⟩ := passage_of_compile hne (sound_of_build hw hbuild) hcompile
    have hignores : ignoresCase caseSensitive = true := by rw [ignoresCase, hcase]; rfl
    obtain ⟨source, hcomes⟩ := h.comes hignores fun s hs => htame.segment hs (hw s hs)
    rw [hignores] at hcomes
    rw [h.node]
    exact (isCaseless_start.comes hcomes).body

/-! ### Captures -/

/-- The characters from one place to another. -/
def slice (path : String) (first last : Nat) : String :=
  String.ofList ((path.toList.drop first).take (last - first))

/-- Paths that differ in the case of ASCII letters only. -/
def SamePath (path other : String) : Prop :=
  List.Forall₂ SameLetter path.toList other.toList

instance : Decidable (SamePath path other) :=
  inferInstanceAs (Decidable (List.Forall₂ SameLetter path.toList other.toList))

/-- Two captured texts cover the same characters of their paths, and differ at most in the case of
ASCII letters, or neither group took part. -/
inductive Correspond (path other : String) : Option String → Option String → Prop
  | missing : Correspond path other none none
  | covering {first last : Nat} (hle : first ≤ last) (hlast : last ≤ path.length)
      (hsame : SamePath (slice path first last) (slice other first last)) :
      Correspond path other (some (slice path first last)) (some (slice other first last))

theorem SamePath.slice (h : SamePath path other) (first last : Nat) :
    SamePath (slice path first last) (slice other first last) := by
  simp only [SamePath, UrlRouting.slice, String.toList_ofList]
  exact List.forall₂_take _ (List.forall₂_drop _ h)

theorem group?_eq {path : String} : Match.group? ⟨path.toList.toArray, st⟩ k =
    (st.span? k).map fun span => slice path span.1 span.2 := rfl

theorem SamePath.correspond (h : SamePath path other) (hin : st.Within path.toList.toArray)
    (k : Nat) :
    Correspond path other (Match.group? ⟨path.toList.toArray, st⟩ k)
      (Match.group? ⟨other.toList.toArray, st⟩ k) := by
  rw [group?_eq, group?_eq]
  cases hspan : st.span? k with
  | none => exact .missing
  | some span =>
    obtain ⟨hle, hlast⟩ := Window.span?_le hin hspan
    exact .covering hle (by simpa [← String.length_toList] using hlast) (h.slice _ _)

theorem PathMatcher.Captured.exists_value {found : Match} {values : Mapping}
    (h : m.Captured found values)
    (hs : (s, i) ∈ m.pattern.segments.zipIdx) (hn : s.isNamed = true) :
    ∃ v, m.capture found (groupName i) = .ok v ∧ (Value.str s.data, textOrNone v) ∈ values := by
  obtain ⟨entry, hentry, v, hv, rfl⟩ := exists_of_forall₂ h (List.mem_filter.2 ⟨hs, hn⟩)
  exact ⟨v, hv, (List.of_mem_zip hentry).2⟩

theorem SamePath.capture {name : String} {v w : Option String} (h : SamePath path other)
    (hin : st.Within path.toList.toArray) (hv : m.capture ⟨path.toList.toArray, st⟩ name = .ok v)
    (hw : m.capture ⟨other.toList.toArray, st⟩ name = .ok w) : Correspond path other v w := by
  cases hk : m.expression.names.lookup name with
  | none => simp [PathMatcher.capture, hk] at hv
  | some k =>
    simp only [PathMatcher.capture, hk, Except.ok.injEq] at hv hw
    rw [← hv, ← hw]
    exact h.correspond hin k

/-- A matcher that is not to regard case answers alike to paths that differ in case only. Where it
matches, all groups have the same places in both. -/
theorem matchPath_of_samePath (hread : Pattern.read text = .ok p) (htame : p.IsTame)
    (hbuild : PathMatcher.build p caseSensitive = .ok m) (hcase : caseSensitive.truthy = false)
    (h : SamePath path other) :
    m.matchPath path = .ok none ∧ m.matchPath other = .ok none ∨
      ∃ c d st, m.matchPath path = .ok (some c) ∧ m.matchPath other = .ok (some d) ∧
        m.expression.fullMatch? path = some ⟨path.toList.toArray, st⟩ ∧
        m.expression.fullMatch? other = some ⟨other.toList.toArray, st⟩ ∧
        (∀ name ∈ p.names, ∃ v w, (Value.str name, textOrNone v) ∈ c.values ∧
          (Value.str name, textOrNone w) ∈ d.values ∧ Correspond path other v w) ∧
        Correspond path other c.tail d.tail := by
  have hpattern := (PathMatcher.build_eq_ok hbuild).2.2
  have hdistinct : m.pattern.names.Nodup := hpattern ▸ Pattern.nodup_names hread
  have hletters : SameLetters path.toList.toArray other.toList.toArray := h
  have hsame := hletters.fullMatch_eq (ignoresCase_of_build hread htame hbuild hcase)
  obtain ⟨found, hfound⟩ := exists_matchPath hread hbuild path
  obtain ⟨found', hfound'⟩ := exists_matchPath hread hbuild other
  cases found with
  | none =>
    cases found' with
    | none => exact .inl ⟨hfound, hfound'⟩
    | some d =>
      obtain ⟨st, hst, _⟩ := matchPath_eq_some hfound'
      rw [← hsame, fullMatch_eq_none hfound] at hst
      cases hst
  | some c =>
    obtain ⟨st, hst, hvalues, htail⟩ := matchPath_eq_some hfound
    cases found' with
    | none =>
      rw [hsame, fullMatch_eq_none hfound'] at hst
      cases hst
    | some d =>
      obtain ⟨st', hst', hvalues', htail'⟩ := matchPath_eq_some hfound'
      obtain rfl : st = st' := Option.some.inj (hst.symm.trans (hsame.trans hst'))
      -- Both paths are matched in one state, and a state is all that captures are made of.
      have hin := within_ways (mem_ways_of_fullMatch hst).1 within_start
      refine .inr ⟨c, d, st, hfound, hfound', by rw [fullMatch?, hst]; rfl,
        by rw [fullMatch?, hst']; rfl, fun name hname => ?_, ?_⟩
      · rw [← hpattern, names_eq_zipIdx] at hname
        obtain ⟨⟨s, i⟩, hs, rfl⟩ := List.mem_map.1 hname
        obtain ⟨hs, hn⟩ := List.mem_filter.1 hs
        obtain ⟨v, hv, hmem⟩ := (captured_of_captureValues hdistinct hvalues).exists_value hs hn
        obtain ⟨w, hw, hmem'⟩ := (captured_of_captureValues hdistinct hvalues').exists_value hs hn
        exact ⟨v, w, hmem, hmem', h.capture hin hv hw⟩
      · split at htail
        · next hwild =>
          rw [if_pos hwild] at htail'
          exact h.capture hin htail htail'
        · next hwild =>
          rw [if_neg hwild] at htail'
          rw [← Except.ok.inj htail, ← Except.ok.inj htail']
          exact .missing

end UrlRouting
