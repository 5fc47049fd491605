import UrlRouting.Proofs.Expression.Passage
import UrlRouting.Proofs.Pattern.Matcher

/-! Reading the expression of any pattern that has been built. Each named segment has a group, and
so has the tail, so that a matcher always comes to an answer. -/
namespace UrlRouting

open Expression Expression.Reading Expression.Source PathMatcher Segment

variable {ignoreCase : Bool} {p : Pattern} {m : PathMatcher} {s : Segment} {i : Nat}
  {q fin fin' : Reading}
  {more more' : List Char} {segments : List (Segment × Nat)} {e : Expression}
  {caseSensitive : Value} {path name : String}

/-! ### Segments -/

theorem tokens_namedSegment (hs : s.isNamed = true) (i : Nat) (more : List Char) :
    tokens (segmentText s i ++ more) = openingTokens (groupName i).toList ++
      (tokens (s.expression.toList ++ [')']) ++ tokens more) := by
  have hname : '\\' ∉ (groupName i).toList := not_mem_groupName (by decide) (by decide) (by decide)
  have htext : segmentText s i ++ more = ("(?P<" ++ groupName i ++ ">").toList ++
      ((s.expression.toList ++ [')']) ++ more) := by
    simp [segmentText, hs]
  rw [htext, tokens_opening hname, tokens_append (not_dangling_of_closed _)]

theorem tokens_exactSegment (text : List Char) (i : Nat) (more : List Char) :
    tokens ('/' :: segmentText (.exact text) i ++ more) =
      ('/' :: text).map literalToken ++ tokens more := by
  have htext : '/' :: segmentText (.exact text) i ++ more = escape ('/' :: text) ++ more := by
    have hslash : escapeChar '/' = ['/'] := rfl
    simp [segmentText, Segment.isNamed, Segment.exact, escape_cons, hslash]
  rw [htext, tokens_escape_append]

/-- The segment stands for a part of a pattern, and can be read by itself if it is named. -/
structure Segment.Sound (ignoreCase : Bool) (s : Segment) : Prop where
  written : s.Written
  compiles : s.isNamed = true → ∃ e, Expression.compile ignoreCase (isolated s.expression) = .ok e

/-- No group of the segment switches letters back to be compared as they are. -/
def Segment.IsTame (s : Segment) : Prop :=
  s.isNamed = true → regardsCase (isolated s.expression) = false

theorem crosses_segment (hs : s.Sound ignoreCase) (hmore : Fenced (tokens more))
    (hmore' : Fenced (tokens more'))
    (h : q.Forks ignoreCase (tokens ('/' :: segmentText s i ++ more))
      (tokens ('/' :: segmentText s i ++ more')) fin fin') :
    (s.isNamed = true → groupName i ∈ fin.groups.names.map Prod.fst) ∧
      q.Crosses ignoreCase (tokens ('/' :: segmentText s i ++ more)) (tokens more) (tokens more')
        fin fin' s.IsTame := by
  have hsettled : ∀ {more}, Fenced (tokens more) → Settled ⟨0, tokens more⟩ :=
    fun hmore => hmore.settled_append List.not_mem_nil 0
  cases hn : s.isNamed with
  | false =>
    obtain ⟨text, rfl⟩ : ∃ text, s = .exact text := by
      cases hs.written with
      | exact => exact ⟨_, rfl⟩
      | placeholder => cases hn
      | constrained => cases hn
    rw [tokens_exactSegment, tokens_exactSegment] at h
    rw [tokens_exactSegment]
    exact ⟨fun hnamed => absurd hnamed Bool.false_ne_true,
      h.crosses_literals (hsettled hmore) (hsettled hmore')⟩
  | true =>
    obtain ⟨e, he⟩ := hs.compiles hn
    have htokens : ∀ more, tokens ('/' :: segmentText s i ++ more) = ['/'].map literalToken ++
        (openingTokens (groupName i).toList ++
          (tokens (s.expression.toList ++ [')']) ++ tokens more)) := by
      intro more
      rw [List.cons_append, tokens_plain (by decide), tokens_namedSegment hn]
      rfl
    rw [htokens, htokens] at h
    rw [htokens]
    have hslash : q.Crosses ignoreCase _ _ _ fin fin' s.IsTame :=
      h.crosses_literals settled_plain settled_plain
    obtain ⟨q', h', hcomes⟩ := hslash
    have hid := isIdentifier_groupName i
    have hname : '>' ∉ (groupName i).toList := not_mem_groupName (by decide) (by decide) (by decide)
    obtain ⟨hgiven, q'', h'', hcomes'⟩ := h'.crosses_group s.expression hid hname hmore hmore' he
    rw [nameOf, String.ofList_toList] at hgiven
    refine ⟨fun _ => hgiven, q'', h'', fun hcase htame => ?_⟩
    exact (hcomes hcase htame).trans (hcomes' hcase (htame hn))

theorem fenced_slash (text : List Char) : Fenced (tokens ('/' :: text)) := by
  rw [tokens_plain (by decide)]
  exact ⟨'/', by decide, rfl⟩

theorem fenced_segments (hmore : Fenced (tokens more)) :
    Fenced (tokens ((segments.flatMap fun s => '/' :: segmentText s.1 s.2) ++ more)) := by
  cases segments with
  | nil => exact hmore
  | cons s segments => exact fenced_slash _

theorem crosses_segments (hs : ∀ s ∈ segments, s.1.Sound ignoreCase) (hmore : Fenced (tokens more))
    (hmore' : Fenced (tokens more'))
    (h : q.Forks ignoreCase
      (tokens ((segments.flatMap fun s => '/' :: segmentText s.1 s.2) ++ more))
      (tokens ((segments.flatMap fun s => '/' :: segmentText s.1 s.2) ++ more')) fin fin') :
    (∀ s ∈ segments, s.1.isNamed = true → groupName s.2 ∈ fin.groups.names.map Prod.fst) ∧
      q.Crosses ignoreCase (tokens ((segments.flatMap fun s => '/' :: segmentText s.1 s.2) ++ more))
        (tokens more) (tokens more') fin fin' (∀ s ∈ segments, s.1.IsTame) := by
  induction segments generalizing q with
  | nil => exact ⟨nofun, q, h, fun _ _ => .refl⟩
  | cons s segments ih =>
    obtain ⟨hs, hrest⟩ := List.forall_mem_cons.1 hs
    simp only [List.flatMap_cons, List.append_assoc] at h ⊢
    obtain ⟨hgiven, q', h', hcomes⟩ :=
      crosses_segment hs (fenced_segments hmore) (fenced_segments hmore') h
    obtain ⟨hgiven', q'', h'', hcomes'⟩ := ih hrest h'
    refine ⟨List.forall_mem_cons.2 ⟨hgiven, hgiven'⟩, q'', h'', fun hcase htame => ?_⟩
    obtain ⟨ht, htame⟩ := List.forall_mem_cons.1 htame
    exact (hcomes hcase ht).trans (hcomes' hcase htame)

/-! ### The ending -/

/-- What follows the segments in the expression of a pattern. -/
def endingText (wildcard : Bool) : List Char :=
  (if wildcard then "(?P<_tail>(?:/.*)?)/?" else "/?").toList

theorem tokens_ending_fixed : tokens (endingText false) = [.plain '/', .plain '?'] := by
  simp [endingText, tokens]

theorem tokens_ending_wildcard : tokens (endingText true) = openingTokens tailName.toList ++
    (tokens ("(?:/.*)?".toList ++ [')']) ++ tokens (endingText false)) := by
  simp [endingText, tokens, openingTokens, tailName]

theorem fenced_ending (wildcard : Bool) : Fenced (tokens (endingText wildcard)) := by
  cases wildcard with
  | false =>
    rw [tokens_ending_fixed]
    exact ⟨'/', by decide, rfl⟩
  | true =>
    rw [tokens_ending_wildcard]
    exact ⟨'(', by decide, rfl⟩

theorem compile_tail (ignoreCase : Bool) :
    ∃ e, Expression.compile ignoreCase (isolated "(?:/.*)?") = .ok e := by
  have ha : Alone ignoreCase "(?:/.*)?".toList (tailReading ignoreCase) := alone_tail
  have hfault : lookbehindFault? (tailReading ignoreCase).frame.body = none := rfl
  exact ⟨_, compile_parenthesized (compile_of_alone ha hfault) ha.unnumbered⟩

theorem regardsCase_tail : regardsCase (isolated "(?:/.*)?") = false := by
  decide +kernel

theorem arrives_slash (h : q.AtTop ignoreCase (tokens (endingText false))) (hends : q.Ends fin) :
    q.Arrives ignoreCase [] fin True := by
  rw [tokens_ending_fixed] at h
  have hslash : q.Arrives ignoreCase [.plain '?'] fin True :=
    AtTop.arrives_literals (s := ['/']) h settled_plain hends
  exact hslash.trans fun _ h' hends' => h'.arrives_question hends'

theorem arrives_ending {wildcard : Bool} (h : q.AtTop ignoreCase (tokens (endingText wildcard)))
    (hends : q.Ends fin) :
    (wildcard = true → tailName ∈ fin.groups.names.map Prod.fst) ∧
      q.Arrives ignoreCase [] fin True := by
  cases wildcard with
  | false => exact ⟨nofun, arrives_slash h hends⟩
  | true =>
    rw [tokens_ending_wildcard] at h
    obtain ⟨e, he⟩ := compile_tail ignoreCase
    obtain ⟨hgiven, harrives⟩ := h.arrives_group "(?:/.*)?" isIdentifier_tailName (by decide)
      (fenced_ending false) he hends
    refine ⟨fun _ => hgiven, ?_⟩
    exact (harrives.mono fun _ => regardsCase_tail).trans fun _ h' hends' => arrives_slash h' hends'

/-! ### Whole expressions -/

/-- What reading the expression of a pattern leaves behind. -/
structure Passage (ignoreCase : Bool) (p : Pattern) (e : Expression) (fin : Reading) : Prop where
  node : e.node = fin.frame.body
  names : e.names = fin.groups.names
  closed : fin.outer = []
  segments : ∀ s ∈ p.segments.zipIdx, s.1.isNamed = true →
    groupName s.2 ∈ fin.groups.names.map Prod.fst
  tail : p.wildcard = true → tailName ∈ fin.groups.names.map Prod.fst
  comes : ignoreCase = true → (∀ s ∈ p.segments, s.IsTame) → ∃ source,
    (Reading.start ignoreCase source).Comes fin

/-- Compiling the expression of a pattern reads its segments and its ending. -/
theorem exists_ends_of_compile (hne : p.segments ≠ [])
    (h : Expression.compile ignoreCase (expressionText p) = .ok e) :
    ∃ fin : Reading, e.node = fin.frame.body ∧ e.names = fin.groups.names ∧ fin.outer = [] ∧
      ((Reading.start ignoreCase ⟨0, []⟩).before (tokens ((p.segments.zipIdx.flatMap fun s =>
        '/' :: segmentText s.1 s.2) ++ endingText p.wildcard))).Ends fin := by
  obtain ⟨_, fin, hrun, hfinish, he⟩ := Expression.compile_eq_ok.1 h
  obtain ⟨hout, _, _, hbody⟩ := finish_eq_ok.1 hfinish
  rw [toList_expressionText hne] at hrun
  exact ⟨fin, hbody.symm, by rw [he], hout, _, Nat.le_refl _, hrun⟩

theorem passage_of_compile (hne : p.segments ≠ []) (hs : ∀ s ∈ p.segments, s.Sound ignoreCase)
    (h : Expression.compile ignoreCase (expressionText p) = .ok e) :
    ∃ fin, Passage ignoreCase p e fin := by
  obtain ⟨fin, hnode, hnames, hout, hends⟩ := exists_ends_of_compile hne h
  obtain ⟨hgiven, q, hq, hcomes⟩ :=
    crosses_segments (fun s hmem => hs s.1 (List.fst_mem_of_mem_zipIdx hmem))
    (fenced_ending _) (fenced_ending _) ⟨rfl, hends, hends⟩
  have htop : (q.before (tokens (endingText p.wildcard))).AtTop ignoreCase
      (tokens (endingText p.wildcard)) :=
    ⟨hq.modes, rfl⟩
  obtain ⟨htail, q', hq', hends', hcomes'⟩ := arrives_ending htop hq.ends
  obtain rfl := hends'.eq hq'.rest
  refine ⟨fin, hnode, hnames, hout, hgiven, htail, fun hcase htame => ?_⟩
  have hsegments := hcomes hcase fun s hmem => htame s.1 (List.fst_mem_of_mem_zipIdx hmem)
  exact ⟨_, hsegments.trans (hcomes' hcase trivial)⟩

theorem sound_of_build (hw : ∀ s ∈ p.segments, s.Written)
    (hbuild : PathMatcher.build p caseSensitive = .ok m) :
    ∀ s ∈ p.segments, s.Sound (ignoresCase caseSensitive) := by
  intro s hs
  refine ⟨hw s hs, fun hn => ?_⟩
  have hmem : s ∈ p.segments.filter Segment.isNamed := List.mem_filter.2 ⟨hs, hn⟩
  obtain ⟨i, hi, rfl⟩ := List.mem_iff_getElem.1 hmem
  have hall := constraints_of_build hbuild
  have hi' : i < m.constraints.length := hall.length_eq ▸ hi
  exact ⟨_, PathMatcher.compile_eq_ok.1 (hall.get hi hi').2⟩

/-! ### Matching -/

theorem exists_lookup {names : List (String × Nat)} (h : name ∈ names.map Prod.fst) :
    ∃ k, names.lookup name = some k := by
  rw [← Option.isSome_iff_exists, List.lookup_isSome_iff]
  obtain ⟨entry, hentry, rfl⟩ := List.mem_map.1 h
  exact ⟨entry, hentry, beq_self_eq_true _⟩

/-- The expression of a matcher has a group for each named segment, and one for the tail. -/
theorem exists_groups (hw : ∀ s ∈ p.segments, s.Written)
    (hnil : p.segments = [] → p.wildcard = true)
    (hbuild : PathMatcher.build p caseSensitive = .ok m) :
    (∀ s ∈ p.segments.zipIdx, s.1.isNamed = true →
        ∃ k, m.expression.names.lookup (groupName s.2) = some k) ∧
      (p.wildcard = true → ∃ k, m.expression.names.lookup tailName = some k) := by
  have hcompile := (PathMatcher.build_eq_ok hbuild).2.1
  by_cases hne : p.segments = []
  · rw [compile_bare (hnil hne) hne] at hcompile
    rw [← Except.ok.inj hcompile, hne]
    exact ⟨nofun, fun _ => ⟨1, rfl⟩⟩
  · obtain ⟨fin, h⟩ := passage_of_compile hne (sound_of_build hw hbuild) hcompile
    rw [h.names]
    exact ⟨fun s hs hn => exists_lookup (h.segments s hs hn), fun hw => exists_lookup (h.tail hw)⟩

/-- A matcher that has been built has an answer to every path. -/
theorem exists_matchPath_of_written (hw : ∀ s ∈ p.segments, s.Written)
    (hnil : p.segments = [] → p.wildcard = true)
    (hbuild : PathMatcher.build p caseSensitive = .ok m)
    (path : String) : ∃ found, m.matchPath path = .ok found := by
  obtain ⟨hsegments, htail⟩ := exists_groups hw hnil hbuild
  have hpattern := (PathMatcher.build_eq_ok hbuild).2.2
  have hcapture : ∀ found name k, m.expression.names.lookup name = some k →
      m.capture found name = .ok (found.group? k) := by
    intro found name k hk
    simp only [PathMatcher.capture, hk]
  unfold PathMatcher.matchPath
  split
  · exact ⟨none, rfl⟩
  · next found _ =>
    have hvalues : ∃ values, m.captureValues found = .ok values := by
      have hentries : ∀ s ∈ m.pattern.segments.zipIdx.filter (·.1.isNamed), ∃ entry : Value × Value,
          (do return (Value.str s.1.data, textOrNone (← m.capture found (groupName s.2))) :
            Except RoutingError (Value × Value)) = .ok entry := by
        intro s hs
        rw [hpattern] at hs
        obtain ⟨hs, hn⟩ := List.mem_filter.1 hs
        obtain ⟨k, hk⟩ := hsegments s hs hn
        exact ⟨_, by rw [hcapture found _ k hk]; rfl⟩
      obtain ⟨entries, hentries⟩ := exists_forall₂ hentries
      exact ⟨Mapping.ofList entries, by rw [captureValues, mapM_eq_ok.2 hentries]; rfl⟩
    obtain ⟨values, hvalues⟩ := hvalues
    rw [hvalues, ok_bind]
    split
    · next hw =>
      obtain ⟨k, hk⟩ := htail (hpattern ▸ hw)
      exact ⟨_, by rw [hcapture found _ k hk]; rfl⟩
    · exact ⟨_, rfl⟩

theorem exists_matchPath {text : String} (hread : Pattern.read text = .ok p)
    (hbuild : PathMatcher.build p caseSensitive = .ok m) (path : String) :
    ∃ found, m.matchPath path = .ok found :=
  exists_matchPath_of_written (Pattern.written_of_read hread) (Pattern.wildcard_of_nil hread)
    hbuild path

end UrlRouting
