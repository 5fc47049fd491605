import UrlRouting.Proofs.Pattern.PlainBuild

/-! The matcher of a plain pattern splits a path in the only way there is. -/
namespace UrlRouting

open Expression Expression.Reading PathMatcher Segment

variable {text : Subject} {st t : State} {rest : List Char} {i k : Nat}
  {s : Segment} {segments : List (Segment × Nat)} {g g' : GroupTable} {ns : List Node}
  {ws : List (List Char)} {p : Pattern} {caseSensitive : Value} {m : PathMatcher} {path : String}
  {tail : Option (List Char)}

/-! ### The final state -/

theorem left_afterAll (hfits : List.Forall₂ (fun s w => s.1.Fits w) segments ws)
    (hl : Left text st (spelled ws ++ rest)) : Left text (afterAll k segments ws st) rest := by
  induction hfits generalizing k st with
  | nil => exact hl
  | cons _ _ ih =>
    rw [spelled_cons, List.cons_append, List.append_assoc] at hl
    exact ih (left_after hl.move_one)

theorem span?_afterTail_of_lt {j : Nat} (rest : List Char) (h : j < k) (st : State) :
    (afterTail k rest st).span? j = st.span? j := by
  have hne : k ≠ j := Nat.ne_of_gt h
  rw [afterTail, span?_mark_of_ne (by simp) (by simpa using hne), span?_move,
    span?_mark_of_ne (by simpa using hne) (by simp)]

theorem span?_afterTail (st : State) :
    (afterTail k rest st).span? k = some (st.pos, st.pos + rest.length) := by
  have hne : (Mark.opening k == Mark.closing k) = false := beq_eq_false_iff_ne.2 (by simp)
  simp [afterTail, State.span?, State.mark, State.move, List.lookup_cons, hne]

/-- The groups of the segments are the same in both states. -/
def SameSpans (n : Nat) (st t : State) : Prop :=
  ∀ j < n, t.span? j = st.span? j

/-- The captures of a path that has been split. -/
theorem captureValues_of_fits (hm : m.pattern = p) (hdistinct : p.names.Nodup)
    (hw : ∀ s ∈ p.segments, s.Written) (hp : p.IsPlain)
    (hlaid : Laid false p.segments.zipIdx .empty ns g)
    (hnames : g.names <+: m.expression.names) (hfits : List.Forall₂ Segment.Fits p.segments ws)
    (hl : Left text .start (spelled ws ++ rest))
    (hspans : SameSpans g.next (afterAll 1 p.segments.zipIdx ws .start) t) :
    m.captureValues ⟨text, t⟩ = .ok (p.captured ws) := by
  have hcaptured := captured_laid hlaid (fun s hs => hw s.1 (List.fst_mem_of_mem_zipIdx hs))
    (fun s hs => hp s.1 (List.fst_mem_of_mem_zipIdx hs)) (forall₂_zipIdx_iff.2 hfits) hl
  refine captureValues_eq hm hdistinct (hcaptured.imp fun s w h hn => ?_)
  obtain ⟨k, hk, hlook, span, hspan, hslice⟩ := h hn
  exact capture_eq (lookup_extended hnames hlook) ((hspans k hk).trans hspan) hslice

/-! ### Matching -/

theorem fullMatch_append {ms : List Node} : (Node.ofList (ns ++ ms)).fullMatch text =
    (Node.ofList ns).run text ((Node.ofList ms).run text (atEnd text)) .start :=
  congrFun run_append _

theorem left_path (h : path.toList = rest) : Left path.toList.toArray .start rest := by
  subst h
  exact left_start

section Laid

variable (hdistinct : p.names.Nodup) (hw : ∀ s ∈ p.segments, s.Written) (hp : p.IsPlain)
  (hne : p.segments ≠ [])
  (hlaid : Laid false p.segments.zipIdx .empty ns g)
  (hadmits : p.wildcard → g.Admits tailName (tailReading false)) (hm : m.pattern = p)
  (hnode : m.expression.node = .ofList (ns ++ ending p.wildcard g))
  (hnames : m.expression.names = endingNames p.wildcard g)

include hw hp hlaid

/-- Where the texts for the segments have been taken, only the ending is left to match. -/
theorem fullMatch_of_fits (hfits : List.Forall₂ Segment.Fits p.segments ws)
    (hl : Left text .start (spelled ws ++ rest)) (hb : AtBreak rest) :
    (Node.ofList (ns ++ ending p.wildcard g)).fullMatch text =
      (Node.ofList (ending p.wildcard g)).run text (atEnd text)
        (afterAll 1 p.segments.zipIdx ws .start) := by
  rw [fullMatch_append]
  exact run_laid_hit hlaid (fun s hs => hw s.1 (List.fst_mem_of_mem_zipIdx hs))
    (fun s hs => hp s.1 (List.fst_mem_of_mem_zipIdx hs)) slashed_ending
      (forall₂_zipIdx_iff.2 hfits) hl hb

include hdistinct hm hnode hnames

theorem matchPath_of_fixed (hwild : p.wildcard = false)
    (hfits : List.Forall₂ Segment.Fits p.segments ws)
    (hpath : path.toList = spelled ws ++ rest) (hrest : rest = [] ∨ rest = ['/']) :
    m.matchPath path = .ok (some ⟨p.captured ws, none⟩) := by
  have hl := left_path hpath
  have hb : AtBreak rest := by rcases hrest with rfl | rfl <;> simp [AtBreak]
  have hrun := fullMatch_of_fits hw hp hlaid hfits hl hb
  have hleft := left_afterAll (k := 1) (forall₂_zipIdx_iff (n := 0).2 hfits) hl
  rw [← hnode, hwild, run_ending_fixed hleft] at hrun
  obtain ⟨t, ht, hspans⟩ : ∃ t, m.expression.node.fullMatch path.toList.toArray = some t ∧
      SameSpans g.next (afterAll 1 p.segments.zipIdx ws .start) t := by
    rw [hrun]
    rcases hrest with rfl | rfl
    · exact ⟨_, rfl, fun _ _ => rfl⟩
    · exact ⟨_, rfl, fun _ _ => rfl⟩
  have hprefix : g.names <+: m.expression.names := by
    rw [hnames, hwild]
    exact List.prefix_rfl
  have hvalues := captureValues_of_fits hm hdistinct hw hp hlaid hprefix hfits hl hspans
  simp only [PathMatcher.matchPath, Expression.fullMatch?, ht, Option.map_some, hm, hwild]
  rw [hvalues]
  rfl

include hadmits

theorem matchPath_of_tail (hwild : p.wildcard = true)
    (hfits : List.Forall₂ Segment.Fits p.segments ws) (hb : AtBreak rest) (hline : '\n' ∉ rest)
    (hpath : path.toList = spelled ws ++ rest) :
    m.matchPath path = .ok (some ⟨p.captured ws, some (String.ofList rest)⟩) := by
  have hl := left_path hpath
  have hrun := fullMatch_of_fits hw hp hlaid hfits hl hb
  have hleft := left_afterAll (k := 1) (forall₂_zipIdx_iff (n := 0).2 hfits) hl
  rw [← hnode, hwild, run_ending_wildcard hleft, if_pos ⟨hb, hline⟩] at hrun
  have hprefix : g.names <+: m.expression.names := by
    rw [hnames, hwild]
    exact List.prefix_append _ _
  have hlook : m.expression.names.lookup tailName = some g.next := by
    rw [hnames, hwild, lookup_tailName (hadmits hwild)]
  have hvalues := captureValues_of_fits hm hdistinct hw hp hlaid hprefix hfits hl
    fun j hj => span?_afterTail_of_lt rest hj _
  have hgroup : Match.group? ⟨path.toList.toArray, afterTail g.next rest
      (afterAll 1 p.segments.zipIdx ws .start)⟩ g.next = some (String.ofList rest) := by
    rw [← List.append_nil rest] at hleft
    simp only [Match.group?, span?_afterTail, Option.map_some, slice_eq hleft]
  simp only [PathMatcher.matchPath, Expression.fullMatch?, hrun, Option.map_some, hm, hwild]
  rw [hvalues]
  simp only [PathMatcher.capture, hlook, hgroup]
  rfl

omit hdistinct hadmits hm hnames in
/-- A path that matches can be split. -/
theorem splits_of_fullMatch (hne : p.segments ≠ [])
    (ht : m.expression.node.fullMatch path.toList.toArray = some t) :
    ∃ ws tail, p.Splits path.toList ws tail := by
  have hl := left_path (rfl : path.toList = path.toList)
  rw [hnode, fullMatch_append] at ht
  obtain ⟨ws, rest, hpath, hfits, hb⟩ := run_laid_sound hlaid
    (fun s hs => hw s.1 (List.fst_mem_of_mem_zipIdx hs))
    (fun s hs => hp s.1 (List.fst_mem_of_mem_zipIdx hs)) slashed_ending hl ht
  have hl' := left_path hpath
  have hfits' := forall₂_zipIdx_iff.1 hfits
  have hleft := left_afterAll (k := 1) hfits hl'
  rw [← fullMatch_append, fullMatch_of_fits hw hp hlaid hfits' hl' hb] at ht
  cases hwild : p.wildcard with
  | false =>
    rw [hwild, run_ending_fixed hleft] at ht
    refine ⟨ws, none, .fixed hwild hfits' ?_⟩
    split at ht
    · next hrest => exact .inl (by simpa [hrest] using hpath)
    · split at ht
      · next hrest => exact .inr (by simpa [hrest] using hpath)
      · cases ht
  | true =>
    rw [hwild, run_ending_wildcard hleft] at ht
    split at ht
    · next h => exact ⟨ws, some rest, .tail hwild hne hfits' (atBreak_iff.1 h.1) h.2 hpath⟩
    · cases ht

end Laid

/-! ### A lone wildcard -/

theorem fullMatch_bare (hl : Left text .start rest) : bareExpression.node.fullMatch text =
    if rest.head? = some '/' then (Node.many 0 none .greedy .exceptNewline).run text
      (fun t => atEnd text (t.mark (.closing 1))) ((State.start.move 1).mark (.opening 1))
    else none :=
  run_slash hl

theorem matchPath_of_bare (hm : m.pattern = p) (hexpr : m.expression = bareExpression)
    (hwild : p.wildcard = true) (hnil : p.segments = []) (hline : '\n' ∉ rest)
    (hpath : path.toList = '/' :: rest) :
    m.matchPath path = .ok (some ⟨p.captured [], some (String.ofList rest)⟩) := by
  have hl := left_path hpath
  have hl' : Left path.toList.toArray ((State.start.move 1).mark (.opening 1)) rest :=
    hl.move_one.mark
  have hend : atEnd path.toList.toArray
      ((((State.start.move 1).mark (.opening 1)).move rest.length).mark (.closing 1)) =
      some (afterTail 1 rest (State.start.move 1)) := by
    rw [← List.append_nil rest] at hl'
    rw [atEnd_eq hl'.move.mark, if_pos rfl]
    rfl
  have hrun := fullMatch_bare hl
  rw [List.head?_cons, if_pos rfl, run_line_eq_some hl' hline hend] at hrun
  have hgroup : Match.group? ⟨path.toList.toArray, afterTail 1 rest (State.start.move 1)⟩ 1 =
      some (String.ofList rest) := by
    have hl := hl.move_one
    rw [← List.append_nil rest] at hl
    simp only [Match.group?, span?_afterTail, Option.map_some, slice_eq hl]
  have hlook : bareExpression.names.lookup tailName = some 1 := rfl
  simp only [PathMatcher.matchPath, Expression.fullMatch?, hexpr, hrun, Option.map_some, hm, hwild,
    captureValues, hnil, PathMatcher.capture, hlook, hgroup]
  simp [Pattern.captured, hnil]
  rfl

theorem splits_of_fullMatch_bare (hwild : p.wildcard = true) (hnil : p.segments = [])
    (ht : bareExpression.node.fullMatch path.toList.toArray = some t) :
    ∃ ws tail, p.Splits path.toList ws tail := by
  rw [fullMatch_bare (left_path rfl)] at ht
  split at ht
  · next hhead =>
    obtain ⟨rest, hpath⟩ := List.head?_eq_some_iff.1 hhead
    refine ⟨[], some rest, .bare hwild hnil (fun hline => ?_) hpath⟩
    have hl := left_path hpath
    rw [run_line_eq_none hl.move_one.mark hline] at ht
    · cases ht
    · intro s rest hl hmem
      rw [atEnd_eq hl.mark, if_neg (List.ne_nil_of_mem hmem)]
  · cases ht

/-! ### Plain patterns -/

/-- What a matcher does that splits paths by a pattern. -/
structure PathMatcher.Splits (m : PathMatcher) (p : Pattern) : Prop where
  hit : ∀ {path : String} {ws tail}, p.Splits path.toList ws tail →
    m.matchPath path = .ok (some ⟨p.captured ws, tail.map String.ofList⟩)
  miss : ∀ {path : String}, (¬∃ ws tail, p.Splits path.toList ws tail) →
    m.matchPath path = .ok none

theorem matchPath_eq_none {e : Expression} (he : m.expression = e)
    (h : ∀ t, e.node.fullMatch path.toList.toArray = some t → False) :
    m.matchPath path = .ok none := by
  have hnone : m.expression.fullMatch? path = none := by
    rw [Expression.fullMatch?, he]
    cases ht : e.node.fullMatch path.toList.toArray with
    | none => rfl
    | some t => exact absurd ht fun ht => h t ht
  simp only [PathMatcher.matchPath, hnone]

/-- The matcher of a plain pattern splits paths by it. -/
theorem build_splits (hcase : caseSensitive.truthy = true) (hdistinct : p.names.Nodup)
    (hw : ∀ s ∈ p.segments, s.Written) (hp : p.IsPlain)
    (hwild : p.segments = [] → p.wildcard = true) :
    ∃ m, PathMatcher.build p caseSensitive = .ok m ∧ m.pattern = p ∧
      m.caseSensitive = caseSensitive ∧
      m.constraints = (p.segments.filter Segment.isNamed).map (fun s => (s.data, constraintOf s)) ∧
      m.Splits p := by
  by_cases hne : p.segments = []
  · have hwild := hwild hne
    refine ⟨_, build_bare hcase hwild hne, rfl, rfl, by simp [hne], ?_, ?_⟩
    · intro path ws tail h
      cases h with
      | fixed hfixed => simp [hwild] at hfixed
      | tail _ hne' => exact absurd hne hne'
      | bare _ _ hline hpath => exact matchPath_of_bare rfl rfl hwild hne hline hpath
    · intro path hno
      exact matchPath_eq_none rfl fun t ht => hno (splits_of_fullMatch_bare hwild hne ht)
  · obtain ⟨ns, g, hlaid, hadmits, hbuild⟩ := build_plain hcase hw hp hne
    refine ⟨_, hbuild, rfl, rfl, rfl, ?_, ?_⟩
    · intro path ws tail h
      cases h with
      | fixed hfixed hfits hpath =>
        rcases hpath with hpath | hpath
        · exact matchPath_of_fixed hdistinct hw hp hlaid rfl rfl rfl hfixed hfits
            (by simpa using hpath)
            (.inl rfl)
        · exact matchPath_of_fixed hdistinct hw hp hlaid rfl rfl rfl hfixed hfits hpath (.inr rfl)
      | tail hwild _ hfits hb hline hpath =>
        exact matchPath_of_tail hdistinct hw hp hlaid hadmits rfl rfl rfl hwild hfits
          (atBreak_iff.2 hb) hline hpath
      | bare _ hnil => exact absurd hnil hne
    · intro path hno
      exact matchPath_eq_none rfl fun t ht => hno (splits_of_fullMatch hw hp hlaid rfl hne ht)

/-- Building the case-sensitive matcher of a plain pattern succeeds. It matches the paths that can
be split by the pattern, in one way each, and captures the texts of the named segments and the
tail. -/
theorem matchPath_iff_splits {pattern : String} (hread : Pattern.read pattern = .ok p)
    (hplain : p.IsPlain) (hcase : caseSensitive.truthy = true) :
    ∃ m, PathMatcher.build p caseSensitive = .ok m ∧ ∀ path : String,
      (∀ ws tail, p.Splits path.toList ws tail →
        m.matchPath path = .ok (some ⟨p.captured ws, tail.map String.ofList⟩)) ∧
      ((¬∃ ws tail, p.Splits path.toList ws tail) → m.matchPath path = .ok none) ∧
      (∀ ws tail ws' tail', p.Splits path.toList ws tail → p.Splits path.toList ws' tail' →
        ws' = ws ∧ tail' = tail) := by
  have hw := Pattern.written_of_read hread
  obtain ⟨m, hbuild, _, _, _, hsplits⟩ :=
    build_splits hcase (Pattern.nodup_names hread) hw hplain (Pattern.wildcard_of_nil hread)
  exact ⟨m, hbuild, fun path => ⟨fun _ _ => hsplits.hit, hsplits.miss,
    fun _ _ _ _ => splits_unique hw⟩⟩

theorem matchPath_user : ∃ m, PathMatcher.build userPattern (.bool true) = .ok m ∧
    m.matchPath "/user/42/x" = .ok (some ⟨[(.str "id", .str "42")], some "/x"⟩) := by
  obtain ⟨m, hbuild, h⟩ := matchPath_iff_splits read_userPattern isPlain_userPattern
    (show (Value.bool true).truthy = true from rfl)
  exact ⟨m, hbuild, (h "/user/42/x").1 _ _ splits_userPattern⟩

end UrlRouting
