import UrlRouting.Proofs.Pattern.Capture

/-! The matcher of a plain pattern can always be built. -/
namespace UrlRouting

open Expression Expression.Reading PathMatcher Segment

variable {text : Subject} {st t : State} {rest : List Char} {i k : Nat}
  {s : Segment} {segments : List (Segment × Nat)} {g g' : GroupTable} {ns : List Node}
  {ws : List (List Char)} {p : Pattern} {caseSensitive : Value}

/-- All segments of the pattern are plain. -/
def Pattern.IsPlain (p : Pattern) : Prop :=
  ∀ s ∈ p.segments, s.IsPlain

/-! ### Building -/

theorem names_laid (h : Laid false segments g ns g') (hw : ∀ s ∈ segments, s.1.Written)
    (hp : ∀ s ∈ segments, s.1.IsPlain) :
    ∀ n ∈ g'.names, n ∈ g.names ∨ ∃ s ∈ segments, n.1 = groupName s.2 := by
  induction h with
  | nil => exact fun n hn => .inl hn
  | exact hs h ih =>
    intro n hn
    rcases ih (fun s hs => hw s (List.mem_cons_of_mem _ hs))
      (fun s hs => hp s (List.mem_cons_of_mem _ hs)) n hn with hn | ⟨s, hs, hn⟩
    · exact .inl hn
    · exact .inr ⟨s, List.mem_cons_of_mem _ hs, hn⟩
  | @named s i segments g g' ns a hs ha hadmits h ih =>
    intro n hn
    obtain ⟨length, ha'⟩ := alone_of_plain (hw _ List.mem_cons_self) (hp _ List.mem_cons_self) hs
    obtain rfl := alone_unique ha ha'
    rcases ih (fun s hs => hw s (List.mem_cons_of_mem _ hs))
      (fun s hs => hp s (List.mem_cons_of_mem _ hs)) n hn with hn | ⟨s, hs, hn⟩
    · simp only [GroupTable.grouped, repetition, GroupTable.empty, List.map_nil, List.append_nil]
        at hn
      rcases List.mem_append.1 hn with hn | hn
      · exact .inl hn
      · rw [List.mem_singleton.1 hn]
        exact .inr ⟨_, List.mem_cons_self, rfl⟩
    · exact .inr ⟨s, List.mem_cons_of_mem _ hs, hn⟩

theorem lookup_eq_none_of_ne {names : List (String × Nat)} {name : String}
    (h : ∀ n ∈ names, n.1 ≠ name) : names.lookup name = none := by
  rw [List.lookup_eq_none_iff]
  intro n hn
  simpa using (h n hn).symm

/-- No name is given twice, since each segment has a number of its own. -/
theorem not_clashes (hw : ∀ s ∈ p.segments, s.Written) (hp : p.IsPlain) : ¬Clashes false p := by
  have hw' : ∀ s ∈ p.segments.zipIdx, s.1.Written :=
    fun s hs => hw s.1 (List.fst_mem_of_mem_zipIdx hs)
  have hp' : ∀ s ∈ p.segments.zipIdx, s.1.IsPlain :=
    fun s hs => hp s.1 (List.fst_mem_of_mem_zipIdx hs)
  rintro (⟨@⟨former, later, s, i, ns, g', a, hsegments, hlaid, hs, ha, hno⟩⟩ |
    @⟨ns, g, hlaid, _, hno⟩)
  · have hmem : ∀ x ∈ former, x ∈ p.segments.zipIdx := by
      intro x hx
      rw [hsegments]
      exact List.mem_append_left _ hx
    have hself : (s, i) ∈ p.segments.zipIdx := by
      rw [hsegments]
      simp
    obtain ⟨length, ha'⟩ := alone_of_plain (hw' _ hself) (hp' _ hself) hs
    obtain rfl := alone_unique ha ha'
    refine hno ⟨lookup_eq_none_of_ne fun n hn => ?_, by simp [repetition, GroupTable.empty]⟩
    rcases names_laid hlaid (fun x hx => hw' x (hmem x hx)) (fun x hx => hp' x (hmem x hx)) n hn
      with hn | ⟨x, hx, hn⟩
    · simp [GroupTable.empty] at hn
    · rw [hn]
      intro heq
      have hindex : (p.segments.zipIdx.map Prod.snd).Nodup := by
        rw [List.zipIdx_map_snd]
        exact List.nodup_range'
      rw [hsegments, List.map_append, List.nodup_append] at hindex
      refine hindex.2.2 x.2 (List.mem_map_of_mem hx) i (by simp) ?_
      exact groupName_injective heq
  · refine hno ⟨lookup_eq_none_of_ne fun n hn => ?_, by simp [tailReading, GroupTable.empty]⟩
    rcases names_laid hlaid hw' hp' n hn with hn | ⟨x, _, hn⟩
    · simp [GroupTable.empty] at hn
    · rw [hn]
      exact groupName_ne_tailName _

theorem lookbehindFault?_ofList (h : ∀ n ∈ ns, lookbehindFault? n = none) :
    lookbehindFault? (.ofList ns) = none := by
  induction ns with
  | nil => rfl
  | cons n ns ih =>
    obtain ⟨hn, hns⟩ := List.forall_mem_cons.1 h
    change lookbehindFault? (.seq n (.ofList ns)) = none
    rw [lookbehindFault?, hn]
    exact ih hns

theorem lookbehindFault?_laid (h : Laid false segments g ns g')
    (hw : ∀ s ∈ segments, s.1.Written) (hp : ∀ s ∈ segments, s.1.IsPlain) :
    ∀ n ∈ ns, lookbehindFault? n = none := by
  induction h with
  | nil => simp
  | exact hs h ih =>
    refine List.forall_mem_append.2 ⟨List.forall_mem_cons.2 ⟨rfl, fun n hn => ?_⟩,
      ih (fun s hs => hw s (List.mem_cons_of_mem _ hs))
        fun s hs => hp s (List.mem_cons_of_mem _ hs)⟩
    obtain ⟨c, _, rfl⟩ := List.mem_map.1 hn
    rfl
  | named hs ha hadmits h ih =>
    obtain ⟨length, ha'⟩ := alone_of_plain (hw _ List.mem_cons_self) (hp _ List.mem_cons_self) hs
    obtain rfl := alone_unique ha ha'
    exact List.forall_mem_cons.2 ⟨rfl, List.forall_mem_cons.2 ⟨rfl,
      ih (fun s hs => hw s (List.mem_cons_of_mem _ hs))
        fun s hs => hp s (List.mem_cons_of_mem _ hs)⟩⟩

/-- The expression of a plain pattern with segments. -/
theorem compile_plain (hw : ∀ s ∈ p.segments, s.Written) (hp : p.IsPlain)
    (hne : p.segments ≠ []) :
    ∃ ns g, Laid false p.segments.zipIdx .empty ns g ∧
      (p.wildcard → g.Admits tailName (tailReading false)) ∧
      Expression.compile false (expressionText p) = .ok ⟨expressionText p,
        .ofList (ns ++ ending p.wildcard g), endingNames p.wildcard g⟩ := by
  have hread : ∀ s ∈ p.segments, Readable false s :=
    fun s hs => readable_of_plain (hw s hs) (hp s hs)
  rcases compile_expressionText hne hread with ⟨ns, g, hlaid, hadmits, hcompile⟩ | ⟨hclash, _⟩
  · refine ⟨ns, g, hlaid, hadmits, ?_⟩
    have hns := lookbehindFault?_laid hlaid
      (fun s hs => hw s.1 (List.fst_mem_of_mem_zipIdx hs))
      (fun s hs => hp s.1 (List.fst_mem_of_mem_zipIdx hs))
    have hend : ∀ n ∈ ending p.wildcard g, lookbehindFault? n = none := by
      cases p.wildcard <;> simp [ending, lookbehindFault?, tailBody, slash, optionalSlash]
    rw [hcompile, lookbehindFault?_ofList (List.forall_mem_append.2 ⟨hns, hend⟩)]
  · exact absurd hclash (not_clashes hw hp)

/-- The expression of a lone wildcard. -/
def bareExpression : Expression :=
  ⟨"/(?P<_tail>.*)", .ofList [slash, .group 1 (.ofList [.many 0 none .greedy .exceptNewline])],
    [(tailName, 1)]⟩

/-- All that is left of a line, as it is read by itself. -/
def lineReading (ignoreCase : Bool) : Reading :=
  ⟨⟨2, []⟩, .empty, [],
    ⟨.whole, 0, .initial ignoreCase, [],
      [.piece ⟨.many 0 none .greedy .exceptNewline, .repetition⟩]⟩, []⟩

theorem alone_line (ignoreCase : Bool) : Alone ignoreCase ".*".toList (lineReading ignoreCase) where
  settled := by simp [tokens, Source.Settled]
  ran := by cases ignoreCase <;> cbv
  closed := rfl
  unnumbered := by cases ignoreCase <;> cbv

theorem compile_bare {ignoreCase : Bool} (hwild : p.wildcard = true) (hnil : p.segments = []) :
    Expression.compile ignoreCase (expressionText p) = .ok bareExpression := by
  have htext : expressionText p = "/(?P<_tail>.*)" := by
    simp [expressionText, hwild, hnil]
  have htokens : tokens "/(?P<_tail>.*)".toList =
      [.plain '/'] ++ (openingTokens tailName.toList ++ (tokens ".*".toList ++ [.plain ')'])) := by
    simp [tokens, openingTokens, tailName]
  have hadmits : GroupTable.empty.Admits (nameOf tailName.toList) (lineReading ignoreCase) :=
    ⟨rfl, by simp [lineReading, GroupTable.empty]⟩
  have hadds := (adds_slash ignoreCase .empty).then
    (adds_group GroupTable.sound_empty (alone_line ignoreCase) isIdentifier_tailName (by decide)
      hadmits) fun _ _ => settled_group
  obtain ⟨pos, hreads⟩ := hadds 0 [] [] (by simp [Source.Settled])
  rw [List.append_nil, ← htokens] at hreads
  have hset : Source.Settled ⟨0, tokens "/(?P<_tail>.*)".toList⟩ := by
    simp [tokens, Source.Settled]
  rw [htext, compile_of_reads hreads hset]
  rfl

/-! ### Constraints -/

/-- The expression of a named segment by itself. -/
def constraintOf (s : Segment) : Expression :=
  ⟨isolated s.expression, .ofList [.many 1 none .greedy s.test], []⟩

theorem compile_constraint (hw : s.Written) (hp : s.IsPlain) (hn : s.isNamed) :
    Expression.compile false (isolated s.expression) = .ok (constraintOf s) := by
  obtain ⟨length, ha⟩ := alone_of_plain hw hp hn
  have := compile_of_alone ha rfl
  exact compile_parenthesized this ha.unnumbered

theorem constraintsOf_plain (hcase : caseSensitive.truthy = true)
    (hw : ∀ s ∈ p.segments, s.Written) (hp : p.IsPlain) :
    constraintsOf caseSensitive p =
      .ok ((p.segments.filter Segment.isNamed).map fun s => (s.data, constraintOf s)) := by
  unfold constraintsOf
  have hall : ∀ s ∈ p.segments.filter Segment.isNamed,
      PathMatcher.compile caseSensitive (isolated s.expression) = .ok (constraintOf s) := by
    intro s hs
    obtain ⟨hs, hn⟩ := List.mem_filter.1 hs
    simp only [PathMatcher.compile, ignoresCase, hcase, Bool.not_true,
      compile_constraint (hw s hs) (hp s hs) hn]
  generalize p.segments.filter Segment.isNamed = named at hall
  induction named with
  | nil => rfl
  | cons s named ih =>
    obtain ⟨hs, hall⟩ := List.forall_mem_cons.1 hall
    rw [List.mapM_cons, hs, ih hall]
    rfl

/-- The matcher of a plain pattern with segments. -/
theorem build_plain (hcase : caseSensitive.truthy = true) (hw : ∀ s ∈ p.segments, s.Written)
    (hp : p.IsPlain) (hne : p.segments ≠ []) :
    ∃ ns g, Laid false p.segments.zipIdx .empty ns g ∧
      (p.wildcard → g.Admits tailName (tailReading false)) ∧
      PathMatcher.build p caseSensitive = .ok ⟨p, caseSensitive, ⟨expressionText p,
        .ofList (ns ++ ending p.wildcard g), endingNames p.wildcard g⟩,
        (p.segments.filter Segment.isNamed).map fun s => (s.data, constraintOf s)⟩ := by
  obtain ⟨ns, g, hlaid, hadmits, hcompile⟩ := compile_plain hw hp hne
  refine ⟨ns, g, hlaid, hadmits, ?_⟩
  rw [PathMatcher.build, constraintsOf_plain hcase hw hp, ok_bind]
  simp only [PathMatcher.compile, ignoresCase, hcase, Bool.not_true, hcompile, ok_bind]
  rfl

theorem build_bare (hcase : caseSensitive.truthy = true) (hwild : p.wildcard = true)
    (hnil : p.segments = []) :
    PathMatcher.build p caseSensitive = .ok ⟨p, caseSensitive, bareExpression, []⟩ := by
  have hconstraints : constraintsOf caseSensitive p = .ok [] := by
    rw [constraintsOf, hnil]
    rfl
  rw [PathMatcher.build, hconstraints, ok_bind]
  simp only [PathMatcher.compile, ignoresCase, hcase, Bool.not_true, compile_bare hwild hnil,
    ok_bind]
  rfl

/-! ### A plain pattern -/

/-- A literal, digits under a name, and a tail. -/
def userPattern : Pattern :=
  ⟨[.exact "user".toList, ⟨.constrained, "id", "\\d+"⟩], true⟩

theorem read_userPattern : Pattern.read "/user/\\d+:id/*" = .ok userPattern := by
  have hparts : Pattern.parts "/user/\\d+:id/*".toList =
      ["user".toList, "\\d+:id".toList, ['*']] := by
    decide
  have huser : Segment.ofPart "user".toList = .ok (.exact "user".toList) := by
    have hcut : cutNamed? "user".toList = none := by decide
    rw [Segment.ofPart, hcut]
  have hid : Segment.ofPart "\\d+:id".toList = .ok ⟨.constrained, "id", "\\d+"⟩ := by
    have hcut : cutNamed? "\\d+:id".toList = some ("\\d+".toList, "id".toList) := by decide
    have htext : String.ofList (unbracketed "\\d+".toList) = "\\d+" := by decide
    have hcompile : Expression.compile false (isolated "\\d+") =
        .ok (constraintOf ⟨.constrained, "id", "\\d+"⟩) := by
      cbv
    have hofPart : Segment.ofPart "\\d+:id".toList = constrained "\\d+".toList "id".toList := by
      rw [Segment.ofPart, hcut]
      rfl
    have hname : String.ofList "id".toList = "id" := by decide
    rw [hofPart, constrained, htext, hname, hcompile]
  have hsegments : Pattern.readParts "/user/\\d+:id/*" [] ["user".toList, "\\d+:id".toList] =
      .ok userPattern.segments := by
    simp only [Pattern.readParts, huser, hid, ok_bind]
    rfl
  have hlast : (["user".toList, "\\d+:id".toList, ['*']].getLast? == some ['*']) = true := by decide
  unfold Pattern.read
  rw [if_neg (by decide), if_neg (by decide), hparts]
  simp only [hlast, if_true, List.dropLast, hsegments]
  rfl

theorem names_userPattern : userPattern.names = ["id"] := rfl

theorem isPlain_userPattern : userPattern.IsPlain := by
  intro s hs
  simp only [userPattern, List.mem_cons, List.not_mem_nil, or_false] at hs
  rcases hs with rfl | rfl
  · intro hk
    cases hk
  · exact fun _ => .inl rfl

theorem splits_userPattern :
    userPattern.Splits "/user/42/x".toList ["user".toList, "42".toList] (some "/x".toList) := by
  refine .tail rfl (by simp [userPattern]) (.cons rfl (.cons ⟨by decide, ?_⟩ .nil)) (.inr rfl)
    (by decide) rfl
  exact List.all_eq_true.1 (by decide)

theorem read_fixedPattern : Pattern.read "/x" = .ok ⟨[.exact ['x']], false⟩ := rfl

/-- Literals are all that a pattern without names has. -/
theorem isPlain_of_names_eq_nil (h : p.names = []) : p.IsPlain := by
  intro s hs hconstrained
  have hnamed : s.isNamed := by simp [Segment.isNamed, hconstrained]
  have hmem : s.data ∈ p.names := List.mem_map_of_mem (List.mem_filter.2 ⟨hs, hnamed⟩)
  rw [h] at hmem
  cases hmem

end UrlRouting
