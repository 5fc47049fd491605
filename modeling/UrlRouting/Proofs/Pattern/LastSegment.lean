import UrlRouting.Proofs.Expression.Forward
import UrlRouting.Proofs.Pattern.Enforcement

/-! Patterns of literal segments and a named one after them. What the named segment accepts by
itself it takes from the end of a path, if its expression does not look back. -/
namespace UrlRouting

open Expression Expression.Reading PathMatcher Segment

variable {text : Subject} {st t u : State} {front w : List Char} {k : Nat} {n : Node} {s : Segment}
  {exacts : List Segment} {segments : List (Segment × Nat)} {g g' : GroupTable} {ns : List Node}
  {i : Nat}

namespace Segment

/-- The expression of the segment, by itself, does not look at what is before the text. -/
def NeverLooksBack (ignoreCase : Bool) (s : Segment) (text : List Char) : Prop :=
  ∃ e, Expression.compile ignoreCase s.expression = .ok e ∧ e.node.NeverLooksBack text

/-- The expression of the segment has nothing in it that could look back. -/
def isForward (ignoreCase filled : Bool) (s : Segment) : Bool :=
  match Expression.compile ignoreCase s.expression with
  | .ok e => e.node.isForward filled
  | .error _ => false

theorem neverLooksBack_of_isForward {ignoreCase : Bool}
    (h : s.isForward ignoreCase (!w.isEmpty) = true) :
    s.NeverLooksBack ignoreCase w := by
  rw [isForward] at h
  cases he : Expression.compile ignoreCase s.expression with
  | ok e =>
    rw [he] at h
    exact ⟨e, he, Node.neverLooksBack_of_isForward h⟩
  | error err =>
    rw [he] at h
    cases h

end Segment

/-! ### Layout -/

/-- What stands in a path before the last segment. -/
def frontOf (exacts : List Segment) : List Char :=
  spelled (exacts.map fun s => s.data.toList) ++ ['/']

def literalNodes (cs : List Char) : List Node :=
  cs.map fun c => .char (.literal c.toNat false .exact)

theorem laid_lastSegment (h : Laid false (segments ++ [(s, i)]) g ns g')
    (hexact : ∀ x ∈ segments, x.1.isNamed = false) (hs : s.isNamed = true) :
    ∃ a, Alone false s.expression.toList a ∧ g.Admits (groupName i) a ∧
      g' = g.grouped (groupName i) a ∧
      ns = literalNodes (frontOf (segments.map Prod.fst)) ++
        [.group g.next (a.frame.body.renumber g.next)] := by
  induction segments generalizing ns with
  | nil =>
    cases h with
    | exact hn => simp [hs] at hn
    | named _ ha hadmits h =>
      cases h
      exact ⟨_, ha, hadmits, rfl, rfl⟩
  | cons x segments ih =>
    obtain ⟨hx, hrest⟩ := List.forall_mem_cons.1 hexact
    cases h with
    | named hn => simp [hx] at hn
    | @exact x _ _ _ _ _ _ h =>
      obtain ⟨a, ha, hadmits, hg, rfl⟩ := ih h hrest
      refine ⟨a, ha, hadmits, hg, ?_⟩
      have hfront : literalNodes (frontOf (x :: segments.map Prod.fst)) =
          slash :: x.data.toList.map (fun c => (charPiece false c).node) ++
            literalNodes (frontOf (segments.map Prod.fst)) := by
        rw [frontOf, List.map_cons, spelled_cons, literalNodes, ← List.cons_append,
          List.append_assoc, List.map_append]
        rfl
      rw [List.map_cons, hfront, List.append_assoc]

/-! ### Matching -/

section Node

variable {body : Node}

/-- A group after literals, and perhaps a slash after it. -/
def lastNode (front : List Char) (k : Nat) (body : Node) : Node :=
  .ofList (literalNodes front ++ [.group k body, optionalSlash])

theorem fullMatch_lastNode : (lastNode front k body).fullMatch text =
    if front <+: text.toList then
      (Node.group k body).run text (optionalSlash.run text (atEnd text)) ⟨front.length, []⟩
    else none := by
  have happend : (lastNode front k body).fullMatch text =
      (Node.ofList (literalNodes front)).run text
      ((Node.ofList [.group k body, optionalSlash]).run text (atEnd text)) .start :=
    congrFun run_append _
  rw [happend, literalNodes, run_literals left_start]
  simp [State.start, State.move]
  rfl

/-- The group takes what is left of the text, or all of it but a slash at its end. -/
theorem span?_lastNode (hk : k ∉ body.indices)
    (h : (lastNode front k body).fullMatch text = some t) :
    front <+: text.toList ∧ ∃ last, front.length ≤ last ∧ t.span? k = some (front.length, last) ∧
      (last = text.size ∨ last + 1 = text.size ∧ text[last]? = some '/') := by
  rw [fullMatch_lastNode] at h
  split at h
  · next hfront =>
    obtain ⟨u, hu, hend⟩ := exists_way h
    have hspan := span?_group hk hu
    have hstart : (⟨front.length, []⟩ : State).Within text :=
      ⟨by simpa using hfront.length_le, by simp⟩
    have hleft := left_drop (within_ways hu hstart).pos
    have hsize := hleft.size_eq
    rw [run_optionalSlash hleft] at hend
    refine ⟨hfront, u.pos, pos_le_ways hu, ?_⟩
    split at hend
    · next hnil =>
      rw [hnil] at hsize
      rw [← Option.some.inj hend]
      exact ⟨hspan, .inl hsize.symm⟩
    · split at hend
      · next hslash =>
        have hget := hleft.getElem?
        rw [hslash] at hsize hget
        rw [← Option.some.inj hend]
        exact ⟨hspan, .inr ⟨hsize.symm, hget⟩⟩
      · cases hend
  · cases h

/-- What is matched alone is matched after the literals. -/
theorem isSome_lastNode (hslash : front.getLast? = some '/') (htext : text.toList = front ++ w)
    (hn : n.NeverLooksBack w) (h : (n.fullMatch w.toArray).isSome) :
    ((lastNode front 1 (n.renumber 1)).fullMatch text).isSome := by
  obtain ⟨front, rfl⟩ := List.getLast?_eq_some_iff.1 hslash
  have hlength : front.length + 1 ≤ text.size := by
    rw [← Array.length_toList, htext]
    simp
  have harray : text = (front ++ '/' :: w).toArray := by
    rw [← Array.toList_inj, htext]
    simp
  obtain ⟨v, hv, hvend⟩ := hn.exists_way harray h
  -- In the group the expression goes on from a state in which the group has been entered.
  let st : State := ⟨front.length + 1, []⟩
  have hformer : ∀ e ∈ (st.mark (.opening 1)).marks, 1 ≤ e.1.index ∧ e.1.index ≤ 1 := by
    simp [st, State.mark, Mark.index]
  have hwithin : ∀ e ∈ (st.mark (.opening 1)).marks, e.2 ≤ text.size := by
    simpa [st, State.mark] using hlength
  obtain ⟨t, ht, hend⟩ := exists_way_renumber hformer hwithin hlength hv
  have hgroup : t.mark (.closing 1) ∈ (Node.group 1 (n.renumber 1)).ways text st :=
    List.mem_map_of_mem ht
  have hlen : (⟨(front ++ ['/']).length, []⟩ : State) = st := by simp [st]
  rw [fullMatch_lastNode, if_pos (by rw [htext]; exact List.prefix_append _ _), hlen]
  refine isSome_run hgroup ?_
  have hdone : Left text (t.mark (.closing 1)) [] :=
    ⟨text.toList, (List.append_nil _).symm, (hend.trans hvend).trans Array.length_toList.symm⟩
  rw [run_optionalSlash hdone]
  rfl

end Node

/-! ### Matchers -/

/-- A matcher of literal segments and a named one, of which the expression alone is `n`. -/
structure PathMatcher.EndsNamed (m : PathMatcher) (exacts : List Segment) (s : Segment) (n : Node) :
    Prop where
  segments : m.pattern.segments = exacts ++ [s]
  fixed : m.pattern.wildcard = false
  exact : ∀ e ∈ exacts, e.isNamed = false
  distinct : m.pattern.names.Nodup
  node : m.expression.node = lastNode (frontOf exacts) 1 (n.renumber 1)
  indices : 1 ∉ (n.renumber 1).indices
  names : m.expression.names.lookup (groupName exacts.length) = some 1
  has : m.hasSegment s.data = true
  accepts : ∀ v : String, m.accepts s.data v = (n.fullMatch v.toList.toArray).isSome
  looks : ∀ text, s.NeverLooksBack false text → n.NeverLooksBack text

theorem endsNamed_of_build {p : Pattern} {m : PathMatcher} {caseSensitive : Value}
    (hw : ∀ s ∈ p.segments, s.Written) (hdistinct : p.names.Nodup)
    (hbuild : PathMatcher.build p caseSensitive = .ok m) (hcase : ignoresCase caseSensitive = false)
    (hsegments : p.segments = exacts ++ [s]) (hfixed : p.wildcard = false)
    (hexact : ∀ e ∈ exacts, e.isNamed = false) (hs : s.isNamed = true)
    (hself : s.isSelfContained false = true) : ∃ n, m.EndsNamed exacts s n := by
  have hmem : s ∈ p.segments := by simp [hsegments]
  have hall : p.IsSelfContained (ignoresCase caseSensitive) := by
    intro x hx hk
    rw [hsegments, List.mem_append, List.mem_singleton] at hx
    rcases hx with hx | rfl
    · have := hexact x hx
      simp [isNamed, hk] at this
    · rwa [hcase]
  obtain ⟨ns, g, hlaid, _, hexpression⟩ := laid_of_build hw hall hbuild (by simp [hsegments])
  rw [hcase, hsegments, List.zipIdx_append] at hlaid
  obtain ⟨a, ha, hadmits, rfl, rfl⟩ := laid_lastSegment hlaid
    (fun x hx => hexact x.1 (List.fst_mem_of_mem_zipIdx hx)) hs
  obtain ⟨e, he, hnumbered⟩ := exists_of_selfContained hself
  obtain ⟨b, hb, _, rfl⟩ := alone_of_compile he hnumbered
  obtain rfl := alone_unique ha hb
  rw [hfixed] at hexpression
  have hpattern := (PathMatcher.build_eq_ok hbuild).2.2
  have hconstraint := constraint?_of_build hbuild hdistinct hmem hs (hcase ▸ he) (hcase ▸ hnumbered)
  refine ⟨a.frame.body, ?_⟩
  constructor
  · exact hpattern ▸ hsegments
  · exact hpattern ▸ hfixed
  · exact hexact
  · exact hpattern ▸ hdistinct
  · rw [hexpression, ending, if_neg (by simp), List.append_assoc, List.zipIdx_map_fst]
    rfl
  · rw [Node.indices_renumber]
    intro h
    obtain ⟨j, hj, heq⟩ := List.mem_map.1 h
    rw [renumber_of_pos (ha.indices j hj).1] at heq
    have := (ha.indices j hj).1
    omega
  · rw [hexpression, endingNames, if_neg (by simp)]
    rw [Nat.zero_add] at hadmits ⊢
    exact lookup_grouped hadmits
  · rw [PathMatcher.hasSegment, hconstraint]
    rfl
  · intro v
    rw [PathMatcher.accepts, hconstraint]
    simp [matchesAll, fullMatch?]
  · rintro text ⟨e', he', hnever⟩
    obtain rfl := Except.ok.inj (he.symm.trans he')
    exact hnever

namespace PathMatcher.EndsNamed

variable {m : PathMatcher} {path : String} {span : Nat × Nat}

/-- The texts for the segments: the literals, and then the text for the named one. -/
def texts (exacts : List Segment) (w : List Char) : List (List Char) :=
  exacts.map (fun s => s.data.toList) ++ [w]

theorem spelled_texts : spelled (texts exacts w) = frontOf exacts ++ w := by
  simp [spelled, texts, frontOf]

theorem length_texts (h : m.EndsNamed exacts s n) :
    m.pattern.segments.length = (texts exacts w).length := by
  simp [h.segments, texts]

theorem mem_zip_texts (h : m.EndsNamed exacts s n) :
    (s, w) ∈ m.pattern.segments.zip (texts exacts w) := by
  rw [h.segments, texts, List.zip_append (by simp)]
  simp

/-- The named segment gets what its group holds. -/
theorem matchPath_eq (h : m.EndsNamed exacts s n)
    (ht : m.expression.node.fullMatch path.toList.toArray = some t)
    (hspan : t.span? 1 = some span) :
    m.matchPath path = .ok (some ⟨m.pattern.captured
      (texts exacts ((path.toList.drop span.1).take (span.2 - span.1))), none⟩) := by
  have hliterals : List.Forall₂ (fun s _ => s.isNamed = false) exacts
      (exacts.map fun s => s.data.toList) :=
    List.forall₂_map_right_iff.2 (List.forall₂_same.2 h.exact)
  have hvalues : m.captureValues ⟨path.toList.toArray, t⟩ = .ok (m.pattern.captured
      (texts exacts ((path.toList.drop span.1).take (span.2 - span.1)))) := by
    refine captureValues_eq rfl h.distinct ?_
    rw [h.segments, List.zipIdx_append, texts]
    refine List.rel_append ((forall₂_zipIdx_iff.2 hliterals).imp fun x w hx hn => ?_)
      (.cons (fun _ => ?_) .nil)
    · simp [hx] at hn
    · rw [Nat.zero_add]
      exact capture_eq h.names hspan rfl
  simp only [PathMatcher.matchPath, Expression.fullMatch?, ht, Option.map_some, h.fixed]
  rw [hvalues]
  rfl

/-- Where a path is matched, the named segment has got a text that stands in the path after the
literals. -/
theorem prefix_of_matchPath {c : Captures} (h : m.EndsNamed exacts s n)
    (hc : m.matchPath path = .ok (some c)) :
    ∃ w, c.values = m.pattern.captured (texts exacts w) ∧ frontOf exacts ++ w <+: path.toList := by
  obtain ⟨t, ht, _⟩ := matchPath_eq_some hc
  have hlast := ht
  rw [h.node] at hlast
  obtain ⟨⟨rest, hrest⟩, last, _, hspan, _⟩ := span?_lastNode h.indices hlast
  rw [h.matchPath_eq ht hspan] at hc
  cases hc
  refine ⟨_, rfl, ?_⟩
  have hrest : frontOf exacts ++ rest = path.toList := hrest
  rw [← hrest, List.drop_left]
  exact (List.prefix_append_right_inj _).2 (List.take_prefix _ _)

/-- A text that the segment accepts is taken from the end of a path, if it does not end with a
slash. -/
theorem matchPath_of_accepts {v : String} (h : m.EndsNamed exacts s n)
    (hnever : s.NeverLooksBack false v.toList)
    (haccepts : m.accepts s.data v = true) (hpath : path.toList = frontOf exacts ++ v.toList)
    (hslash : v.toList.getLast? ≠ some '/') :
    m.matchPath path = .ok (some ⟨m.pattern.captured (texts exacts v.toList), none⟩) := by
  rw [h.accepts] at haccepts
  have hfront : (frontOf exacts).getLast? = some '/' := by simp [frontOf]
  have htext : path.toList.toArray.toList = frontOf exacts ++ v.toList := hpath
  obtain ⟨t, ht⟩ := Option.isSome_iff_exists.1
    (isSome_lastNode hfront htext (h.looks _ hnever) haccepts)
  obtain ⟨_, last, hle, hspan, hend⟩ := span?_lastNode h.indices ht
  have hlast : last = path.toList.length := by
    rcases hend with hend | ⟨hsize, hget⟩
    · exact hend
    · -- The last character of the path is that of the value, if there is one.
      have hsize : last + 1 = path.toList.length := hsize
      rw [List.getElem?_toArray, show last = path.toList.length - 1 by omega,
        ← List.getLast?_eq_getElem?, hpath] at hget
      cases hv : v.toList with
      | nil =>
        rw [hpath, hv, List.append_nil] at hsize
        omega
      | cons c cs =>
        rw [List.getLast?_append_of_ne_nil _ (by simp [hv])] at hget
        exact absurd hget hslash
  rw [← h.node] at ht
  rw [h.matchPath_eq ht hspan, hlast, hpath, List.drop_left, List.length_append,
    Nat.add_sub_cancel_left, List.take_length]

end PathMatcher.EndsNamed

end UrlRouting
