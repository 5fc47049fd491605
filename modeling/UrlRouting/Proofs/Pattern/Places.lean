import UrlRouting.Proofs.Expression.Isolation
import UrlRouting.Proofs.Pattern.Ending

/-! Where the segments of a pattern have matched in a path. Each stands after a slash, and after it
there is a slash, or the path ends; so what a named segment has taken is matched by its expression
alone, if the expression is independent. -/
namespace UrlRouting

open Expression Expression.Reading PathMatcher

variable {text : Subject} {st t u : State} {k m : Nat} {n : Node} {ignoreCase : Bool}
  {segments : List (Segment × Nat)} {g g' : GroupTable} {ns ms : List Node} {P : Nat → Prop}

namespace Expression

/-! ### Marks -/

theorem lookup_append_of_ne {new old : List (Mark × Nat)} {mark : Mark}
    (h : ∀ e ∈ new, e.1 ≠ mark) :
    (new ++ old).lookup mark = old.lookup mark := by
  have hnone : new.lookup mark = none := by
    rw [List.lookup_eq_none_iff]
    intro e he
    simpa using Ne.symm (h e he)
  rw [List.lookup_append, hnone, Option.none_or]

/-- Marks of other groups leave the text of a group as it is. -/
theorem Onward.span? (h : Onward text P st t) (hk : ¬P k) : t.span? k = st.span? k := by
  obtain ⟨new, hnew, hP⟩ := h.marks
  have hne : ∀ mark : Mark, mark.index = k → ∀ e ∈ new, e.1 ≠ mark := by
    rintro mark rfl e he rfl
    exact hk (hP e he)
  rw [State.span?, hnew, lookup_append_of_ne (hne (.opening k) rfl),
    lookup_append_of_ne (hne (.closing k) rfl)]
  rfl

theorem span?_mark_closing (h : st.marks.lookup (.opening k) = some m) (hle : m ≤ st.pos) :
    (st.mark (.closing k)).span? k = some (m, st.pos) := by
  have hne : (Mark.opening k == Mark.closing k) = false := beq_eq_false_iff_ne.2 (by simp)
  simp [State.span?, State.mark, List.lookup_cons, hne, h, hle]

/-- A group holds what its body has taken. -/
theorem span?_group (hk : k ∉ n.indices) (hu : u ∈ (Node.group k n).ways text st) :
    u.span? k = some (st.pos, u.pos) := by
  obtain ⟨v, hv, rfl⟩ := List.mem_map.1 hu
  have hon := onward_ways (P := fun i => i ≠ k) n (fun i hi => ne_of_mem_of_not_mem hi hk) hv
  obtain ⟨new, hnew, hother⟩ := hon.marks
  refine span?_mark_closing ?_ hon.pos_le
  rw [hnew, lookup_append_of_ne]
  · simp [State.mark]
  · rintro e he heq
    exact hother e he (by rw [heq]; rfl)

theorem indices_of_below (h : n.Below m) : ∀ i ∈ n.indices, 1 ≤ i ∧ i < m := by
  induction n with
  | empty | char | anchor | again | many => simp [Node.indices]
  | group i body ih => exact List.forall_mem_cons.2 ⟨h.1, ih h.2⟩
  | seq a b iha ihb | alt a b iha ihb | whether _ a b iha ihb =>
    exact List.forall_mem_append.2 ⟨iha h.1, ihb h.2⟩
  | loop _ _ _ body ih | atomic body ih | ahead _ body ih | behind _ _ body ih => exact ih h

theorem Reading.Alone.indices {a : Reading} {expression : List Char}
    (h : Alone ignoreCase expression a) :
    ∀ i ∈ a.frame.body.indices, 1 ≤ i ∧ i < a.groups.next :=
  indices_of_below (h.sound.below a.frame List.mem_cons_self).body

/-! ### Ways -/

theorem mem_ways_slash (h : u ∈ slash.ways text st) : text[st.pos]? = some '/' ∧ u = st.move 1 := by
  rw [slash, Node.ways] at h
  split at h
  · next c hc =>
    split at h
    · next hslash =>
      have hc' : c = '/' := by simpa using (accepts_literal (c := '/') (d := c)).symm.trans hslash
      exact ⟨hc' ▸ hc, List.mem_singleton.1 h⟩
    · cases h
  · cases h

end Expression

/-! ### Groups between slashes -/

/-- The text ends at a position, or a slash stands there. -/
def Breaks (text : Subject) (pos : Nat) : Prop :=
  pos = text.size ∨ text[pos]? = some '/'

/-- All marks are of groups below `k`. -/
def MarkedBelow (k : Nat) (st : State) : Prop :=
  ∀ e ∈ st.marks, 1 ≤ e.1.index ∧ e.1.index < k

/-- The part of a text from a slash to the next break, with group `k` just entered. -/
def between (hk : 1 ≤ k) (hslash : text[st.pos]? = some '/') (hst : (st.move 1).Within text)
    (hmarks : MarkedBelow k st) {last : Nat} (hle : st.pos + 1 ≤ last) (hlast : last ≤ text.size)
    (hbreak : Breaks text last) : Window where
  text := text
  part := text.extract (st.pos + 1) last
  first := st.pos + 1
  shift := k
  base := ((st.move 1).mark (.opening k)).marks
  size_le := by
    rw [Array.size_extract_of_le hlast]
    omega
  same p hp := by
    rw [Array.size_extract_of_le hlast] at hp
    rw [Array.getElem?_extract, if_pos (by omega)]
  opens := .inr hslash
  ends := by
    rw [Array.size_extract_of_le hlast, Nat.add_sub_cancel' hle]
    exact hbreak
  former := by
    refine List.forall_mem_cons.2 ⟨⟨hk, Nat.le_refl k⟩, fun e he => ?_⟩
    have := hmarks e he
    omega
  within := (hst.mark _).marks

theorem MarkedBelow.mono (h : MarkedBelow k st) (hkm : k ≤ m) : MarkedBelow m st :=
  fun e he => ⟨(h e he).1, Nat.lt_of_lt_of_le (h e he).2 hkm⟩

/-- A group between slashes holds what it has taken, and that is matched by its body alone. -/
theorem group_between (hk : 1 ≤ k) (hm : 1 ≤ m) (hslash : text[st.pos]? = some '/')
    (hst : (st.move 1).Within text) (hmarks : MarkedBelow k st)
    (hn : ∀ i ∈ n.indices, 1 ≤ i ∧ i < m)
    (hu : u ∈ (Node.group k (n.renumber k)).ways text (st.move 1)) (hbreak : Breaks text u.pos) :
    u.Within text ∧ MarkedBelow (m + k) u ∧ u.span? k = some (st.pos + 1, u.pos) ∧
      (n.isIndependent = true → (n.fullMatch (text.extract (st.pos + 1) u.pos)).isSome) := by
  have hspan := fun hk => span?_group hk hu
  obtain ⟨v, hv, rfl⟩ := List.mem_map.1 hu
  have hindices : ∀ i ∈ (n.renumber k).indices, k < i ∧ i < m + k := by
    intro i hi
    rw [Node.indices_renumber] at hi
    obtain ⟨j, hj, rfl⟩ := List.mem_map.1 hi
    have := hn j hj
    rw [renumber_of_pos this.1]
    omega
  have hon := onward_ways _ hindices hv
  have hv' := hon.inside (hst.mark _)
  have hle : st.pos + 1 ≤ v.pos := hon.pos_le
  obtain ⟨new, hnew, hown⟩ := hon.marks
  refine ⟨hv'.mark _, ?_, hspan fun hself => absurd (hindices k hself).1 (Nat.lt_irrefl k),
    fun hsafe => ?_⟩
  · refine List.forall_mem_cons.2 ⟨⟨hk, show k < m + k by omega⟩, ?_⟩
    rw [hnew]
    refine List.forall_mem_append.2
      ⟨fun e he => ?_, List.forall_mem_cons.2 ⟨⟨hk, show k < m + k by omega⟩, ?_⟩⟩
    · have := hown e he
      omega
    · exact hmarks.mono (Nat.le_add_left k m)
  · let W := between hk hslash hst hmarks hle hv'.pos hbreak
    have hend : v.pos = W.first + W.part.size := by
      change v.pos = st.pos + 1 + (text.extract (st.pos + 1) v.pos).size
      rw [Array.size_extract_of_le hv'.pos]
      omega
    exact W.isSome_fullMatch hsafe hv hend

/-! ### Segments -/

theorem indices_literals (s : Segment) : (Node.ofList (slash :: s.data.toList.map fun c =>
    (charPiece ignoreCase c).node)).indices = [] := by
  rw [indices_ofList, List.flatMap_eq_nil_iff]
  refine List.forall_mem_cons.2 ⟨rfl, fun n hn => ?_⟩
  obtain ⟨c, _, rfl⟩ := List.mem_map.1 hn
  rfl

/-- The groups of segments have numbers from that of the next group on. -/
theorem next_le_indices (h : Laid ignoreCase segments g ns g') :
    ∀ i ∈ (Node.ofList ns).indices, g.next ≤ i := by
  rw [indices_ofList]
  induction h with
  | nil => simp
  | @exact s _ _ _ _ _ _ _ ih =>
    rw [List.flatMap_append, ← indices_ofList, indices_literals]
    exact ih
  | @named _ _ _ g _ _ a _ ha _ _ ih =>
    rw [List.flatMap_cons, List.flatMap_cons]
    refine List.forall_mem_cons.2
      ⟨Nat.le_refl _, List.forall_mem_append.2 ⟨fun i hi => ?_, fun i hi => ?_⟩⟩
    · rw [Node.indices_renumber] at hi
      obtain ⟨j, hj, rfl⟩ := List.mem_map.1 hi
      rw [renumber_of_pos (ha.indices j hj).1]
      exact Nat.le_add_left _ _
    · exact Nat.le_trans (Nat.le_add_left _ _) (ih i hi)

theorem breaks_laid (h : Laid ignoreCase segments g ns g') (hu : u ∈ (Node.ofList ns).ways text st)
    (hbreak : Breaks text u.pos) : Breaks text st.pos := by
  cases h with
  | nil =>
    rw [List.mem_singleton.1 hu] at hbreak
    exact hbreak
  | exact | named =>
    obtain ⟨v, hv, _⟩ := List.mem_flatMap.1 hu
    exact .inr (mem_ways_slash hv).1

/-- A named segment has taken a text: its group holds the text, and its expression matches the text
alone if that is independent. -/
def Taken (ignoreCase : Bool) (text : Subject) (g : GroupTable) (u : State) (s : Segment × Nat)
    (w : List Char) : Prop :=
  ∃ k a, k < g.next ∧ g.names.lookup (groupName s.2) = some k ∧
    Alone ignoreCase s.1.expression.toList a ∧
    (∃ span, u.span? k = some span ∧ (text.toList.drop span.1).take (span.2 - span.1) = w) ∧
    (a.frame.body.isIndependent = true → (a.frame.body.fullMatch w.toArray).isSome)

theorem toArray_slice (first last : Nat) :
    ((text.toList.drop first).take (last - first)).toArray = text.extract first last := by
  rw [← Array.toList_inj, Array.toList_extract, List.extract_eq_take_drop]

theorem taken_laid (h : Laid ignoreCase segments g ns g') (hpos : 1 ≤ g.next) (hst : st.Within text)
    (hmarks : MarkedBelow g.next st) (hu : u ∈ (Node.ofList ns).ways text st)
    (hbreak : Breaks text u.pos) :
    ∀ s ∈ segments, s.1.isNamed = true → ∃ w, Taken ignoreCase text g' u s w := by
  induction h generalizing st with
  | nil => simp
  | @exact s i segments g g' ns hs h ih =>
    obtain ⟨v, hv, hu⟩ := mem_ways_append.1 hu
    have hin := within_ways hv hst
    refine List.forall_mem_cons.2 ⟨fun hn => ?_, ih hpos hin ?_ hu⟩
    · rw [hs] at hn
      cases hn
    · rw [MarkedBelow, marks_ways (indices_literals s) hv]
      exact hmarks
  | @named s i segments g g' ns a hs ha hadmits h ih =>
    obtain ⟨v, hv, hu⟩ := List.mem_flatMap.1 hu
    obtain ⟨hslash, rfl⟩ := mem_ways_slash hv
    obtain ⟨v, hv', hu⟩ := List.mem_flatMap.1 hu
    have hin : (st.move 1).Within text :=
      within_ways hv hst
    have hm := ha.sound.next_pos
    obtain ⟨hvin, hvmarks, hspan, hsafe⟩ := group_between hpos hm hslash hin hmarks ha.indices hv'
      (breaks_laid h hu hbreak)
    refine List.forall_mem_cons.2 ⟨fun _ => ?_, ih (Nat.le_add_right_of_le hm) hvin hvmarks hu⟩
    have hkeep : u.span? g.next = v.span? g.next :=
      (onward_ways _ (next_le_indices h) hu).span? (by simp only [GroupTable.grouped]; omega)
    refine ⟨_, g.next, a, ?_, lookup_extended h.names_extended (lookup_grouped hadmits), ha,
      ⟨_, hkeep.trans hspan, rfl⟩, ?_⟩
    · have := h.next_le
      simp only [GroupTable.grouped] at this
      omega
    · rw [toArray_slice]
      exact hsafe

/-! ### Paths -/

theorem left_drop (hst : st.pos ≤ text.size) : Left text st (text.toList.drop st.pos) :=
  ⟨text.toList.take st.pos, (List.take_append_drop _ _).symm, by simp [hst]⟩

theorem breaks_of_atBreak (hst : st.pos ≤ text.size) (h : AtBreak (text.toList.drop st.pos)) :
    Breaks text st.pos := by
  rcases atBreak_iff.1 h with hnil | hslash
  · have hle : text.size ≤ st.pos := by simpa using hnil
    exact .inl (Nat.le_antisymm hst hle)
  · exact .inr ((left_drop hst).getElem?.trans hslash)

theorem next_le_ending {wildcard : Bool} :
    ∀ i ∈ (Node.ofList (ending wildcard g)).indices, g.next ≤ i := by
  cases wildcard <;> simp [ending, Node.ofList, Node.indices, tailBody, slash, optionalSlash]

/-- Where a path is matched, each named segment has taken a text. -/
theorem taken_of_fullMatch {wildcard : Bool} (h : Laid ignoreCase segments .empty ns g)
    (ht : (Node.ofList (ns ++ ending wildcard g)).fullMatch text = some t) :
    ∀ s ∈ segments, s.1.isNamed = true → ∃ w, Taken ignoreCase text g t s w := by
  obtain ⟨ht, hend⟩ := mem_ways_of_fullMatch ht
  obtain ⟨v, hv, ht⟩ := mem_ways_append.1 ht
  have hvin := within_ways hv within_start
  have hbreak : Breaks text v.pos := by
    have hgoal : (atEnd text t).isSome := by simp [atEnd, hend]
    obtain ⟨t', ht'⟩ := Option.isSome_iff_exists.1 (isSome_run ht hgoal)
    exact breaks_of_atBreak hvin.pos (slashed_ending (left_drop hvin.pos) ht')
  have htaken := taken_laid h (Nat.le_refl 1) within_start (by simp [MarkedBelow, State.start]) hv
    hbreak
  intro s hs hn
  obtain ⟨w, k, a, hk, hname, ha, ⟨span, hspan, hslice⟩, hsafe⟩ := htaken s hs hn
  have hkeep : t.span? k = v.span? k :=
    (onward_ways _ next_le_ending ht).span? (Nat.not_le_of_gt hk)
  exact ⟨w, k, a, hk, hname, ha, ⟨span, hkeep.trans hspan, hslice⟩, hsafe⟩

end UrlRouting
