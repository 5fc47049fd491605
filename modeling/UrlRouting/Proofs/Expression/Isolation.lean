import UrlRouting.Proofs.Expression.Portion

/-! Expressions that match a part of a text by itself if they match it where it stands. Most do, but
those that look at what is around the part need not. -/
namespace UrlRouting.Expression

variable {f f' : Steps} {u : State} {k : Nat} {n : Node} {keep : State → Bool}

namespace Node

/-- The ways that stay in a part between slashes are the same for the part by itself. It matters
for some whether the part is not empty. -/
def isFaithful (filled : Bool) : Node → Bool
  | .empty | .char _ | .again .. | .anchor (.wordEdge _) => true
  | .anchor (.noWordEdge _) => filled
  | .anchor _ => false
  | .seq a b | .alt a b | .whether _ a b => a.isFaithful filled && b.isFaithful filled
  | .group _ body => body.isFaithful filled
  | .many _ _ greed test => greed != .possessive || !test.accepts '/'
  | .loop _ _ greed body => body.isFaithful filled && (greed != .possessive || body.isSlashless)
  | .atomic body | .ahead _ body => body.isFaithful filled && body.isSlashless
  | .behind _ width body =>
    body.isFaithful filled && body.isSlashless && body.width [] == width

/-- The ways that stay in a part between slashes are among those for the part by itself. What is
looked for ahead or behind must not reach beyond the slashes, and what must not be found there must
not depend on what is beyond them. -/
def isSafe (filled : Bool) : Node → Bool
  | .empty | .char _ | .again .. | .many .. => true
  | .anchor (.noWordEdge _) => filled
  | .anchor _ => true
  | .seq a b | .alt a b | .whether _ a b => a.isSafe filled && b.isSafe filled
  | .group _ body => body.isSafe filled
  | .loop _ _ greed body =>
    if greed = .possessive then body.isFaithful filled else body.isSafe filled
  | .atomic body | .ahead true body | .behind true _ body => body.isFaithful filled
  | .ahead false body =>
    body.isSlashless && (body.isFaithful filled || body.indices.isEmpty && body.isSafe filled)
  | .behind false width body => body.isSlashless && body.width [] == width &&
    (body.isFaithful filled || body.indices.isEmpty && body.isSafe filled)

/-- What the expression matches between slashes it matches by itself. -/
def isIndependent (n : Node) : Bool :=
  n.isSafe (0 < (n.width []).least)

theorem indices_renumber {d : Nat} :
    (n.renumber d).indices = n.indices.map (Expression.renumber d) := by
  induction n <;> simp_all [renumber, indices]

@[simp] theorem width_nil_renumber {d : Nat} : (n.renumber d).width [] = n.width [] :=
  show (n.renumber d).width (renumberWidths d [] ++ []) = n.width [] from width_renumber (by simp) n

@[simp] theorem isSlashless_renumber {d : Nat} : (n.renumber d).isSlashless = n.isSlashless := by
  induction n <;> simp_all [isSlashless, renumber]

end Node

namespace Window

variable {W : Window} {filled : Bool}

/-! ### Looking around -/

/-- The state before the last `k` characters. -/
def back (k : Nat) (s : State) : State :=
  { s with pos := s.pos - k }

theorem lift_back (hle : k ≤ u.pos) : back k (W.lift u) = W.lift (back k u) := by
  simp only [back, lift, Nat.add_sub_assoc hle]

theorem within_back (hu : u.Within W.part) : (back k u).Within W.part :=
  ⟨Nat.le_trans (Nat.sub_le _ _) hu.pos, hu.marks⟩

/-- What a look back finds. -/
def found (width : Width) (f : Steps) (s : State) : Option State :=
  if width.least ≤ s.pos then (f (back width.least s)).head? else none

theorem ways_behind {text : Subject} {negated : Bool} {width : Width} {body : Node} {s : State} :
    (Node.behind negated width body).ways text s =
      probe negated s (found width (body.ways text) s) :=
  rfl

/-- What begins before the part and is so wide that it ends in it passes the slash in between. -/
theorem ways_before {width : Width} {s : State} (hn : n.isSlashless = true)
    (hwidth : n.width [] = width) (hs : s.pos + width.least = W.first + u.pos)
    (hfar : u.pos < width.least) : n.ways W.text s = [] := by
  rw [List.eq_nil_iff_forall_not_mem]
  intro t ht
  have hcovers := covers_ways ht
  rw [hwidth] at hcovers
  rcases W.opens with hfirst | hslash
  · omega
  · exact slashless_ways hn ht (W.first - 1) (by omega) (by omega) hslash

/-- A look back finds nothing before the part. -/
def FindsInside (W : Window) (width : Width) (f : Steps) : Prop :=
  ∀ u, found width f (W.lift u) =
    if width.least ≤ u.pos then (f (W.lift (back width.least u))).head? else none

theorem findsInside_of_slashless {width : Width} (hn : n.isSlashless = true)
    (hwidth : n.width [] = width) : W.FindsInside width ((n.renumber W.shift).ways W.text) := by
  intro u
  rw [found]
  by_cases hle : width.least ≤ u.pos
  · rw [if_pos (show width.least ≤ (W.lift u).pos from Nat.le_add_left_of_le hle), if_pos hle,
      lift_back hle]
  · rw [if_neg hle]
    split
    · next hfar =>
      rw [ways_before (by simpa using hn) (by simpa using hwidth) (Nat.sub_add_cancel hfar)
        (by omega), List.head?_nil]
    · rfl

/-- What passes no slash does not leave the part. -/
theorem inside_of_slashless (hn : n.isSlashless = true) (hu : u.Within W.part) {t : State}
    (ht : t ∈ (n.renumber W.shift).ways W.text (W.lift u)) : W.inside t = true := by
  by_contra hout
  have hfar : W.first + W.part.size < t.pos := by simpa [inside] using hout
  have hsize := ((onward_ways (P := fun _ => True) _ (fun _ _ => trivial) ht).inside
    (within_lift hu)).pos
  have hslashless := slashless_ways (by simpa using hn) ht (W.first + W.part.size)
    (Nat.add_le_add_left hu.pos _) hfar
  rcases W.ends with h | h
  · omega
  · exact hslashless h

theorem agrees_of_slashless (hn : n.isSlashless = true)
    (h : W.Follows W.inside ((n.renumber W.shift).ways W.text) (n.ways W.part)) :
    W.Agrees ((n.renumber W.shift).ways W.text) (n.ways W.part) := by
  intro u hu
  rw [List.filter_true, ← h u hu, List.filter_eq_self.2]
  exact fun t ht => inside_of_slashless hn hu ht

theorem follows_of_agrees (h : W.Agrees ((n.renumber W.shift).ways W.text) (n.ways W.part)) :
    W.Follows W.inside ((n.renumber W.shift).ways W.text) (n.ways W.part) :=
  h.follows sieve_inside (goes_ways n)

theorem probe_lift {negated : Bool} {o : Option State} :
    probe negated (W.lift u) (o.map W.lift) = (probe negated u o).map W.lift := by
  cases o <;> cases negated <;> rfl

/-! ### Parts of expressions that agree -/

section Agrees

variable (h : W.Agrees ((n.renumber W.shift).ways W.text) (n.ways W.part))
include h

theorem Agrees.atomic : W.Agrees (((Node.atomic n).renumber W.shift).ways W.text)
    ((Node.atomic n).ways W.part) := by
  intro u hu
  rw [List.filter_true, Node.renumber, Node.ways, Node.ways, h.eq hu, List.head?_map]
  cases (n.ways W.part u).head? <;> rfl

theorem Agrees.ahead {negated : Bool} :
    W.Agrees (((Node.ahead negated n).renumber W.shift).ways W.text)
    ((Node.ahead negated n).ways W.part) := by
  intro u hu
  rw [List.filter_true, Node.renumber, Node.ways, Node.ways, h.eq hu, List.head?_map, probe_lift]

theorem Agrees.behind {negated : Bool} {width : Width}
    (hfound : W.FindsInside width ((n.renumber W.shift).ways W.text)) :
    W.Agrees (((Node.behind negated width n).renumber W.shift).ways W.text)
      ((Node.behind negated width n).ways W.part) := by
  intro u hu
  rw [List.filter_true, Node.renumber, ways_behind, ways_behind, hfound u, h.eq (within_back hu),
    List.head?_map, found, ← probe_lift]
  split <;> rfl

end Agrees

theorem Follows.group {i : Nat} (hkeep : ∀ t m, keep (State.mark t m) = keep t)
    (h : W.Follows keep ((n.renumber W.shift).ways W.text) (n.ways W.part)) :
    W.Follows keep (((Node.group i n).renumber W.shift).ways W.text)
      ((Node.group i n).ways W.part) := by
  intro u hu
  have hbody := h _ (hu.mark (.opening i))
  rw [lift_mark] at hbody
  have hmark : keep ∘ (fun t => t.mark (.closing (renumber W.shift i))) = keep :=
    funext fun t => hkeep t _
  rw [Node.renumber, Node.ways, Node.ways, List.filter_map, hmark, ← Mark.renumber, hbody,
    List.map_map, List.map_map]
  rfl

theorem Follows.alt {m : Node}
    (h : W.Follows keep ((n.renumber W.shift).ways W.text) (n.ways W.part))
    (h' : W.Follows keep ((m.renumber W.shift).ways W.text) (m.ways W.part)) :
    W.Follows keep (((Node.alt n m).renumber W.shift).ways W.text)
      ((Node.alt n m).ways W.part) := by
  intro u hu
  rw [Node.renumber, Node.ways, Node.ways, List.filter_append, List.map_append, h u hu, h' u hu]

theorem Follows.whether {m : Node} {i : Nat}
    (h : W.Follows keep ((n.renumber W.shift).ways W.text) (n.ways W.part))
    (h' : W.Follows keep ((m.renumber W.shift).ways W.text) (m.ways W.part)) :
    W.Follows keep (((Node.whether i n m).renumber W.shift).ways W.text)
      ((Node.whether i n m).ways W.part) := by
  intro u hu
  simp only [Node.renumber, Node.ways, span?_lift, Option.isSome_map]
  split
  · exact h u hu
  · exact h' u hu

theorem Follows.seq {m : Node} (hk : W.Sieve keep)
    (h : W.Follows keep ((n.renumber W.shift).ways W.text) (n.ways W.part))
    (h' : W.Follows keep ((m.renumber W.shift).ways W.text) (m.ways W.part)) :
    W.Follows keep (((Node.seq n m).renumber W.shift).ways W.text)
      ((Node.seq n m).ways W.part) := by
  intro u hu
  exact h.flatMap hk (goes_ways n) (goes_ways m).whole hu fun x _ _ hx => h' x hx

/-- The ways through the whole that stay in the part are those through the part, in their order. -/
theorem follows_ways (hfilled : filled = true → W.part ≠ #[]) (hn : n.isFaithful filled = true) :
    W.Follows W.inside ((n.renumber W.shift).ways W.text) (n.ways W.part) := by
  induction n with
  | empty =>
    intro u hu
    exact List.filter_cons_of_pos (sieve_inside.within u hu.pos)
  | char => exact follows_char
  | anchor a =>
    cases a with
    | wordEdge => exact follows_anchor fun _ hp => holds_wordEdge hp
    | noWordEdge => exact follows_anchor fun _ hp => holds_noWordEdge hp (hfilled hn)
    | _ => cases hn
  | again => exact follows_again
  | seq a b iha ihb =>
    obtain ⟨ha, hb⟩ := Bool.and_eq_true_iff.1 hn
    exact (iha ha).seq sieve_inside (ihb hb)
  | alt a b iha ihb =>
    obtain ⟨ha, hb⟩ := Bool.and_eq_true_iff.1 hn
    exact (iha ha).alt (ihb hb)
  | group i body ih => exact (ih hn).group fun _ _ => rfl
  | many least most greed test =>
    rcases Bool.or_eq_true_iff.1 hn with hgreed | htest
    · exact follows_many (by simpa using hgreed)
    · exact follows_of_agrees (agrees_many (by simpa using htest))
  | loop least most greed body ih =>
    obtain ⟨hbody, hgreed⟩ := Bool.and_eq_true_iff.1 hn
    rcases Bool.or_eq_true_iff.1 hgreed with hgreed | hslashless
    · exact (ih hbody).loopWays sieve_inside (goes_ways body) (by simpa using hgreed)
    · have hagrees := agrees_of_slashless hslashless (ih hbody)
      exact follows_of_agrees (n := .loop least most greed body) (hagrees.loopWays (goes_ways body))
  | atomic body ih =>
    obtain ⟨hbody, hslashless⟩ := Bool.and_eq_true_iff.1 hn
    exact follows_of_agrees (agrees_of_slashless hslashless (ih hbody)).atomic
  | ahead negated body ih =>
    obtain ⟨hbody, hslashless⟩ := Bool.and_eq_true_iff.1 hn
    exact follows_of_agrees (agrees_of_slashless hslashless (ih hbody)).ahead
  | behind negated width body ih =>
    obtain ⟨hn, hwidth⟩ := Bool.and_eq_true_iff.1 hn
    obtain ⟨hbody, hslashless⟩ := Bool.and_eq_true_iff.1 hn
    have hagrees := agrees_of_slashless hslashless (ih hbody)
    exact follows_of_agrees
      (hagrees.behind (findsInside_of_slashless hslashless (beq_iff_eq.1 hwidth)))
  | whether i yes no ihy ihn =>
    obtain ⟨hy, hno⟩ := Bool.and_eq_true_iff.1 hn
    exact (ihy hy).whether (ihn hno)

/-- What is found ahead or behind in the whole is found in the part, and sets the same marks. -/
theorem keeps_found {o o' : State → Option State}
    (h : ∀ u, u.Within W.part → ∀ s, o (W.lift u) = some s →
      ∃ v, o' u = some v ∧ s.marks = (W.lift v).marks) :
    W.Keeps W.inside (fun s => probe false s (o s)) fun s => probe false s (o' s) := by
  intro u hu t ht _
  dsimp only at ht ⊢
  cases hs : o (W.lift u) with
  | none =>
    rw [hs] at ht
    cases ht
  | some s =>
    rw [hs] at ht
    obtain ⟨v, hv, hmarks⟩ := h u hu s hs
    rw [hv]
    refine ⟨{ v with pos := u.pos }, List.mem_singleton_self _, ?_⟩
    rw [List.mem_singleton.1 ht, hmarks]
    rfl

/-- The first way need not be the same, but then there are no groups to remember it. -/
theorem finds_first (hn : n.isSlashless = true)
    (h : W.Follows W.inside ((n.renumber W.shift).ways W.text) (n.ways W.part) ∨
      n.indices = [] ∧ W.Keeps W.inside ((n.renumber W.shift).ways W.text) (n.ways W.part))
    (u : State) (hu : u.Within W.part) (s : State)
    (hs : ((n.renumber W.shift).ways W.text (W.lift u)).head? = some s) :
    ∃ v, (n.ways W.part u).head? = some v ∧ s.marks = (W.lift v).marks := by
  rcases h with h | ⟨hindices, h⟩
  · rw [(agrees_of_slashless hn h).eq hu, List.head?_map] at hs
    obtain ⟨v, hv, rfl⟩ := Option.map_eq_some_iff.1 hs
    exact ⟨v, hv, rfl⟩
  · have hmem := List.mem_of_head? hs
    obtain ⟨v, hv, -⟩ := h u hu s hmem (inside_of_slashless hn hu hmem)
    obtain ⟨v', hv'⟩ := Option.isSome_iff_exists.1 (List.isSome_head?.2 (List.ne_nil_of_mem hv))
    refine ⟨v', hv', ?_⟩
    rw [marks_ways (by simp [Node.indices_renumber, hindices]) hmem]
    simp only [lift, marks_ways hindices (List.mem_of_head? hv')]

theorem follows_or_keeps {b : Bool} (hfilled : filled = true → W.part ≠ #[]) (ih : b = true →
      W.Keeps W.inside ((n.renumber W.shift).ways W.text) (n.ways W.part))
    (h : (n.isFaithful filled || n.indices.isEmpty && b) = true) :
    W.Follows W.inside ((n.renumber W.shift).ways W.text) (n.ways W.part) ∨
      n.indices = [] ∧ W.Keeps W.inside ((n.renumber W.shift).ways W.text) (n.ways W.part) := by
  rcases Bool.or_eq_true_iff.1 h with h | h
  · exact .inl (follows_ways hfilled h)
  · obtain ⟨hindices, hb⟩ := Bool.and_eq_true_iff.1 h
    exact .inr ⟨List.isEmpty_iff.1 hindices, ih hb⟩

/-- What is not found ahead or behind in the whole is not found in the part. -/
theorem keeps_negated {f f' : State → Option State}
    (h : ∀ u, u.Within W.part → f (W.lift u) = none → f' u = none) :
    W.Keeps W.inside (fun s => probe true s (f s)) fun s => probe true s (f' s) := by
  intro u hu t ht _
  dsimp only at ht ⊢
  cases hf : f (W.lift u) with
  | none =>
    rw [hf] at ht
    rw [h u hu hf]
    exact ⟨u, List.mem_singleton_self u, List.mem_singleton.1 ht⟩
  | some s =>
    rw [hf] at ht
    cases ht

theorem found_none {width : Width} (hf : W.Follows keep f f') (hu : u.Within W.part)
    (h : found width f (W.lift u) = none) : found width f' u = none := by
  rw [found] at h ⊢
  by_cases hle : width.least ≤ u.pos
  · rw [if_pos (show width.least ≤ (W.lift u).pos from Nat.le_add_left_of_le hle), lift_back hle,
      ← run_some] at h
    rw [if_pos hle, ← run_some]
    exact hf.run_none (within_back hu) h
  · exact if_neg hle

theorem found_some {width : Width} (hn : n.isSlashless = true) (hwidth : n.width [] = width)
    (h : W.Follows W.inside ((n.renumber W.shift).ways W.text) (n.ways W.part) ∨
      n.indices = [] ∧ W.Keeps W.inside ((n.renumber W.shift).ways W.text) (n.ways W.part))
    (u : State) (hu : u.Within W.part) (s : State)
    (hs : found width ((n.renumber W.shift).ways W.text) (W.lift u) = some s) :
    ∃ v, found width (n.ways W.part) u = some v ∧ s.marks = (W.lift v).marks := by
  rw [findsInside_of_slashless hn hwidth] at hs
  split at hs
  · next hle =>
    rw [found, if_pos hle]
    exact finds_first hn h _ (within_back hu) s hs
  · cases hs

/-! ### Parts of expressions that keep to the part -/

theorem keeps_anchor {a : Anchor} (ha : ∀ asciiOnly, a = .noWordEdge asciiOnly → W.part ≠ #[]) :
    W.Keeps keep ((Node.anchor a).ways W.text) ((Node.anchor a).ways W.part) := by
  intro u hu t ht _
  rw [Node.ways] at ht
  split at ht
  · next hholds =>
    refine ⟨u, ?_, List.mem_singleton.1 ht⟩
    rw [Node.ways, if_pos (holds_of_lift ha hu.pos hholds)]
    exact List.mem_singleton_self u
  · cases ht

/-- Of what is kept as it is found first, the first way has to be the same. -/
theorem Follows.keeps_atomic
    (h : W.Follows keep ((n.renumber W.shift).ways W.text) (n.ways W.part)) :
    W.Keeps keep (((Node.atomic n).renumber W.shift).ways W.text)
      ((Node.atomic n).ways W.part) := by
  intro u hu t ht hkeep
  have hfirst : ((n.renumber W.shift).ways W.text).run some (W.lift u) = some t := by
    rw [Expression.run_some]
    exact Option.mem_toList.1 ht
  obtain ⟨u', hu', rfl⟩ := h.run_some hu hfirst hkeep
  rw [Expression.run_some] at hu'
  exact ⟨u', Option.mem_toList.2 hu', rfl⟩

section Keeps

variable {m : Node} (h : W.Keeps keep ((n.renumber W.shift).ways W.text) (n.ways W.part))
include h

theorem Keeps.seq (hk : W.Sieve keep)
    (h' : W.Keeps keep ((m.renumber W.shift).ways W.text) (m.ways W.part)) :
    W.Keeps keep (((Node.seq n m).renumber W.shift).ways W.text) ((Node.seq n m).ways W.part) := by
  intro u hu
  exact h.flatMap hk (goes_ways n) (goes_ways m).whole hu fun x _ _ hx => h' x hx

theorem Keeps.alt (h' : W.Keeps keep ((m.renumber W.shift).ways W.text) (m.ways W.part)) :
    W.Keeps keep (((Node.alt n m).renumber W.shift).ways W.text) ((Node.alt n m).ways W.part) := by
  intro u hu t ht hkeep
  rcases List.mem_append.1 ht with ht | ht
  · obtain ⟨u', hu', rfl⟩ := h u hu t ht hkeep
    exact ⟨u', List.mem_append_left _ hu', rfl⟩
  · obtain ⟨u', hu', rfl⟩ := h' u hu t ht hkeep
    exact ⟨u', List.mem_append_right _ hu', rfl⟩

theorem Keeps.group {i : Nat} (hmark : ∀ t m, keep (State.mark t m) = keep t) :
    W.Keeps keep (((Node.group i n).renumber W.shift).ways W.text)
      ((Node.group i n).ways W.part) := by
  intro u hu t ht hkeep
  obtain ⟨s, hs, rfl⟩ := List.mem_map.1 ht
  rw [hmark] at hkeep
  obtain ⟨u', hu', rfl⟩ := h _ (hu.mark (.opening i)) s hs hkeep
  exact ⟨u'.mark (.closing i), List.mem_map.2 ⟨u', hu', rfl⟩, rfl⟩

theorem Keeps.whether {i : Nat}
    (h' : W.Keeps keep ((m.renumber W.shift).ways W.text) (m.ways W.part)) :
    W.Keeps keep (((Node.whether i n m).renumber W.shift).ways W.text)
      ((Node.whether i n m).ways W.part) := by
  intro u hu t ht hkeep
  simp only [Node.renumber, Node.ways, span?_lift, Option.isSome_map] at ht ⊢
  cases hspan : (u.span? i).isSome with
  | true =>
    rw [hspan, if_pos rfl] at ht
    exact h u hu t ht hkeep
  | false =>
    rw [hspan, if_neg (by simp)] at ht
    exact h' u hu t ht hkeep

end Keeps

/-- The ways through the whole that stay in the part are among those through the part. -/
theorem keeps_ways (hfilled : filled = true → W.part ≠ #[]) (hn : n.isSafe filled = true) :
    W.Keeps W.inside ((n.renumber W.shift).ways W.text) (n.ways W.part) := by
  induction n with
  | empty => exact (follows_ways hfilled (n := .empty) rfl).keeps
  | char => exact follows_char.keeps
  | anchor a =>
    refine keeps_anchor ?_
    rintro _ rfl
    exact hfilled hn
  | again => exact follows_again.keeps
  | seq a b iha ihb =>
    obtain ⟨ha, hb⟩ := Bool.and_eq_true_iff.1 hn
    exact (iha ha).seq sieve_inside (ihb hb)
  | alt a b iha ihb =>
    obtain ⟨ha, hb⟩ := Bool.and_eq_true_iff.1 hn
    exact (iha ha).alt (ihb hb)
  | group i body ih => exact (ih hn).group fun _ _ => rfl
  | many => exact keeps_many
  | loop least most greed body ih =>
    by_cases hgreed : greed = .possessive
    · rw [Node.isSafe, if_pos hgreed] at hn
      subst hgreed
      exact (follows_ways hfilled hn).keeps_possessive sieve_inside (goes_ways body)
    · rw [Node.isSafe, if_neg hgreed] at hn
      exact (ih hn).loopWays sieve_inside (goes_ways body) hgreed
  | atomic body ih => exact (follows_ways hfilled hn).keeps_atomic
  | ahead negated body ih =>
    cases negated with
    | false =>
      obtain ⟨hslashless, hbody⟩ := Bool.and_eq_true_iff.1 hn
      exact keeps_found (finds_first hslashless (follows_or_keeps hfilled ih hbody))
    | true =>
      refine keeps_negated fun u hu hnone => ?_
      rw [← run_some] at hnone ⊢
      exact (follows_ways hfilled hn).run_none hu hnone
  | behind negated width body ih =>
    cases negated with
    | false =>
      obtain ⟨hn, hbody⟩ := Bool.and_eq_true_iff.1 hn
      obtain ⟨hslashless, hwidth⟩ := Bool.and_eq_true_iff.1 hn
      have hbody := follows_or_keeps hfilled ih hbody
      exact keeps_found (found_some hslashless (beq_iff_eq.1 hwidth) hbody)
    | true => exact keeps_negated fun u hu hnone => found_none (follows_ways hfilled hn) hu hnone
  | whether i yes no ihy ihn =>
    obtain ⟨hy, hno⟩ := Bool.and_eq_true_iff.1 hn
    exact (ihy hy).whether (ihn hno)

/-- Where the part is matched in the whole it is matched by itself. -/
theorem isSome_fullMatch {t : State} (hn : n.isIndependent = true)
    (ht : t ∈ (n.renumber W.shift).ways W.text ⟨W.first, W.base⟩)
    (hend : t.pos = W.first + W.part.size) : (n.fullMatch W.part).isSome := by
  have hfilled : decide (0 < (n.width []).least) = true → W.part ≠ #[] := by
    intro hleast hnil
    have hcovers : W.first + ((n.renumber W.shift).width []).least ≤ t.pos := covers_ways ht
    rw [hend, hnil, Node.width_nil_renumber, Array.size_empty] at hcovers
    have := of_decide_eq_true hleast
    omega
  have hkeep : W.inside t = true := decide_eq_true (Nat.le_of_eq hend)
  obtain ⟨u, hu, rfl⟩ :=
    keeps_ways hfilled hn .start ⟨Nat.zero_le _, by simp [State.start]⟩ t ht hkeep
  refine isSome_run hu ?_
  rw [pos_lift] at hend
  rw [if_pos (by simpa using Nat.add_left_cancel hend)]
  rfl

end Window

end UrlRouting.Expression
