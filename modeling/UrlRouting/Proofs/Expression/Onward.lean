import UrlRouting.Proofs.Expression.Ways

/-! Where the ways of an expression lead: further on in the text, with marks of its own groups. -/
namespace UrlRouting.Expression

variable {text : Subject} {goal : Goal} {s t : State} {f : Steps} {n : Node}

/-- The steps relate each state to those that are reached from it. -/
def Steps.Along (R : State → State → Prop) (f : Steps) : Prop :=
  ∀ ⦃s t⦄, t ∈ f s → R s t

section Along

variable {R : State → State → Prop} {least count limit : Nat} {most last : Option Nat}
  {greed : Greed}

theorem along_turnWays (hrefl : ∀ s, R s s) (htrans : ∀ {s t u}, R s t → R t u → R s u)
    (hf : f.Along R) : (turnWays f count).Along R := by
  induction count with
  | zero =>
    intro s t ht
    rw [List.mem_singleton.1 ht]
    exact hrefl s
  | succ count ih =>
    intro s t ht
    obtain ⟨u, hu, ht⟩ := List.mem_flatMap.1 ht
    exact htrans (hf hu) (ih ht)

theorem mem_optionalWays {eager : Bool} (h : t ∈ optionalWays eager f (limit + 1) last s) :
    t = s ∨ s.hasMoved last = true ∧ ∃ u ∈ f s, t ∈ optionalWays eager f limit (some s.pos) u := by
  have hmem : t = s ∨
      t ∈ if s.hasMoved last then (f s).flatMap (optionalWays eager f limit (some s.pos))
        else [] := by
    cases eager with
    | true => exact (List.mem_append.1 h).symm.imp_left List.mem_singleton.1
    | false => exact List.mem_cons.1 h
  refine hmem.imp_right fun hmem => ?_
  split at hmem
  · next hmoved => exact ⟨hmoved, List.mem_flatMap.1 hmem⟩
  · cases hmem

theorem along_optionalWays {eager : Bool} (hrefl : ∀ s, R s s)
    (htrans : ∀ {s t u}, R s t → R t u → R s u) (hf : f.Along R) :
    (optionalWays eager f limit last).Along R := by
  induction limit generalizing last with
  | zero =>
    intro s t ht
    rw [List.mem_singleton.1 ht]
    exact hrefl s
  | succ limit ih =>
    intro s t ht
    rcases mem_optionalWays ht with rfl | ⟨_, u, hu, ht⟩
    · exact hrefl t
    · exact htrans (hf hu) (ih ht)

theorem mem_of_run_some (h : f.run some s = some t) : t ∈ f s := by
  rw [run_some] at h
  exact List.mem_of_head? h

theorem along_possessiveExactly (hrefl : ∀ s, R s s) (htrans : ∀ {s t u}, R s t → R t u → R s u)
    (hf : f.Along R) (h : possessiveExactly f.run count s = some t) : R s t := by
  induction count generalizing s with
  | zero =>
    cases h
    exact hrefl _
  | succ count ih =>
    obtain ⟨u, hu, ht⟩ := Option.bind_eq_some_iff.1 h
    exact htrans (hf (mem_of_run_some hu)) (ih ht)

theorem along_possessiveTurns (hrefl : ∀ s, R s s) (htrans : ∀ {s t u}, R s t → R t u → R s u)
    (hf : f.Along R) : R s (possessiveTurns f.run limit last s) := by
  induction limit generalizing last s with
  | zero => exact hrefl _
  | succ limit ih =>
    rw [possessiveTurns]
    split
    · cases h : f.run some s with
      | none => exact hrefl _
      | some t => exact htrans (hf (mem_of_run_some h)) ih
    · exact hrefl _

theorem along_loopWays (hrefl : ∀ s, R s s) (htrans : ∀ {s t u}, R s t → R t u → R s u)
    (hf : f.Along R) : (loopWays text least most greed f).Along R := by
  intro s t ht
  cases greed with
  | greedy =>
    obtain ⟨u, hu, ht⟩ := List.mem_flatMap.1 ht
    exact htrans (along_turnWays hrefl htrans hf hu) (along_optionalWays hrefl htrans hf ht)
  | lazy =>
    obtain ⟨u, hu, ht⟩ := List.mem_flatMap.1 ht
    exact htrans (along_turnWays hrefl htrans hf hu) (along_optionalWays hrefl htrans hf ht)
  | possessive =>
    simp only [loopWays] at ht
    cases h : possessiveExactly f.run least s with
    | none => simp [h] at ht
    | some u =>
      rw [h] at ht
      rw [List.mem_singleton.1 ht]
      exact htrans (along_possessiveExactly hrefl htrans hf h)
        (along_possessiveTurns hrefl htrans hf)

end Along

/-- No step leads back. -/
def Steps.Climbs (f : Steps) : Prop :=
  f.Along fun s t => s.pos ≤ t.pos

section Climbs

variable {least count limit : Nat} {most last : Option Nat} {greed : Greed}

theorem climbs_turnWays (hf : f.Climbs) : (turnWays f count).Climbs :=
  along_turnWays (fun _ => Nat.le_refl _) Nat.le_trans hf

theorem climbs_optionalWays {eager : Bool} (hf : f.Climbs) :
    (optionalWays eager f limit last).Climbs :=
  along_optionalWays (fun _ => Nat.le_refl _) Nat.le_trans hf

theorem climbs_possessiveExactly (hf : f.Climbs) (h : possessiveExactly f.run count s = some t) :
    s.pos ≤ t.pos :=
  along_possessiveExactly (R := fun s t => s.pos ≤ t.pos) (fun _ => Nat.le_refl _) Nat.le_trans hf h

theorem climbs_possessiveTurns (hf : f.Climbs) (limit : Nat) (last : Option Nat) (s : State) :
    s.pos ≤ (possessiveTurns f.run limit last s).pos :=
  along_possessiveTurns (R := fun s t => s.pos ≤ t.pos) (fun _ => Nat.le_refl _) Nat.le_trans hf

end Climbs

theorem mem_probe {negated : Bool} {found : Option State} (h : t ∈ probe negated s found) :
    t = s ∨ ∃ u, found = some u ∧ t = { u with pos := s.pos } := by
  unfold probe at h
  split at h
  · next u =>
    split at h
    · cases h
    · exact .inr ⟨u, rfl, List.mem_singleton.1 h⟩
  · split at h
    · exact .inl (List.mem_singleton.1 h)
    · cases h

def Mark.index : Mark → Nat
  | opening i => i
  | closing i => i

/-- The groups that an expression remembers. -/
def Node.indices : Node → List Nat
  | .empty | .char _ | .anchor _ | .again .. | .many .. => []
  | .group i body => i :: body.indices
  | .seq a b | .alt a b | .whether _ a b => a.indices ++ b.indices
  | .loop _ _ _ body | .atomic body | .ahead _ body | .behind _ _ body => body.indices

/-- The position and all marks lie in the text. -/
structure State.Within (text : Subject) (s : State) : Prop where
  pos : s.pos ≤ text.size
  marks : ∀ e ∈ s.marks, e.2 ≤ text.size

theorem State.Within.mark (h : s.Within text) (m : Mark) : (s.mark m).Within text :=
  ⟨h.pos, List.forall_mem_cons.2 ⟨h.pos, h.marks⟩⟩

theorem within_start : State.start.Within text :=
  ⟨Nat.zero_le _, List.forall_mem_nil _⟩

/-- Further on in a text, with more marks, all of groups with property `P`. -/
structure Onward (text : Subject) (P : Nat → Prop) (s t : State) : Prop where
  pos_le : s.pos ≤ t.pos
  inside : s.Within text → t.Within text
  marks : ∃ new, t.marks = new ++ s.marks ∧ ∀ e ∈ new, P e.1.index

namespace Onward

variable {P : Nat → Prop} {u : State}

theorem refl (s : State) : Onward text P s s :=
  ⟨Nat.le_refl _, id, [], rfl, by simp⟩

theorem trans (h : Onward text P s t) (h' : Onward text P t u) : Onward text P s u := by
  refine ⟨Nat.le_trans h.pos_le h'.pos_le, fun hs => h'.inside (h.inside hs), ?_⟩
  obtain ⟨new, hnew, hP⟩ := h.marks
  obtain ⟨new', hnew', hP'⟩ := h'.marks
  refine ⟨new' ++ new, by rw [hnew', hnew, List.append_assoc], fun e he => ?_⟩
  rcases List.mem_append.1 he with he | he
  · exact hP' e he
  · exact hP e he

theorem move {k : Nat} (h : s.pos ≤ text.size → s.pos + k ≤ text.size) :
    Onward text P s (s.move k) :=
  ⟨Nat.le_add_right _ _, fun hs => ⟨h hs.pos, hs.marks⟩, [], rfl, by simp⟩

theorem mark {m : Mark} (h : P m.index) (s : State) : Onward text P s (s.mark m) :=
  ⟨Nat.le_refl _, fun hs => hs.mark m, [(m, s.pos)], rfl, by simpa using h⟩

/-- The marks of what has been looked at are kept, but not its end. -/
theorem back {q : Nat} (hq : q ≤ s.pos) (h : Onward text P { s with pos := q } t) :
    Onward text P s { t with pos := s.pos } where
  pos_le := Nat.le_refl _
  inside hs := ⟨hs.pos, (h.inside ⟨Nat.le_trans hq hs.pos, hs.marks⟩).marks⟩
  marks := h.marks

end Onward

theorem runLength_le (text : Subject) (test : CharTest) (limit pos : Nat) :
    runLength text test limit pos ≤ limit := by
  induction limit generalizing pos with
  | zero => exact Nat.le_refl 0
  | succ limit ih =>
    rw [runLength]
    split
    · split
      · exact Nat.succ_le_succ (ih _)
      · exact Nat.zero_le _
    · exact Nat.zero_le _

theorem mem_counts {least extra k : Nat} {greed : Greed} (h : k ∈ counts least extra greed) :
    least ≤ k ∧ k ≤ least + extra := by
  cases greed <;> simp [counts] at h <;> omega

theorem mem_manyWays {least : Nat} {most : Option Nat} {greed : Greed} {test : CharTest}
    (h : t ∈ manyWays text least most greed test s) : ∃ k, least ≤ k ∧
      k ≤ runLength text test (min (text.size - s.pos) (most.getD (text.size - s.pos))) s.pos ∧
      t = s.move k := by
  simp only [manyWays] at h
  split at h
  · cases h
  · obtain ⟨k, hk, rfl⟩ := List.mem_map.1 h
    have := mem_counts hk
    exact ⟨k, by omega, by omega, rfl⟩

theorem sameText_le {f : Folding} {count first pos : Nat} (h : sameText text f count first pos)
    (hpos : pos ≤ text.size) : pos + count ≤ text.size := by
  induction count generalizing first pos with
  | zero => exact hpos
  | succ count ih =>
    rw [sameText] at h
    split at h
    · next c d _ hd =>
      have hlt : pos < text.size := (Array.getElem?_eq_some_iff.1 hd).1
      have := ih (Bool.and_eq_true_iff.1 h).2 hlt
      omega
    · cases h

theorem onward_ways {P : Nat → Prop} (n : Node) (hn : ∀ i ∈ n.indices, P i) :
    (n.ways text).Along (Onward text P) := by
  induction n with
  | empty =>
    intro s t ht
    rw [List.mem_singleton.1 ht]
    exact .refl s
  | char test =>
    intro s t ht
    rw [Node.ways] at ht
    split at ht
    · next c hc =>
      split at ht
      · rw [List.mem_singleton.1 ht]
        refine .move fun _ => ?_
        exact (Array.getElem?_eq_some_iff.1 hc).1
      · cases ht
    · cases ht
  | anchor a =>
    intro s t ht
    rw [Node.ways] at ht
    split at ht
    · rw [List.mem_singleton.1 ht]
      exact .refl s
    · cases ht
  | again i f =>
    intro s t ht
    rw [Node.ways] at ht
    split at ht
    · split at ht
      · next hsame =>
        rw [List.mem_singleton.1 ht]
        exact .move fun hs => sameText_le hsame hs
      · cases ht
    · cases ht
  | seq a b iha ihb =>
    intro s t ht
    obtain ⟨u, hu, ht⟩ := List.mem_flatMap.1 ht
    exact (iha (fun i hi => hn i (List.mem_append_left _ hi)) hu).trans
      (ihb (fun i hi => hn i (List.mem_append_right _ hi)) ht)
  | alt a b iha ihb =>
    intro s t ht
    rcases List.mem_append.1 ht with ht | ht
    · exact iha (fun i hi => hn i (List.mem_append_left _ hi)) ht
    · exact ihb (fun i hi => hn i (List.mem_append_right _ hi)) ht
  | group i body ih =>
    intro s t ht
    obtain ⟨hi, hbody⟩ := List.forall_mem_cons.1 hn
    obtain ⟨u, hu, rfl⟩ := List.mem_map.1 ht
    exact ((Onward.mark hi s).trans (ih hbody hu)).trans (.mark hi u)
  | many least most greed test =>
    intro s t ht
    obtain ⟨k, _, hk, rfl⟩ := mem_manyWays ht
    refine .move fun hs => ?_
    have := runLength_le text test (min (text.size - s.pos) (most.getD (text.size - s.pos))) s.pos
    omega
  | loop least most greed body ih => exact along_loopWays Onward.refl Onward.trans (ih hn)
  | atomic body ih =>
    intro s t ht
    exact ih hn (List.mem_of_head? (Option.mem_toList.1 ht))
  | ahead negated body ih =>
    intro s t ht
    rcases mem_probe ht with rfl | ⟨u, hu, rfl⟩
    · exact .refl t
    · exact (ih hn (List.mem_of_head? hu)).back (Nat.le_refl _)
  | behind negated width body ih =>
    intro s t ht
    rcases mem_probe ht with rfl | ⟨u, hu, rfl⟩
    · exact .refl t
    · split at hu
      · exact (ih hn (List.mem_of_head? hu)).back (Nat.sub_le _ _)
      · cases hu
  | whether i yes no ihy ihn =>
    intro s t ht
    rw [Node.ways] at ht
    split at ht
    · exact ihy (fun i hi => hn i (List.mem_append_left _ hi)) ht
    · exact ihn (fun i hi => hn i (List.mem_append_right _ hi)) ht

theorem pos_le_ways (ht : t ∈ n.ways text s) : s.pos ≤ t.pos :=
  (onward_ways (P := fun _ => True) n (fun _ _ => trivial) ht).pos_le

theorem within_ways (ht : t ∈ n.ways text s) (hs : s.Within text) : t.Within text :=
  (onward_ways (P := fun _ => True) n (fun _ _ => trivial) ht).inside hs

/-- Without groups no marks are set. -/
theorem marks_ways (hn : n.indices = []) (ht : t ∈ n.ways text s) : t.marks = s.marks := by
  obtain ⟨new, hnew, hnone⟩ := (onward_ways (P := fun _ => False) n (by simp [hn]) ht).marks
  cases new with
  | nil => exact hnew
  | cons e new => exact absurd List.mem_cons_self (hnone e)

theorem indices_ofList {ns : List Node} : (Node.ofList ns).indices = ns.flatMap Node.indices := by
  induction ns with
  | nil => rfl
  | cons n ns ih =>
    rw [List.flatMap_cons, ← ih]
    rfl

end UrlRouting.Expression
