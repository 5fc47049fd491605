import UrlRouting.Expression.Piece
import UrlRouting.Proofs.Expression.Ways

/-! Branches of which the last one may go on in one way or another. What the branches share at their
heads does not depend on it, and so neither do the positions that are reached, but for those that
the last branch leads to. -/
namespace UrlRouting.Expression

variable {text : Subject} {ns ms ms' : List Node} {folding : Folding}
  {seq ps qs : List Piece} {branches : List (List Piece)}

/-! ### Positions -/

/-- Each position that some steps lead to is reached by the others, too. -/
def Steps.ReachedBy (f g : Steps) : Prop :=
  ∀ s, ∀ t ∈ f s, ∃ u ∈ g s, u.pos = t.pos

theorem reachedBy_append
    (h : ((Node.ofList ms).ways text).ReachedBy ((Node.ofList ms').ways text)) :
    ((Node.ofList (ns ++ ms)).ways text).ReachedBy ((Node.ofList (ns ++ ms')).ways text) := by
  intro s t ht
  obtain ⟨v, hv, ht⟩ := mem_ways_append.1 ht
  obtain ⟨u, hu, hpos⟩ := h v t ht
  exact ⟨u, mem_ways_append.2 ⟨v, hv, hu⟩, hpos⟩

theorem reachedBy_singleton {n n' : Node} (h : (n.ways text).ReachedBy (n'.ways text)) :
    ((Node.ofList [n]).ways text).ReachedBy ((Node.ofList [n']).ways text) := by
  have hself : ∀ n : Node, (Node.ofList [n]).ways text = n.ways text := by
    intro n
    funext s
    exact List.flatMap_singleton' _
  rw [hself, hself]
  exact h

theorem reachedBy_anyOf {n n' : Node} (h : (n.ways text).ReachedBy (n'.ways text)) :
    ((Node.anyOf (ns ++ [n])).ways text).ReachedBy ((Node.anyOf (ns ++ [n'])).ways text) := by
  intro s t ht
  obtain ⟨m, hm, ht⟩ := (mem_ways_anyOf (by simp)).1 ht
  rcases List.mem_append.1 hm with hm | hm
  · exact ⟨t, (mem_ways_anyOf (by simp)).2 ⟨m, List.mem_append_left _ hm, ht⟩, rfl⟩
  · rw [List.mem_singleton.1 hm] at ht
    obtain ⟨u, hu, hpos⟩ := h s t ht
    exact ⟨u, (mem_ways_anyOf (by simp)).2 ⟨n', by simp, hu⟩, hpos⟩

/-! ### The last branch -/

/-- Pieces that no branch shares with others, and that are not one character. -/
structure Closing (ps : List Piece) : Prop where
  head : ∃ p rest, ps = p :: rest ∧ p.isShareable = false
  alone : classOf?.onlyItems? ps = none

theorem sharedHeads_append (first seq : List Piece) (others : List (List Piece)) :
    ∃ heads branches rest, ∀ ps, Closing ps →
      sharedHeads first (others ++ [seq ++ ps]) = (heads, branches ++ [rest ++ ps]) := by
  induction first generalizing seq others with
  | nil => exact ⟨[], [] :: others, seq, fun ps _ => rfl⟩
  | cons p first ih =>
    cases seq with
    | nil =>
      refine ⟨[], (p :: first) :: others, [], fun ps hps => ?_⟩
      obtain ⟨⟨e, rest, rfl, he⟩, _⟩ := hps
      rw [sharedHeads, if_neg]
      · rfl
      · intro hshared
        simp only [Bool.and_eq_true, List.all_eq_true] at hshared
        have hhead := hshared.2 ([] ++ e :: rest) (by simp)
        obtain rfl : e = p := by simpa using hhead
        rw [hshared.1] at he
        cases he
    | cons q seq =>
      have hheads : ∀ ps : List Piece, (others ++ [q :: seq ++ ps]).all (·.head? == some p) =
          (others ++ [[q]]).all (·.head? == some p) := by
        simp
      by_cases hshared : (p.isShareable && (others ++ [[q]]).all (·.head? == some p)) = true
      · obtain ⟨heads, branches, rest, ih⟩ := ih seq (others.map List.tail)
        refine ⟨p :: heads, branches, rest, fun ps hps => ?_⟩
        have htails : (others ++ [q :: seq ++ ps]).map List.tail =
            others.map List.tail ++ [seq ++ ps] := by
          simp
        rw [sharedHeads, hheads, if_pos hshared, htails, ih ps hps]
      · refine ⟨[], (p :: first) :: others, q :: seq, fun ps _ => ?_⟩
        rw [sharedHeads, hheads, if_neg hshared]
        rfl

theorem classOf?_append (hps : Closing ps) : classOf? (branches ++ [seq ++ ps]) = none := by
  have hlast : classOf?.onlyItems? (seq ++ ps) = none := by
    obtain ⟨⟨p, rest, rfl, _⟩, halone⟩ := hps
    cases seq with
    | nil => exact halone
    | cons q seq => cases seq <;> rfl
  rw [classOf?, List.mapM_append]
  cases branches.mapM classOf?.onlyItems? with
  | none => rfl
  | some items => simp [hlast]

theorem reachedBy_alternatives (hps : Closing ps) (hqs : Closing qs)
    (h : ((Node.ofList (ps.map Piece.node)).ways text).ReachedBy
      ((Node.ofList (qs.map Piece.node)).ways text)) :
    ((Node.ofList ((alternatives folding (branches ++ [seq ++ ps])).map Piece.node)).ways
      text).ReachedBy
      ((Node.ofList ((alternatives folding (branches ++ [seq ++ qs])).map Piece.node)).ways
        text) := by
  cases branches with
  | nil =>
    simp only [List.nil_append, alternatives, List.map_append]
    exact reachedBy_append h
  | cons first others =>
    obtain ⟨heads, branches, rest, hshared⟩ := sharedHeads_append first seq others
    have halternatives : ∀ ps, Closing ps → alternatives folding (first :: others ++ [seq ++ ps]) =
        heads ++ [⟨.anyOf ((branches ++ [rest ++ ps]).map fun ps => .ofList (ps.map Piece.node)),
          .enclosed⟩] := by
      intro ps hps
      have hchoice : classOf? (sharedHeads first (others ++ [seq ++ ps])).2 = none := by
        rw [hshared ps hps]
        exact classOf?_append hps
      have hfirst : alternatives folding (first :: others ++ [seq ++ ps]) =
          (sharedHeads first (others ++ [seq ++ ps])).1 ++
            [⟨.anyOf ((sharedHeads first (others ++ [seq ++ ps])).2.map fun ps =>
              .ofList (ps.map Piece.node)), .enclosed⟩] := by
        cases others <;> simp only [List.cons_append, List.nil_append, alternatives]
          at hchoice ⊢ <;>
          rw [hchoice]
      rw [hfirst, hshared ps hps]
    rw [halternatives ps hps, halternatives qs hqs]
    simp only [List.map_append, List.map_cons, List.map_nil]
    exact reachedBy_append (reachedBy_singleton (reachedBy_anyOf (reachedBy_append h)))

end UrlRouting.Expression
