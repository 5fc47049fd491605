import UrlRouting.Proofs.Expression.Matching
import UrlRouting.Proofs.Pattern.Layout

/-! Matching what follows the segments of a pattern. -/
namespace UrlRouting.PathMatcher

open Expression

variable {text : Subject} {goal : Goal} {s t : State} {rest : List Char} {k : Nat} {body : Node}

/-- The goal of a match of the whole text. -/
def atEnd (text : Subject) : Goal :=
  fun s => if s.pos == text.size then some s else none

theorem atEnd_eq (h : Left text s rest) : atEnd text s = if rest = [] then some s else none := by
  have hsize := h.size_eq
  cases rest with
  | nil => simp [atEnd, hsize]
  | cons c rest => simp [atEnd, hsize]

theorem run_optionalSlash (h : Left text s rest) :
    optionalSlash.run text (atEnd text) s =
      if rest = [] then some s else if rest = ['/'] then some (s.move 1) else none := by
  have hroom : text.size - s.pos = rest.length := by
    have := h.size_eq
    omega
  simp only [optionalSlash, Node.run, runMany, runLength_eq h, Option.getD_some, hroom]
  rcases rest with _ | ⟨c, rest⟩
  · simp [longestFirst, atEnd_eq h]
  · by_cases hc : c = '/'
    · subst hc
      have hslash : (CharTest.literal 47 false .exact).accepts '/' = true := by decide
      have hnext := atEnd_eq h.move_one
      have hcount : min ((('/' :: rest).takeWhile
          (CharTest.literal 47 false .exact).accepts).length) (min ('/' :: rest).length 1) = 1 := by
        simp [hslash]
      rw [hcount]
      simp only [longestFirst, State.move_zero, atEnd_eq h]
      cases rest <;> simp_all
    · have hother : (CharTest.literal 47 false .exact).accepts c = false := by
        have := accepts_literal (c := '/') (d := c)
        simpa [hc] using this
      simp [hother, longestFirst, atEnd_eq h, hc]

theorem slashed_optionalSlash : Slashed text (optionalSlash.run text (atEnd text)) := by
  intro s rest t hl ht
  rw [run_optionalSlash hl] at ht
  split at ht
  · subst_vars
    simp [AtBreak]
  · split at ht
    · subst_vars
      simp [AtBreak]
    · cases ht

theorem run_optional : (Node.loop 0 (some 1) .greedy body).run text goal s =
    match body.run text goal s with
    | some t => some t
    | none => goal s := by
  have hroom : min 1 (text.size - s.pos + 1) = 1 := by omega
  simp only [Node.run, runLoop, turnLimit, Nat.sub_zero, hroom, turns, greedyTurns]
  exact if_pos rfl

theorem takeWhile_exceptNewline (h : '\n' ∉ rest) :
    rest.takeWhile CharTest.exceptNewline.accepts = rest := by
  induction rest with
  | nil => rfl
  | cons c rest ih =>
    simp only [List.mem_cons, not_or] at h
    have hc : CharTest.exceptNewline.accepts c = true := by
      simpa [CharTest.accepts] using Ne.symm h.1
    rw [List.takeWhile_cons, if_pos hc, ih h.2]

/-- All that is left of a line is taken, if that leads to the end. -/
theorem run_line_eq_some (h : Left text s rest) (hline : '\n' ∉ rest)
    (hg : goal (s.move rest.length) = some t) :
    (Node.many 0 none .greedy .exceptNewline).run text goal s = some t := by
  simp only [Node.run, runMany, Option.getD_none, runLength_room h, takeWhile_exceptNewline hline]
  rw [if_neg (Nat.not_lt_zero _)]
  exact longestFirst_eq_some (by simpa using hg)

/-- Nothing is taken beyond the end of a line. -/
theorem run_line_eq_none (h : Left text s rest) (hline : '\n' ∈ rest)
    (hg : ∀ {s rest}, Left text s rest → '\n' ∈ rest → goal s = none) :
    (Node.many 0 none .greedy .exceptNewline).run text goal s = none := by
  have hsplit : rest = rest.takeWhile CharTest.exceptNewline.accepts ++
    rest.dropWhile CharTest.exceptNewline.accepts := List.takeWhile_append_dropWhile.symm
  have hshort : ∀ k ≤ (rest.takeWhile CharTest.exceptNewline.accepts).length,
      goal (s.move k) = none := by
    intro k hk
    generalize hw : rest.takeWhile CharTest.exceptNewline.accepts = w at *
    have hw' : '\n' ∉ w := by
      intro hmem
      rw [← hw] at hmem
      simpa [CharTest.accepts] using accepts_of_mem_takeWhile hmem
    generalize rest.dropWhile CharTest.exceptNewline.accepts = after at hsplit
    subst hsplit
    rw [← List.take_append_drop k w, List.append_assoc] at h
    have hmove := h.move
    rw [List.length_take, Nat.min_eq_left hk] at hmove
    refine hg hmove ?_
    rcases List.mem_append.1 hline with hmem | hmem
    · exact absurd hmem hw'
    · exact List.mem_append_right _ hmem
  simp only [Node.run, runMany, Option.getD_none, runLength_room h]
  rw [if_neg (Nat.not_lt_zero _), longestFirst_of_none fun k hk => hshort _ (by omega)]
  exact hshort _ (by omega)

/-- The state after the tail. -/
def afterTail (k : Nat) (rest : List Char) (s : State) : State :=
  ((s.mark (.opening k)).move rest.length).mark (.closing k)

theorem run_ending_fixed {g : GroupTable} (h : Left text s rest) :
    (Node.ofList (ending false g)).run text (atEnd text) s =
      if rest = [] then some s else if rest = ['/'] then some (s.move 1) else none :=
  run_optionalSlash h

/-- With a wildcard the whole of the rest is the tail. -/
theorem run_ending_wildcard {g : GroupTable} (h : Left text s rest) :
    (Node.ofList (ending true g)).run text (atEnd text) s =
      if AtBreak rest ∧ '\n' ∉ rest then some (afterTail g.next rest s) else none := by
  let goal : Goal := fun t => optionalSlash.run text (atEnd text) (t.mark (.closing g.next))
  have hgoal : ∀ {t left}, Left text t left → goal t =
      if left = [] then some (t.mark (.closing g.next))
      else if left = ['/'] then some ((t.mark (.closing g.next)).move 1) else none :=
    fun hl => run_optionalSlash hl.mark
  have hrun : (Node.ofList (ending true g)).run text (atEnd text) s =
      (Node.loop 0 (some 1) .greedy (.seq slash (.seq (.many 0 none .greedy .exceptNewline)
        .empty))).run text goal (s.mark (.opening g.next)) := rfl
  have hs : Left text (s.mark (.opening g.next)) rest := h.mark
  rw [hrun, run_optional]
  have hinner : (Node.seq slash (.seq (.many 0 none .greedy .exceptNewline) .empty)).run text goal
      (s.mark (.opening g.next)) = if rest.head? = some '/' then
        (Node.many 0 none .greedy .exceptNewline).run text goal
          ((s.mark (.opening g.next)).move 1) else none := run_literal (c := '/') hs
  rw [hinner, hgoal hs]
  rcases rest with _ | ⟨c, rest⟩
  · simp [AtBreak, afterTail]
  · by_cases hc : c = '/'
    · subst hc
      rw [List.head?_cons, if_pos rfl]
      have hbreak : AtBreak ('/' :: rest) := by simp [AtBreak]
      by_cases hline : '\n' ∈ rest
      · rw [run_line_eq_none hs.move_one hline]
        · have hne : rest ≠ [] := List.ne_nil_of_mem hline
          simp [hline, hne]
        · intro t left hl hmem
          rw [hgoal hl, if_neg (List.ne_nil_of_mem hmem), if_neg]
          rintro rfl
          simp at hmem
      · have hend : goal (((s.mark (.opening g.next)).move 1).move rest.length) =
            some (afterTail g.next ('/' :: rest) s) := by
          have hl : Left text (((s.mark (.opening g.next)).move 1).move rest.length) [] :=
            Left.move (by simpa using hs.move_one)
          rw [hgoal hl, if_pos rfl]
          simp [afterTail, Nat.add_comm]
        rw [run_line_eq_some hs.move_one hline hend]
        simp [hbreak, hline]
    · have hbreak : ¬AtBreak (c :: rest) := fun h => hc (h c rfl)
      simp [hc, hbreak]

theorem slashed_ending {wildcard : Bool} {g : GroupTable} :
    Slashed text ((Node.ofList (ending wildcard g)).run text (atEnd text)) := by
  cases wildcard with
  | false => exact slashed_optionalSlash
  | true =>
    intro s rest t hl ht
    rw [run_ending_wildcard hl] at ht
    split at ht
    · next hb => exact hb.1
    · cases ht

end UrlRouting.PathMatcher
