import UrlRouting.Proofs.Pattern.Plain

/-! Matching a path with a plain pattern splits the path at its slashes. -/
namespace UrlRouting

open Expression Expression.Reading PathMatcher

variable {text : Subject} {goal : Goal} {st t : State} {rest : List Char} {i k : Nat}
  {s : Segment} {segments : List (Segment × Nat)} {g g' : GroupTable} {ns : List Node}
  {ws : List (List Char)} {p : Pattern}

/-- The texts, each after a slash. -/
def spelled (ws : List (List Char)) : List Char :=
  ws.flatMap ('/' :: ·)

@[simp] theorem spelled_nil : spelled [] = [] := rfl

@[simp] theorem spelled_cons (w : List Char) (ws : List (List Char)) :
    spelled (w :: ws) = '/' :: (w ++ spelled ws) := rfl

theorem atBreak_spelled (h : AtBreak rest) : AtBreak (spelled ws ++ rest) := by
  cases ws with
  | nil => exact h
  | cons w ws => simp [AtBreak]

namespace Segment

/-- The state after a segment that has taken a text. -/
def after (s : Segment) (k : Nat) (w : List Char) (st : State) : State :=
  if s.isNamed then ((st.mark (.opening k)).move w.length).mark (.closing k) else st.move w.length

/-- The state after segments that have each taken a text. -/
def afterAll : Nat → List (Segment × Nat) → List (List Char) → State → State
  | k, s :: segments, w :: ws, st =>
    afterAll (if s.1.isNamed then k + 1 else k) segments ws (s.1.after k w (st.move 1))
  | _, _, _, st => st

theorem pos_after (s : Segment) (k : Nat) (w : List Char) (st : State) :
    (s.after k w st).pos = st.pos + w.length := by
  unfold after
  split <;> rfl

theorem left_after {w : List Char} (h : Left text st (w ++ rest)) :
    Left text (s.after k w st) rest := by
  obtain ⟨before, htext, hpos⟩ := h.move
  exact ⟨before, htext, by rw [pos_after, ← hpos]; rfl⟩

end Segment

open Segment

theorem span?_mark_of_ne {m : Mark} (ho : m ≠ .opening k) (hc : m ≠ .closing k) :
    (st.mark m).span? k = st.span? k := by
  have ho' : (Mark.opening k == m) = false := by simpa using Ne.symm ho
  have hc' : (Mark.closing k == m) = false := by simpa using Ne.symm hc
  simp [State.span?, State.mark, List.lookup_cons, ho', hc']

theorem span?_move (st : State) (n : Nat) : (st.move n).span? k = st.span? k := rfl

theorem span?_after_of_ne {j : Nat} {w : List Char} (h : j ≠ k) :
    (s.after k w st).span? j = st.span? j := by
  unfold Segment.after
  split
  · rw [span?_mark_of_ne (by simp) (by simpa using Ne.symm h), span?_move,
      span?_mark_of_ne (by simpa using Ne.symm h) (by simp)]
  · rfl

theorem span?_after (hs : s.isNamed) {w : List Char} :
    (s.after k w st).span? k = some (st.pos, st.pos + w.length) := by
  have hne : (Mark.opening k == Mark.closing k) = false := beq_eq_false_iff_ne.2 (by simp)
  simp [Segment.after, hs, State.span?, State.mark, State.move, List.lookup_cons, hne]

theorem span?_afterAll {j : Nat} (h : j < k) :
    (afterAll k segments ws st).span? j = st.span? j := by
  induction segments generalizing k ws st with
  | nil => rfl
  | cons s segments ih =>
    cases ws with
    | nil => rfl
    | cons w ws =>
      rw [afterAll, ih, span?_after_of_ne (by omega), span?_move]
      split <;> omega

/-! ### Running -/

theorem alone_unique {text : List Char} {ignoreCase : Bool} {a b : Reading}
    (ha : Alone ignoreCase text a) (hb : Alone ignoreCase text b) : a = b :=
  Except.ok.inj (ha.ran.symm.trans hb.ran)

theorem readable_of_plain (hw : s.Written) (hp : s.IsPlain) : Readable false s where
  exact hn := by
    cases hw with
    | exact _ => simp [Segment.exact]
    | placeholder => cases hn
    | constrained => cases hn
  named hn := by
    obtain ⟨_, ha⟩ := alone_of_plain hw hp hn
    exact ⟨_, ha⟩

/-- The group of a plain segment. -/
def groupOf (s : Segment) (k : Nat) : Node :=
  .group k (.ofList [.many 1 none .greedy s.test])

theorem takes_exact (hs : s.isNamed = false) :
    Takes text (.ofList (s.data.toList.map fun c => (charPiece false c).node)) s.Fits
      (s.after k) := by
  have h := takes_literals text s.data.toList
  have hfits : s.Fits = (· = s.data.toList) := funext fun w => propext (fits_exact hs)
  have hafter : s.after k = fun w st => st.move w.length := by
    funext w st
    simp [Segment.after, hs]
  rw [hfits, hafter]
  exact h

theorem takes_named (hs : s.isNamed) : Takes text (groupOf s k) s.Fits (s.after k) := by
  have h := (takes_many text (test_slash hs)).group k
  have hfits : s.Fits = fun w => w ≠ [] ∧ ∀ c ∈ w, s.test.accepts c :=
    funext fun w => propext (fits_iff hs)
  have hafter : s.after k =
      fun w st => ((st.mark (.opening k)).move w.length).mark (.closing k) := by
    funext w st
    simp [Segment.after, hs]
  rw [hfits, hafter]
  exact ⟨h.hit, h.sound⟩

/-- What a plain segment is laid out as, and the number of the next group. -/
theorem laid_cons (text : Subject) (h : Laid false ((s, i) :: segments) g ns g') (hw : s.Written)
    (hp : s.IsPlain) :
    ∃ n ms g'', Takes text n s.Fits (s.after g.next) ∧
      (∀ goal, (Node.ofList ns).run text goal =
        slash.run text (n.run text ((Node.ofList ms).run text goal))) ∧
      g''.next = (if s.isNamed then g.next + 1 else g.next) ∧ Laid false segments g'' ms g' := by
  cases h with
  | exact hs h =>
    refine ⟨_, _, g, takes_exact hs, fun goal => ?_, by simp [hs], h⟩
    rw [List.cons_append, run_cons, run_append]
  | named hs ha hadmits h =>
    obtain ⟨length, ha'⟩ := alone_of_plain hw hp hs
    obtain rfl := alone_unique ha ha'
    refine ⟨_, _, _, takes_named hs, fun goal => ?_, ?_, h⟩
    · rw [run_cons, run_cons]
      rfl
    · simp [hs, GroupTable.grouped, repetition, GroupTable.empty, Nat.add_comm]

theorem run_slash (h : Left text st rest) : slash.run text goal st =
    if rest.head? = some '/' then goal (st.move 1) else none :=
  run_literal (c := '/') h

theorem slashed_slash : Slashed text (slash.run text goal) := by
  intro st rest t hl ht
  rw [run_slash hl] at ht
  split at ht
  · next h => exact atBreak_iff.2 (.inr h)
  · cases ht

theorem slashed_laid (h : Laid false segments g ns g') (hgoal : Slashed text goal) :
    Slashed text ((Node.ofList ns).run text goal) := by
  cases h with
  | nil => exact hgoal
  | exact => exact slashed_slash
  | named => exact slashed_slash

/-- Texts that fit are taken. -/
theorem run_laid_hit (h : Laid false segments g ns g') (hw : ∀ s ∈ segments, s.1.Written)
    (hp : ∀ s ∈ segments, s.1.IsPlain) (hgoal : Slashed text goal)
    (hfits : List.Forall₂ (fun s w => s.1.Fits w) segments ws)
    (hl : Left text st (spelled ws ++ rest)) (hb : AtBreak rest) :
    (Node.ofList ns).run text goal st = goal (afterAll g.next segments ws st) := by
  induction segments generalizing g ns ws st with
  | nil =>
    cases hfits
    cases h
    rfl
  | cons s segments ih =>
    obtain ⟨s, i⟩ := s
    cases hfits with
    | @cons _ w _ ws hfit hfits =>
      obtain ⟨hws, hw⟩ := List.forall_mem_cons.1 hw
      obtain ⟨hps, hp⟩ := List.forall_mem_cons.1 hp
      obtain ⟨n, ms, g'', htakes, hrun, hnext, hlaid⟩ := laid_cons text h hws hps
      rw [spelled_cons, List.cons_append, List.append_assoc] at hl
      rw [hrun, run_slash hl, List.head?_cons, if_pos rfl,
        htakes.hit (slashed_laid hlaid hgoal) hl.move_one hfit (atBreak_spelled hb),
        ih hlaid hw hp hfits (left_after hl.move_one), hnext]
      rfl

/-- What has been taken fits. -/
theorem run_laid_sound (h : Laid false segments g ns g') (hw : ∀ s ∈ segments, s.1.Written)
    (hp : ∀ s ∈ segments, s.1.IsPlain) (hgoal : Slashed text goal) (hl : Left text st rest)
    (ht : (Node.ofList ns).run text goal st = some t) :
    ∃ ws rest', rest = spelled ws ++ rest' ∧
      List.Forall₂ (fun s w => s.1.Fits w) segments ws ∧ AtBreak rest' := by
  induction segments generalizing g ns st rest with
  | nil =>
    cases h
    exact ⟨[], rest, rfl, .nil, hgoal hl ht⟩
  | cons s segments ih =>
    obtain ⟨s, i⟩ := s
    obtain ⟨hws, hw⟩ := List.forall_mem_cons.1 hw
    obtain ⟨hps, hp⟩ := List.forall_mem_cons.1 hp
    obtain ⟨n, ms, g'', htakes, hrun, hnext, hlaid⟩ := laid_cons text h hws hps
    have hslashed := slashed_laid hlaid hgoal
    rw [hrun, run_slash hl] at ht
    split at ht
    · next hhead =>
      obtain ⟨rest, rfl⟩ := List.head?_eq_some_iff.1 hhead
      obtain ⟨w, rest', rfl, hfit, hb⟩ := htakes.sound hslashed hl.move_one ht
      rw [htakes.hit hslashed hl.move_one hfit hb] at ht
      obtain ⟨ws, rest'', rfl, hfits, hb'⟩ := ih hlaid hw hp (left_after hl.move_one) ht
      exact ⟨w :: ws, rest'', by simp, .cons hfit hfits, hb'⟩
    · cases ht

end UrlRouting
