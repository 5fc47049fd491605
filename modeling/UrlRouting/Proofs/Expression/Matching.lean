import UrlRouting.Expression.Matching

/-! Matching from a place in a text, told by what is left of the text there. -/
namespace UrlRouting.Expression

variable {text : Subject} {goal : Goal} {s : State} {c : Char} {cs rest : List Char}
  {test : CharTest} {ns ms : List Node}

/-! ### Places -/

/-- What is left of the text at the place that has been reached. -/
def Left (text : Subject) (s : State) (rest : List Char) : Prop :=
  ∃ before, text.toList = before ++ rest ∧ s.pos = before.length

theorem left_start : Left text .start text.toList :=
  ⟨[], rfl, rfl⟩

theorem Left.getElem? (h : Left text s rest) : text[s.pos]? = rest.head? := by
  obtain ⟨before, htext, hpos⟩ := h
  rw [← Array.getElem?_toList, htext, hpos, List.getElem?_append_right (Nat.le_refl _),
    Nat.sub_self, List.head?_eq_getElem?]

theorem Left.move (h : Left text s (cs ++ rest)) : Left text (s.move cs.length) rest := by
  obtain ⟨before, htext, hpos⟩ := h
  exact ⟨before ++ cs, by rw [htext, List.append_assoc], by simp [State.move, hpos]⟩

theorem Left.move_one (h : Left text s (c :: rest)) : Left text (s.move 1) rest :=
  show Left text (s.move [c].length) rest from Left.move h

theorem Left.size_eq (h : Left text s rest) : text.size = s.pos + rest.length := by
  obtain ⟨before, htext, hpos⟩ := h
  rw [← Array.length_toList, htext, hpos, List.length_append]

@[simp] theorem State.move_zero (s : State) : s.move 0 = s := rfl

@[simp] theorem State.move_move (s : State) (m n : Nat) : (s.move m).move n = s.move (m + n) := by
  simp [State.move, Nat.add_assoc]

@[simp] theorem State.pos_mark (s : State) (m : Mark) : (s.mark m).pos = s.pos := rfl

theorem Left.mark {m : Mark} (h : Left text s rest) : Left text (s.mark m) rest := h

/-! ### Sequences -/

theorem run_append : (Node.ofList (ns ++ ms)).run text goal =
    (Node.ofList ns).run text ((Node.ofList ms).run text goal) := by
  induction ns with
  | nil => rfl
  | cons n ns ih =>
    have : (Node.ofList (n :: (ns ++ ms))).run text goal =
      n.run text ((Node.ofList (ns ++ ms)).run text goal) := rfl
    rw [List.cons_append, this, ih]
    rfl

theorem run_cons {n : Node} : (Node.ofList (n :: ns)).run text goal =
    n.run text ((Node.ofList ns).run text goal) := rfl

theorem run_nil : (Node.ofList []).run text goal = goal := rfl

/-! ### Characters -/

theorem accepts_literal {d : Char} :
    (CharTest.literal c.toNat false .exact).accepts d = decide (d = c) := by
  simp only [CharTest.accepts, Folding.same, Folding.apply, Folding.kin, List.contains_nil,
    Bool.or_false, Bool.bne_false]
  rw [Bool.eq_iff_iff, beq_iff_eq, decide_eq_true_eq, Char.toNat_inj]

theorem run_char (h : Left text s rest) : (Node.char test).run text goal s =
    match rest with
    | d :: _ => if test.accepts d then goal (s.move 1) else none
    | [] => none := by
  simp only [Node.run, h.getElem?]
  cases rest <;> rfl

theorem run_literal (h : Left text s rest) :
    (Node.char (.literal c.toNat false .exact)).run text goal s =
      if rest.head? = some c then goal (s.move 1) else none := by
  rw [run_char h]
  cases rest with
  | nil => rfl
  | cons d rest => simp [accepts_literal]

theorem run_literals (h : Left text s rest) :
    (Node.ofList (cs.map fun c => .char (.literal c.toNat false .exact))).run text goal s =
      if cs <+: rest then goal (s.move cs.length) else none := by
  induction cs generalizing s rest with
  | nil => simp [run_nil]
  | cons c cs ih =>
    rw [List.map_cons, run_cons, run_literal h]
    cases rest with
    | nil => simp
    | cons d rest =>
      by_cases hd : d = c
      · subst hd
        rw [List.head?_cons, if_pos rfl, ih h.move_one]
        simp [Nat.add_comm]
      · rw [if_neg (by simpa using hd), if_neg]
        intro hp
        exact hd (List.cons_prefix_cons.1 hp).1.symm

/-! ### Runs of characters -/

theorem runLength_eq {limit : Nat} (h : Left text s rest) :
    runLength text test limit s.pos = min (rest.takeWhile test.accepts).length limit := by
  induction limit generalizing s rest with
  | zero => simp [runLength]
  | succ limit ih =>
    simp only [runLength, h.getElem?]
    cases rest with
    | nil => rfl
    | cons d rest =>
      simp only [List.head?_cons, List.takeWhile_cons]
      have := ih h.move_one
      simp only [State.move] at this
      split
      · simp only [this, List.length_cons]
        omega
      · simp

/-- The number of characters that a run without an upper bound finds. -/
theorem runLength_room (h : Left text s rest) :
    runLength text test (min (text.size - s.pos) (text.size - s.pos)) s.pos =
      (rest.takeWhile test.accepts).length := by
  have hroom : text.size - s.pos = rest.length := by
    have := h.size_eq
    omega
  rw [runLength_eq h, Nat.min_self, hroom]
  exact Nat.min_eq_left (List.takeWhile_prefix _).length_le

theorem longestFirst_of_none {least extra : Nat}
    (h : ∀ k < extra, goal (s.move (least + k)) = none) :
    longestFirst goal s least extra = goal (s.move (least + extra)) := by
  induction extra with
  | zero => rfl
  | succ extra ih =>
    have hrest := ih fun k hk => h k (by omega)
    have hlast : longestFirst goal s least extra = none := by
      rw [hrest]
      exact h extra (by omega)
    rw [longestFirst, hlast]
    cases goal (s.move (least + (extra + 1))) <;> rfl

theorem longestFirst_eq_some {least extra : Nat} {t : State}
    (h : goal (s.move (least + extra)) = some t) : longestFirst goal s least extra = some t := by
  cases extra with
  | zero => exact h
  | succ extra =>
    rw [longestFirst, Nat.add_assoc, h]

/-! ### Breaks -/

/-- A slash comes next, or the end. -/
def AtBreak (rest : List Char) : Prop :=
  ∀ c, rest.head? = some c → c = '/'

theorem atBreak_iff : AtBreak rest ↔ rest = [] ∨ rest.head? = some '/' := by
  cases rest <;> simp [AtBreak]

instance : Decidable (AtBreak rest) :=
  decidable_of_iff _ atBreak_iff.symm

/-- Nothing but a slash or the end will do. -/
def Slashed (text : Subject) (goal : Goal) : Prop :=
  ∀ ⦃s rest t⦄, Left text s rest → goal s = some t → AtBreak rest

theorem Slashed.eq_none (h : Slashed text goal) (hl : Left text s (c :: rest)) (hc : c ≠ '/') :
    goal s = none := by
  cases hg : goal s with
  | none => rfl
  | some t => exact absurd (h hl hg c rfl) hc

/-- Before a slash or the end the node takes the texts that fit, one at each place. -/
structure Takes (text : Subject) (n : Node) (fits : List Char → Prop)
    (after : List Char → State → State) : Prop where
  hit : ∀ {goal s w rest}, Slashed text goal → Left text s (w ++ rest) → fits w → AtBreak rest →
    n.run text goal s = goal (after w s)
  sound : ∀ {goal s rest t}, Slashed text goal → Left text s rest → n.run text goal s = some t →
    ∃ w rest', rest = w ++ rest' ∧ fits w ∧ AtBreak rest'

theorem Slashed.mark {m : Mark} (h : Slashed text goal) :
    Slashed text fun s => goal (s.mark m) :=
  fun _ _ _ hl ht => h hl.mark ht

theorem takes_literals (text : Subject) (cs : List Char) :
    Takes text (.ofList (cs.map fun c => .char (.literal c.toNat false .exact))) (· = cs)
      fun w s => s.move w.length where
  hit := by
    rintro goal s w rest _ hl rfl _
    rw [run_literals hl, if_pos (List.prefix_append _ _)]
  sound := by
    intro goal s rest t hgoal hl ht
    rw [run_literals hl] at ht
    split at ht
    · next hp =>
      obtain ⟨rest', rfl⟩ := hp
      exact ⟨cs, rest', rfl, rfl, hgoal hl.move ht⟩
    · cases ht

theorem accepts_of_mem_takeWhile {rest : List Char} (h : c ∈ rest.takeWhile test.accepts) :
    test.accepts c :=
  List.all_eq_true.1 List.all_takeWhile c h

theorem takeWhile_eq_of_break (htest : test.accepts '/' = false)
    (hw : ∀ c ∈ cs, test.accepts c) (hb : AtBreak rest) :
    (cs ++ rest).takeWhile test.accepts = cs := by
  rw [List.takeWhile_append_of_pos hw]
  cases rest with
  | nil => simp
  | cons d rest =>
    have hd : d = '/' := hb d rfl
    simp [hd, htest]

/-- A run of characters other than slashes is taken as a whole. -/
theorem run_many_slashed (h : Left text s rest) (htest : test.accepts '/' = false)
    (hgoal : Slashed text goal) :
    (Node.many 1 none .greedy test).run text goal s =
      if rest.takeWhile test.accepts = [] then none
      else goal (s.move (rest.takeWhile test.accepts).length) := by
  have hsplit : rest = rest.takeWhile test.accepts ++ rest.dropWhile test.accepts :=
    List.takeWhile_append_dropWhile.symm
  simp only [Node.run, runMany, Option.getD_none, runLength_room h]
  generalize hw : rest.takeWhile test.accepts = w at *
  cases w with
  | nil => simp
  | cons d w =>
    rw [if_neg (by simp), if_neg (by simp)]
    have hall : ∀ c ∈ d :: w, test.accepts c := by
      rw [← hw]
      exact fun c hc => accepts_of_mem_takeWhile hc
    generalize rest.dropWhile test.accepts = after at hsplit
    subst hsplit
    -- A shorter run stops before a character of the run, which is no slash.
    have hshort : ∀ k < w.length, goal (s.move (1 + k)) = none := by
      intro k hk
      have hcut : d :: w ++ after = (d :: w.take k) ++ w[k] :: (w.drop (k + 1) ++ after) := by
        rw [← List.cons_append, List.getElem_cons_drop, List.cons_append,
          List.cons_append, ← List.append_assoc, List.take_append_drop]
      rw [hcut] at h
      have hlen : (d :: w.take k).length = 1 + k := by
        simp
        omega
      have hk' := h.move
      rw [hlen] at hk'
      refine hgoal.eq_none hk' ?_
      rintro heq
      have := hall w[k] (by simp)
      rw [heq, htest] at this
      cases this
    have hcount : (d :: w).length - 1 = w.length := rfl
    rw [hcount, longestFirst_of_none hshort, List.length_cons, Nat.add_comm]

theorem takes_many (text : Subject) (htest : test.accepts '/' = false) :
    Takes text (.many 1 none .greedy test) (fun w => w ≠ [] ∧ ∀ c ∈ w, test.accepts c)
      fun w s => s.move w.length where
  hit := by
    intro goal s w rest hgoal hl hfits hb
    rw [run_many_slashed hl htest hgoal, takeWhile_eq_of_break htest hfits.2 hb, if_neg hfits.1]
  sound := by
    intro goal s rest t hgoal hl ht
    rw [run_many_slashed hl htest hgoal] at ht
    split at ht
    · cases ht
    · next hne =>
      have hsplit : rest = rest.takeWhile test.accepts ++ rest.dropWhile test.accepts :=
        List.takeWhile_append_dropWhile.symm
      refine ⟨_, _, hsplit, ⟨hne, fun c hc => accepts_of_mem_takeWhile hc⟩, ?_⟩
      rw [hsplit] at hl
      exact hgoal hl.move ht

/-- A remembered group takes what its body takes. -/
theorem Takes.group {n : Node} {fits : List Char → Prop} {after : List Char → State → State}
    (h : Takes text n fits after) (k : Nat) :
    Takes text (.group k n) fits
      fun w s => (after w (s.mark (.opening k))).mark (.closing k) where
  hit hgoal hl hfits hb := h.hit hgoal.mark hl.mark hfits hb
  sound hgoal hl ht := h.sound hgoal.mark hl.mark ht

end UrlRouting.Expression
