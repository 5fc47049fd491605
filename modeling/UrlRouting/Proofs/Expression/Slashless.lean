import UrlRouting.Proofs.Expression.Onward

/-! Expressions that pass no slash, and how far each of their ways goes at least. -/
namespace UrlRouting.Expression

variable {text : Subject} {s t : State} {f : Steps} {n : Node} {k : Nat}

/-- What the expression matches has no slash in it. -/
def Node.isSlashless : Node → Bool
  | .empty | .anchor _ | .ahead .. | .behind .. => true
  | .again .. => false
  | .char test | .many _ _ _ test => !test.accepts '/'
  | .seq a b | .alt a b | .whether _ a b => a.isSlashless && b.isSlashless
  | .group _ body | .loop _ _ _ body | .atomic body => body.isSlashless

/-! ### Slashes -/

/-- There is no slash between two states. -/
def Slashless (text : Subject) (s t : State) : Prop :=
  ∀ q, s.pos ≤ q → q < t.pos → text[q]? ≠ some '/'

theorem slashless_self (h : t.pos = s.pos) : Slashless text s t := by
  intro q hs ht
  omega

theorem Slashless.trans {u : State} (h : Slashless text s t) (h' : Slashless text t u) :
    Slashless text s u := by
  intro q hs hu
  by_cases hq : q < t.pos
  · exact h q hs hq
  · exact h' q (by omega) hu

theorem runLength_accepts {test : CharTest} {limit pos : Nat}
    (hk : k < runLength text test limit pos) :
    ∃ c, text[pos + k]? = some c ∧ test.accepts c = true := by
  induction limit generalizing pos k with
  | zero => cases hk
  | succ limit ih =>
    rw [runLength] at hk
    split at hk
    · next c hc =>
      split at hk
      · next hac =>
        cases k with
        | zero => exact ⟨c, hc, hac⟩
        | succ k =>
          obtain ⟨d, hd, had⟩ := ih (Nat.lt_of_succ_lt_succ hk)
          exact ⟨d, by rw [← hd, Nat.add_assoc, Nat.add_comm 1 k], had⟩
      · cases hk
    · cases hk

theorem ne_slash_of_accepts {test : CharTest} {q : Nat} (htest : test.accepts '/' = false)
    (h : ∃ c, text[q]? = some c ∧ test.accepts c = true) : text[q]? ≠ some '/' := by
  obtain ⟨c, hc, hac⟩ := h
  intro hslash
  rw [hc] at hslash
  cases hslash
  rw [htest] at hac
  cases hac

theorem slashless_ways (hn : n.isSlashless = true) : (n.ways text).Along (Slashless text) := by
  induction n with
  | empty =>
    intro s t ht
    rw [List.mem_singleton.1 ht]
    exact slashless_self rfl
  | char test =>
    intro s t ht
    rw [Node.ways] at ht
    split at ht
    · next c hc =>
      split at ht
      · next hac =>
        rw [List.mem_singleton.1 ht]
        intro q hs hq
        have heq : q = s.pos := by
          change q < s.pos + 1 at hq
          omega
        rw [heq]
        exact ne_slash_of_accepts (by simpa [Node.isSlashless] using hn) ⟨c, hc, hac⟩
      · cases ht
    · cases ht
  | anchor a =>
    intro s t ht
    rw [Node.ways] at ht
    split at ht
    · rw [List.mem_singleton.1 ht]
      exact slashless_self rfl
    · cases ht
  | again => cases hn
  | seq a b iha ihb =>
    obtain ⟨ha, hb⟩ := Bool.and_eq_true_iff.1 hn
    intro s t ht
    obtain ⟨u, hu, ht⟩ := List.mem_flatMap.1 ht
    exact (iha ha hu).trans (ihb hb ht)
  | alt a b iha ihb =>
    obtain ⟨ha, hb⟩ := Bool.and_eq_true_iff.1 hn
    intro s t ht
    rcases List.mem_append.1 ht with ht | ht
    · exact iha ha ht
    · exact ihb hb ht
  | group i body ih =>
    intro s t ht
    obtain ⟨u, hu, rfl⟩ := List.mem_map.1 ht
    have hbody : Slashless text (s.mark (.opening i)) u := ih hn hu
    exact hbody
  | many least most greed test =>
    intro s t ht
    obtain ⟨k, _, hk, rfl⟩ := mem_manyWays ht
    intro q hs hq
    change q < s.pos + k at hq
    have hrun := runLength_accepts (k := q - s.pos) (Nat.lt_of_lt_of_le (by omega) hk)
    rw [Nat.add_sub_cancel' hs] at hrun
    exact ne_slash_of_accepts (by simpa [Node.isSlashless] using hn) hrun
  | loop least most greed body ih =>
    exact along_loopWays (fun _ => slashless_self rfl) Slashless.trans (ih hn)
  | atomic body ih =>
    intro s t ht
    exact ih hn (List.mem_of_head? (Option.mem_toList.1 ht))
  | ahead | behind =>
    intro s t ht
    rcases mem_probe ht with rfl | ⟨u, _, rfl⟩ <;> exact slashless_self rfl
  | whether i yes no ihy ihn =>
    obtain ⟨hy, hno⟩ := Bool.and_eq_true_iff.1 hn
    intro s t ht
    rw [Node.ways] at ht
    split at ht
    · exact ihy hy ht
    · exact ihn hno ht

/-! ### Lengths -/

/-- Each of the steps goes `k` characters on, or more. -/
def Steps.Covers (k : Nat) (f : Steps) : Prop :=
  f.Along fun s t => s.pos + k ≤ t.pos

theorem covers_turnWays {count : Nat} (hf : f.Covers k) :
    (turnWays f count).Covers (k * count) := by
  induction count with
  | zero =>
    intro s t ht
    rw [List.mem_singleton.1 ht]
    exact Nat.le_refl _
  | succ count ih =>
    intro s t ht
    obtain ⟨u, hu, ht⟩ := List.mem_flatMap.1 ht
    have hfirst := hf hu
    have hrest := ih ht
    rw [Nat.mul_succ]
    omega

theorem covers_possessiveExactly {count : Nat} (hf : f.Covers k)
    (h : possessiveExactly f.run count s = some t) : s.pos + k * count ≤ t.pos := by
  induction count generalizing s with
  | zero =>
    cases h
    exact Nat.le_refl _
  | succ count ih =>
    obtain ⟨u, hu, ht⟩ := Option.bind_eq_some_iff.1 h
    have hfirst := hf (mem_of_run_some hu)
    have hrest := ih ht
    rw [Nat.mul_succ]
    omega

theorem covers_loopWays {least : Nat} {most : Option Nat} {greed : Greed} (hf : f.Covers k) :
    (loopWays text least most greed f).Covers (k * least) := by
  have hclimbs : f.Climbs := fun s t ht => Nat.le_of_add_right_le (hf ht)
  intro s t ht
  cases greed with
  | greedy | lazy =>
    obtain ⟨u, hu, ht⟩ := List.mem_flatMap.1 ht
    exact Nat.le_trans (covers_turnWays hf hu) (climbs_optionalWays hclimbs ht)
  | possessive =>
    simp only [loopWays] at ht
    cases hu : possessiveExactly f.run least s with
    | none => simp [hu] at ht
    | some u =>
      rw [hu] at ht
      rw [List.mem_singleton.1 ht]
      exact Nat.le_trans (covers_possessiveExactly hf hu) (climbs_possessiveTurns hclimbs _ _ u)

/-- An expression goes as far as its width at least says. -/
theorem covers_ways : (n.ways text).Covers (n.width []).least := by
  induction n with
  | empty =>
    intro s t ht
    rw [List.mem_singleton.1 ht]
    exact Nat.le_refl _
  | char test =>
    intro s t ht
    rw [Node.ways] at ht
    split at ht
    · split at ht
      · rw [List.mem_singleton.1 ht]
        exact Nat.le_refl _
      · cases ht
    · cases ht
  | anchor a =>
    intro s t ht
    rw [Node.ways] at ht
    split at ht
    · rw [List.mem_singleton.1 ht]
      exact Nat.le_refl _
    · cases ht
  | again i f =>
    intro s t ht
    exact (onward_ways (P := fun _ => True) (.again i f) (fun _ _ => trivial) ht).pos_le
  | seq a b iha ihb =>
    intro s t ht
    obtain ⟨u, hu, ht⟩ := List.mem_flatMap.1 ht
    have hfirst := iha hu
    have hsecond := ihb ht
    simp only [Node.width, Width.add]
    omega
  | alt a b iha ihb =>
    intro s t ht
    simp only [Node.width, Width.either]
    rcases List.mem_append.1 ht with ht | ht
    · have hway := iha ht
      omega
    · have hway := ihb ht
      omega
  | group i body ih =>
    intro s t ht
    obtain ⟨u, hu, rfl⟩ := List.mem_map.1 ht
    have hbody : (s.mark (.opening i)).pos + (body.width []).least ≤ u.pos := ih hu
    exact hbody
  | many least most greed test =>
    intro s t ht
    obtain ⟨k, hleast, _, rfl⟩ := mem_manyWays ht
    simp only [Node.width, Width.times, Width.one, Nat.one_mul]
    exact Nat.add_le_add_left hleast _
  | loop least most greed body ih => exact covers_loopWays ih
  | atomic body ih =>
    intro s t ht
    exact ih (List.mem_of_head? (Option.mem_toList.1 ht))
  | ahead | behind =>
    intro s t ht
    rcases mem_probe ht with rfl | ⟨u, _, rfl⟩ <;> exact Nat.le_refl _
  | whether i yes no ihy ihn =>
    intro s t ht
    rw [Node.ways] at ht
    simp only [Node.width, Width.either]
    split at ht
    · have hway := ihy ht
      omega
    · have hway := ihn ht
      omega

end UrlRouting.Expression
