import UrlRouting.Proofs.Expression.Slashless
import UrlRouting.Proofs.Expression.Window

/-! What single characters, places, groups and runs match in a part of a text by itself, and where
the part stands. -/
namespace UrlRouting.Expression

variable {f f' g g' : Steps} {u : State} {k p : Nat} {n : Node}

namespace Window

variable {W : Window}

/-- The states within the part. -/
def inside (W : Window) (s : State) : Bool :=
  s.pos ≤ W.first + W.part.size

theorem sieve_inside : W.Sieve W.inside where
  within u hu := by
    simp only [inside, pos_lift]
    exact decide_eq_true (Nat.add_le_add_left hu _)
  before s t hle ht := by
    simp only [inside, decide_eq_true_eq] at ht ⊢
    omega

theorem inside_move (hu : u.pos ≤ W.part.size) :
    W.inside ((W.lift u).move k) = decide (k ≤ W.part.size - u.pos) := by
  refine decide_eq_decide.2 ?_
  simp only [State.move, pos_lift]
  omega

theorem goes_ways (n : Node) : W.Goes ((n.renumber W.shift).ways W.text) (n.ways W.part) where
  whole _ _ ht := pos_le_ways ht
  part _ _ ht := ⟨pos_le_ways ht, within_ways ht⟩

/-! ### Characters -/

theorem getElem?_part (hp : p < W.part.size) : W.text[W.first + p]? = W.part[p]? := W.same p hp

theorem getElem?_size : W.text[W.first + W.part.size]? = none ∨
    W.text[W.first + W.part.size]? = some '/' := by
  rcases W.ends with h | h
  · exact .inl (by simp [h])
  · exact .inr h

theorem ways_char {text : Subject} {test : CharTest} {s : State} : (Node.char test).ways text s =
    match text[s.pos]? with
    | some c => if test.accepts c then [s.move 1] else []
    | none => [] := rfl

/-- A character of the part. -/
theorem ways_char_lift {test : CharTest} (hu : u.pos < W.part.size) :
    (Node.char test).ways W.text (W.lift u) = ((Node.char test).ways W.part u).map W.lift := by
  rw [ways_char, ways_char, pos_lift, getElem?_part hu]
  cases W.part[u.pos]? with
  | none => rfl
  | some c =>
    dsimp only
    split
    · simp
    · rfl

theorem ways_char_size {test : CharTest} (hu : u.pos = W.part.size) :
    (Node.char test).ways W.part u = [] := by
  rw [ways_char, hu, Array.getElem?_size]

theorem follows_char {test : CharTest} :
    W.Follows W.inside ((Node.char test).ways W.text) ((Node.char test).ways W.part) := by
  intro u hu
  rcases Nat.lt_or_eq_of_le hu.pos with hlt | heq
  · rw [ways_char_lift hlt, List.filter_eq_self]
    intro t ht
    obtain ⟨u', hu', rfl⟩ := List.mem_map.1 ht
    exact sieve_inside.within u' (((goes_ways (.char test)).part hu').2 hu).pos
  · rw [ways_char_size heq, List.map_nil, List.filter_eq_nil_iff]
    intro t ht
    rw [ways_char] at ht
    split at ht
    · split at ht
      · rw [List.mem_singleton.1 ht]
        simp [inside, State.move, heq]
      · cases ht
    · cases ht

/-! ### Places -/

theorem isWordAt_lift {asciiOnly : Bool} (hp : p ≤ W.part.size) :
    Anchor.isWordAt W.text asciiOnly (W.first + p) = Anchor.isWordAt W.part asciiOnly p := by
  simp only [Anchor.isWordAt]
  rcases Nat.lt_or_eq_of_le hp with hlt | rfl
  · rw [getElem?_part hlt]
  · rw [Array.getElem?_size]
    rcases getElem?_size (W := W) with h | h
    · rw [h]
    · rw [h]
      cases asciiOnly <;> decide

theorem wordBefore_lift {asciiOnly : Bool} (hp : p ≤ W.part.size) :
    Anchor.wordBefore W.text asciiOnly (W.first + p) = Anchor.wordBefore W.part asciiOnly p := by
  cases p with
  | zero =>
    rw [Nat.add_zero]
    have hopens := W.opens
    cases hfirst : W.first with
    | zero => rfl
    | succ i =>
      have hslash : W.text[i]? = some '/' := by simpa [hfirst] using hopens
      simp only [Anchor.wordBefore, Anchor.isWordAt, hslash]
      cases asciiOnly <;> decide
  | succ p => exact isWordAt_lift (Nat.le_of_succ_le hp)

theorem not_isEmpty_text (hpart : W.part ≠ #[]) : W.text.isEmpty = false := by
  have hsize := W.size_le
  have hpos := Array.size_pos_iff.2 hpart
  rw [Array.isEmpty_eq_false_iff, ← Array.size_pos_iff]
  omega

theorem holds_wordEdge {asciiOnly : Bool} (hp : p ≤ W.part.size) :
    (Anchor.wordEdge asciiOnly).holds W.text (W.first + p) =
      (Anchor.wordEdge asciiOnly).holds W.part p := by
  simp only [Anchor.holds, wordBefore_lift hp, isWordAt_lift hp]
  by_cases hpart : W.part = #[]
  · have hzero : p = 0 := by
      rw [hpart] at hp
      exact Nat.le_zero.1 hp
    simp [hpart, hzero, Anchor.wordBefore, Anchor.isWordAt]
  · simp [hpart, not_isEmpty_text hpart]

/-- Away from a word is where the part is empty, too, but an empty text has no such place. -/
theorem holds_noWordEdge {asciiOnly : Bool} (hp : p ≤ W.part.size) (hpart : W.part ≠ #[]) :
    (Anchor.noWordEdge asciiOnly).holds W.text (W.first + p) =
      (Anchor.noWordEdge asciiOnly).holds W.part p := by
  simp [Anchor.holds, not_isEmpty_text hpart, wordBefore_lift hp, isWordAt_lift hp, hpart]

theorem follows_anchor {a : Anchor}
    (h : ∀ p ≤ W.part.size, a.holds W.text (W.first + p) = a.holds W.part p) :
    W.Follows W.inside ((Node.anchor a).ways W.text) ((Node.anchor a).ways W.part) := by
  intro u hu
  have hin : W.inside (W.lift u) = true := sieve_inside.within u hu.pos
  rw [Node.ways, Node.ways, pos_lift, h u.pos hu.pos]
  split
  · rw [List.filter_cons_of_pos hin, List.filter_nil, List.map_singleton]
  · rfl

/-- The ends of the part may be none of the text. -/
theorem holds_of_lift {a : Anchor} (ha : ∀ asciiOnly, a = .noWordEdge asciiOnly → W.part ≠ #[])
    (hp : p ≤ W.part.size) (h : a.holds W.text (W.first + p) = true) : a.holds W.part p = true := by
  have hsize := W.size_le
  cases a with
  | textStart =>
    simp only [Anchor.holds, beq_iff_eq] at h ⊢
    omega
  | lineStart =>
    simp only [Anchor.holds, Bool.or_eq_true, beq_iff_eq] at h ⊢
    cases p with
    | zero => exact .inl rfl
    | succ p =>
      refine .inr ?_
      rcases h with h | h
      · omega
      · rwa [← Nat.add_assoc, Nat.add_sub_cancel, getElem?_part hp] at h
  | lastLineEnd =>
    simp only [Anchor.holds, Bool.or_eq_true, Bool.and_eq_true, beq_iff_eq] at h ⊢
    rcases h with h | ⟨hlast, hnewline⟩
    · exact .inl (by omega)
    · rcases Nat.lt_or_eq_of_le hp with hlt | heq
      · rw [getElem?_part hlt] at hnewline
        exact .inr ⟨by omega, hnewline⟩
      · exact .inl heq
  | lineEnd =>
    simp only [Anchor.holds, Bool.or_eq_true, beq_iff_eq] at h ⊢
    rcases h with h | hnewline
    · exact .inl (by omega)
    · rcases Nat.lt_or_eq_of_le hp with hlt | heq
      · rw [getElem?_part hlt] at hnewline
        exact .inr hnewline
      · exact .inl heq
  | textEnd =>
    simp only [Anchor.holds, beq_iff_eq] at h ⊢
    omega
  | wordEdge asciiOnly => rwa [holds_wordEdge hp] at h
  | noWordEdge asciiOnly => rwa [holds_noWordEdge hp (ha asciiOnly rfl)] at h

/-! ### Texts of groups -/

theorem span?_le {text : Subject} {i a b : Nat} (hu : u.Within text) (h : u.span? i = some (a, b)) :
    a ≤ b ∧ b ≤ text.size := by
  unfold State.span? at h
  split at h
  · next hfirst hlast =>
    split at h
    · next hle =>
      cases h
      obtain ⟨xs, ys, hmarks, _⟩ := List.lookup_eq_some_iff.1 hlast
      exact ⟨hle, hu.marks (.closing i, _) (by simp [hmarks])⟩
    · cases h
  · cases h

theorem sameText_lift {folding : Folding} {count a : Nat} (ha : a + count ≤ W.part.size)
    (hp : p + count ≤ W.part.size) :
    sameText W.text folding count (W.first + a) (W.first + p) =
      sameText W.part folding count a p := by
  induction count generalizing a p with
  | zero => rfl
  | succ count ih =>
    rw [sameText, sameText, getElem?_part (by omega), getElem?_part (by omega), Nat.add_assoc,
      Nat.add_assoc, ih (by omega) (by omega)]

theorem follows_again {i : Nat} {folding : Folding} :
    W.Follows W.inside ((Node.again (renumber W.shift i) folding).ways W.text)
      ((Node.again i folding).ways W.part) := by
  intro u hu
  simp only [Node.ways, span?_lift]
  cases hspan : u.span? i with
  | none => rfl
  | some span =>
    obtain ⟨a, b⟩ := span
    obtain ⟨hab, hb⟩ := span?_le hu hspan
    simp only [Option.map_some, pos_lift, Nat.add_sub_add_left]
    by_cases hroom : u.pos + (b - a) ≤ W.part.size
    · rw [sameText_lift (by omega) hroom]
      split
      · have hin : W.inside (W.lift (u.move (b - a))) = true := sieve_inside.within _ hroom
        simpa using hin
      · rfl
    · have hpart : sameText W.part folding (b - a) a u.pos = false := by
        by_contra hsame
        exact hroom (sameText_le (by simpa using hsame) hu.pos)
      simp only [hpart, Bool.false_eq_true, if_false, List.map_nil, List.filter_eq_nil_iff]
      intro t ht
      split at ht
      · rw [List.mem_singleton.1 ht]
        have := hu.pos
        rw [inside_move this, decide_eq_true_eq]
        omega
      · cases ht

/-! ### Runs of characters -/

theorem runLength_lift {test : CharTest} {limit : Nat} (hlimit : p + limit ≤ W.part.size) :
    runLength W.text test limit (W.first + p) = runLength W.part test limit p := by
  induction limit generalizing p with
  | zero => rfl
  | succ limit ih =>
    rw [runLength, runLength, getElem?_part (by omega), Nat.add_assoc, ih (by omega)]

theorem runLength_min {text : Subject} {test : CharTest} {a b : Nat} :
    runLength text test (min a b) p = min (runLength text test a p) b := by
  induction a generalizing b p with
  | zero => simp [runLength]
  | succ a ih =>
    cases b with
    | zero => simp [runLength]
    | succ b =>
      rw [Nat.succ_min_succ, runLength, runLength]
      split
      · split
        · rw [ih, Nat.succ_min_succ]
        · simp
      · simp

section Many

variable {least : Nat} {most : Option Nat} {greed : Greed} {test : CharTest}

/-- How many characters a run may take. -/
def runOf (text : Subject) (most : Option Nat) (test : CharTest) (pos : Nat) : Nat :=
  runLength text test (min (text.size - pos) (most.getD (text.size - pos))) pos

theorem runOf_part (hp : p ≤ W.part.size) :
    runOf W.part most test p = min (runOf W.text most test (W.first + p)) (W.part.size - p) := by
  have hsize := W.size_le
  have hlimit : min (W.part.size - p) (most.getD (W.part.size - p)) =
      min (min (W.text.size - (W.first + p)) (most.getD (W.text.size - (W.first + p))))
        (W.part.size - p) := by
    cases most <;> simp only [Option.getD_none, Option.getD_some] <;> omega
  rw [runOf, runOf, ← runLength_min, ← hlimit, runLength_lift]
  omega

theorem manyWays_eq {text : Subject} {s : State} : manyWays text least most greed test s =
    if runOf text most test s.pos < least then []
    else (counts least (runOf text most test s.pos - least) greed).map s.move := rfl

/-- A run that does not go on after the part. -/
theorem manyWays_lift (hu : u.pos ≤ W.part.size)
    (h : runOf W.text most test (W.first + u.pos) ≤ W.part.size - u.pos) :
    manyWays W.text least most greed test (W.lift u) =
      (manyWays W.part least most greed test u).map W.lift := by
  have hpart : runOf W.part most test u.pos =
      min (runOf W.text most test (W.first + u.pos)) (W.part.size - u.pos) := runOf_part hu
  rw [Nat.min_eq_left h] at hpart
  rw [manyWays_eq, manyWays_eq, pos_lift, hpart]
  split
  · rfl
  · rw [List.map_map]
    exact List.map_congr_left fun k _ => lift_move.symm

theorem agrees_many (htest : test.accepts '/' = false) :
    W.Agrees ((Node.many least most greed test).ways W.text)
      ((Node.many least most greed test).ways W.part) := by
  intro u hu
  rw [List.filter_true]
  refine manyWays_lift hu.pos ?_
  by_contra hlong
  obtain ⟨c, hc, hac⟩ := runLength_accepts (Nat.lt_of_not_le hlong)
  rw [Nat.add_assoc, Nat.add_sub_cancel' hu.pos] at hc
  rcases getElem?_size (W := W) with h | h
  · rw [h] at hc
    cases hc
  · rw [h] at hc
    cases hc
    rw [htest] at hac
    cases hac

theorem filter_range' {room count : Nat} : (List.range' least count).filter (· ≤ room) =
    List.range' least (min count (room + 1 - least)) := by
  induction count generalizing least with
  | zero => simp
  | succ count ih =>
    rw [List.range'_succ, List.filter_cons, ih]
    split
    · next hle =>
      have hmin : min (count + 1) (room + 1 - least) = min count (room + 1 - (least + 1)) + 1 := by
        simp only [decide_eq_true_eq] at hle
        omega
      rw [hmin, List.range'_succ]
    · next hgt =>
      have hmin : min (count + 1) (room + 1 - least) = 0 := by
        simp only [decide_eq_true_eq] at hgt
        omega
      rw [hmin]
      have hmin' : min count (room + 1 - (least + 1)) = 0 := by omega
      rw [hmin']
      rfl

theorem filter_counts {extra room : Nat} (hgreed : greed ≠ .possessive) (hroom : least ≤ room) :
    (counts least extra greed).filter (· ≤ room) =
      counts least (min extra (room - least)) greed := by
  have hmin : min (extra + 1) (room + 1 - least) = min extra (room - least) + 1 := by omega
  cases greed with
  | greedy => simp only [counts, List.filter_reverse, filter_range', hmin]
  | lazy => simp only [counts, filter_range', hmin]
  | possessive => exact absurd rfl hgreed

theorem follows_many (hgreed : greed ≠ .possessive) :
    W.Follows W.inside ((Node.many least most greed test).ways W.text)
      ((Node.many least most greed test).ways W.part) := by
  intro u hu
  rw [Node.ways, Node.ways, manyWays_eq, manyWays_eq, pos_lift, runOf_part hu.pos]
  by_cases hfew : runOf W.text most test (W.first + u.pos) < least
  · rw [if_pos hfew, if_pos (Nat.lt_of_le_of_lt (Nat.min_le_left _ _) hfew)]
    rfl
  · have hfilter : W.inside ∘ (W.lift u).move = fun k => decide (k ≤ W.part.size - u.pos) :=
      funext fun _ => inside_move hu.pos
    rw [if_neg hfew, List.filter_map, hfilter]
    by_cases hroom : least ≤ W.part.size - u.pos
    · rw [if_neg (by omega), filter_counts hgreed hroom, List.map_map, Nat.sub_min_sub_right]
      exact List.map_congr_left fun k _ => lift_move.symm
    · rw [if_pos (by omega), List.map_nil, List.map_eq_nil_iff, List.filter_eq_nil_iff]
      intro k hk
      have := mem_counts hk
      simp only [decide_eq_true_eq]
      omega

theorem keeps_many : W.Keeps W.inside ((Node.many least most greed test).ways W.text)
    ((Node.many least most greed test).ways W.part) := by
  by_cases hgreed : greed = .possessive
  · intro u hu t ht hkeep
    have hshort : runOf W.text most test (W.first + u.pos) ≤ W.part.size - u.pos := by
      subst hgreed
      rw [Node.ways, manyWays_eq] at ht
      split at ht
      · cases ht
      · rw [counts, List.map_singleton, List.mem_singleton] at ht
        rw [ht, inside_move hu.pos, decide_eq_true_eq] at hkeep
        simp only [pos_lift] at hkeep ht
        omega
    rw [Node.ways, manyWays_lift hu.pos hshort] at ht
    obtain ⟨u', hu', rfl⟩ := List.mem_map.1 ht
    exact ⟨u', hu', rfl⟩
  · exact (follows_many hgreed).keeps

end Many

end Window

end UrlRouting.Expression
