import UrlRouting.Proofs.Expression.Source

/-! Escapes, classes, switches, bounds and comments are read alike within a longer text. -/
namespace UrlRouting.Expression

open Source

variable {α β : Type} {s t : Source} {k start start' : Nat} {after : List Token}

namespace Escape

variable {c : Char} {g g' : GroupTable}

theorem readHex_carries {width : Nat} (hs : s.Settled) (ha : Fenced after) :
    s.Carries k after (readHex c width start s)
      (readHex c width start' (s.within k after)) :=
  (takeWhile_carries ha (by decide) (.inl rfl) hs).then fun _ _ h =>
    .ite (fun _ => alike_refuse) fun _ => .ite (fun _ => alike_refuse) fun _ => carries_ok h

theorem readName_carries (hs : s.Settled) (ha : Fenced after) :
    s.Carries k after (readName start s) (readName start' (s.within k after)) := by
  refine (accept_carries hs ha (by decide)).then fun opened u hu => .guard fun _ => ?_
  refine (Carries.from hu (takeUntil_carries ha hu.settled)).then fun name v hv => ?_
  dsimp only
  split
  · exact carries_ok hv
  · exact alike_refuse

theorem readCode_carries (hs : s.Settled) (ha : Fenced after) :
    s.Carries k after (readCode c start s) (readCode c start' (s.within k after)) := by
  unfold readCode
  split
  · exact readHex_carries hs ha
  · exact readHex_carries hs ha
  · exact readHex_carries hs ha
  · exact readName_carries hs ha
  · exact .ite (fun _ => alike_refuse) fun _ => carries_ok (.refl hs)

theorem readGroup_eq_ok {digits : List Char} {y : Escape × Source}
    (h : readGroup g digits start s = .ok y) : y = (.group (numberIn 10 digits), s) := by
  unfold readGroup at h
  obtain ⟨_, h⟩ := guard_eq_ok.1 h
  obtain ⟨_, h⟩ := guard_eq_ok.1 h
  obtain ⟨_, _, h⟩ := bind_eq_ok.1 h
  cases h
  rfl

/-- Digits that name a code point, and no group. -/
theorem readDigits_carries (hs : s.Settled) (ha : Fenced after)
    (hg : ∀ index t, readDigits g c start s ≠ .ok (.group index, t)) :
    s.Carries k after (readDigits g c start s)
      (readDigits g' c start' (s.within k after)) := by
  rintro ⟨e, t⟩ h
  have he : ∀ digits u, readGroup g digits start u ≠ .ok (e, t) := by
    intro digits u hu
    obtain ⟨rfl, _⟩ := Prod.mk.inj (readGroup_eq_ok hu)
    exact hg _ t h
  unfold readDigits at h ⊢
  obtain ⟨⟨second, u⟩, hu, h⟩ := bind_eq_ok.1 h
  obtain ⟨_, hu', hr, rfl⟩ :=
    takeWhile_carries (k := k) ha (by decide) (.inl rfl) hs _ hu
  rw [hu', ok_bind]
  dsimp only at h ⊢
  split at h
  · rw [if_pos ‹_›]
    obtain ⟨⟨third, v⟩, hv, h⟩ := bind_eq_ok.1 h
    obtain ⟨_, hv', hr', rfl⟩ :=
      takeWhile_carries (k := k) ha (by decide) (.inl rfl) hr.settled _ hv
    rw [hv', ok_bind]
    dsimp only at h ⊢
    split at h
    · exact absurd h (he _ _)
    · rw [if_neg ‹_›]
      exact Alike.ite (fun _ => alike_refuse) (fun _ => carries_ok (hr.trans hr')) _ h
  · exact absurd h (he _ _)

/-- An escape that refers to no group does not depend on the groups before it. -/
theorem read_carries {asciiOnly : Bool} (hs : s.Settled) (ha : Fenced after)
    (hg : ∀ index t, read g asciiOnly c start s ≠ .ok (.group index, t)) :
    s.Carries k after (read g asciiOnly c start s)
      (read g' asciiOnly c start' (s.within k after)) := by
  unfold read at hg ⊢
  split
  · exact carries_ok (.refl hs)
  · exact carries_ok (.refl hs)
  · exact carries_ok (.refl hs)
  · next h1 h2 h3 =>
    simp only [h1, h2, h3] at hg
    refine .ite (fun _ => ?_) fun h0 => .ite (fun hd => ?_) fun _ => readCode_carries hs ha
    · exact (takeWhile_carries ha (by decide) (.inl rfl) hs).then fun _ _ hr => carries_ok hr
    · rw [if_neg h0, if_pos hd] at hg
      exact readDigits_carries hs ha hg

theorem readInClass_carries (hs : s.Settled) (ha : Fenced after) :
    s.Carries k after (readInClass c start s)
      (readInClass c start' (s.within k after)) := by
  unfold readInClass
  split
  · exact carries_ok (.refl hs)
  · exact carries_ok (.refl hs)
  · refine .ite (fun _ => carries_ok (.refl hs)) fun _ => .ite (fun _ => ?_) fun _ => ?_
    · refine (takeWhile_carries ha (by decide) (.inl rfl) hs).then fun digits u hu => ?_
      exact .ite (fun _ => alike_refuse) fun _ => carries_ok hu
    · exact .ite (fun _ => alike_refuse) fun _ => readCode_carries hs ha

end Escape

namespace CharClass

variable {asciiOnly : Bool}

theorem readMember_carries {x : Token} (hs : s.Settled) (ha : Fenced after) :
    s.Carries k after (readMember asciiOnly x start s)
      (readMember asciiOnly x start' (s.within k after)) := by
  unfold readMember
  split
  · exact carries_ok (.refl hs)
  · exact alike_refuse
  · refine (Escape.readInClass_carries hs ha).then fun e u hu => ?_
    dsimp only
    split
    · exact carries_ok hu
    · exact carries_ok hu
    · exact alike_refuse
    · exact alike_refuse

/-- The steps that are left bound the members still to be read, and more of them do no harm. -/
theorem readItems_carries {n m : Nat} (hnm : n ≤ m) {items : List ClassItem} (hs : s.Settled)
    (ha : Fenced after) :
    s.Carries k after (readItems asciiOnly start n s items)
      (readItems asciiOnly start' m (s.within k after) items) := by
  induction n generalizing s m items with
  | zero => exact alike_refuse
  | succ n ih =>
    obtain ⟨m, rfl⟩ : ∃ m', m = m' + 1 := ⟨m - 1, by omega⟩
    refine take_then hs ha (by simp [refuse]) fun this u hu => ?_
    refine .ite (fun _ => carries_ok hu) fun _ => ?_
    refine (Carries.from hu (readMember_carries hu.settled ha)).then fun item v hv => ?_
    refine (Carries.from hv (accept_carries hv.settled ha (by decide))).then fun dashed w hw => ?_
    refine .ite (fun _ => Carries.from hw (ih (by omega) hw.settled)) fun _ => ?_
    refine Carries.from hw (take_then hw.settled ha (by simp [refuse]) fun that x hx => ?_)
    refine .ite (fun _ => carries_ok hx) fun _ => ?_
    refine (Carries.from hx (readMember_carries hx.settled ha)).then fun other y hy => ?_
    dsimp only
    split
    · exact Carries.from hy (ih (by omega) hy.settled)
    · exact alike_refuse

theorem read_carries {mode : Mode} (hs : s.Settled) (ha : Fenced after) :
    s.Carries k after (read mode start s) (read mode start' (s.within k after)) := by
  refine (accept_carries hs ha (by decide)).then fun negated u hu => ?_
  refine (Carries.from hu (readItems_carries ?_ hu.settled ha)).then fun items v hv => carries_ok hv
  simp [within]

end CharClass

namespace SwitchGroup

theorem readOn_alike {n m : Nat} (hnm : n ≤ m) {last : Switch} {switches : List Switch}
    (hs : s.Settled) (ha : Fenced after) :
    Alike (fun x y => s.Reaches x.2.2 ∧ y = (x.1, x.2.1, x.2.2.within k after))
      (readOn n s last switches) (readOn m (s.within k after) last switches) := by
  induction n generalizing s m last switches with
  | zero => exact alike_refuse
  | succ n ih =>
    obtain ⟨m, rfl⟩ : ∃ m', m = m' + 1 := ⟨m - 1, by omega⟩
    rw [readOn, readOn]
    refine .guard fun _ => .guard fun _ => take_then hs ha (by simp [refuse]) fun x u hu => ?_
    dsimp only
    split
    · exact alike_refuse
    · exact alike_ok ⟨hu, rfl⟩
    · exact alike_ok ⟨hu, rfl⟩
    · exact alike_ok ⟨hu, rfl⟩
    · split
      · intro y hy
        obtain ⟨z, hz, hr, hzy⟩ := ih (m := m) (by omega) hu.settled y hy
        exact ⟨z, hz, hu.trans hr, hzy⟩
      · exact alike_refuse

theorem readOff_carries {n m : Nat} (hnm : n ≤ m) {last : Switch} {switches : List Switch}
    (hs : s.Settled) (ha : Fenced after) :
    s.Carries k after (readOff n s last switches)
      (readOff m (s.within k after) last switches) := by
  induction n generalizing s m last switches with
  | zero => exact alike_refuse
  | succ n ih =>
    obtain ⟨m, rfl⟩ : ∃ m', m = m' + 1 := ⟨m - 1, by omega⟩
    rw [readOff, readOff]
    refine .guard fun _ => take_then hs ha (by simp [refuse]) fun x u hu => ?_
    dsimp only
    split
    · exact alike_refuse
    · exact carries_ok hu
    · split
      · exact Carries.from hu (ih (by omega) hu.settled)
      · exact alike_refuse

theorem readAfterDash_carries {on : List Switch} (hs : s.Settled)
    (ha : Fenced after) :
    s.Carries k after (readAfterDash s on) (readAfterDash (s.within k after) on) := by
  refine take_then hs ha (by simp [refuse]) fun x u hu => ?_
  dsimp only
  split
  · exact alike_refuse
  · refine (Carries.from hu (readOff_carries ?_ hu.settled ha)).then fun off v hv => ?_
    · simp [within]
    · exact .guard fun _ => .guard fun _ => carries_ok hv

theorem read_carries {first : Switch} (hs : s.Settled) (ha : Fenced after) :
    s.Carries k after (read first s) (read first (s.within k after)) := by
  refine .bind (readOn_alike ?_ hs ha) fun x y hxy => ?_
  · simp [within]
  obtain ⟨hr, rfl⟩ := hxy
  refine .ite (fun _ => carries_ok hr) fun _ => .guard fun _ => ?_
  exact .ite (fun _ => Carries.from hr (readAfterDash_carries hr.settled ha)) fun _ => carries_ok hr

end SwitchGroup

namespace Reading

/-- The bounds of a repetition, once their digits and the closing brace have been read. -/
theorem numbers_alike {closed : Bool} {least most : List Char} {pos pos' : Nat}
    (ht : s.Reaches t) :
    Alike (fun x y => (∀ b t, x = some (b, t) → s.Reaches t) ∧
        y = x.map fun p => (p.1, p.2.within k after))
      (if !closed then pure none else do
        let low ← if least.isEmpty then .ok 0 else readBound least
        if most.isEmpty then return some ((low, none), t)
        let high ← readBound most
        if high < low then refuse .reversedBounds pos
        return some ((low, some high), t))
      (if !closed then pure none else do
        let low ← if least.isEmpty then .ok 0 else readBound least
        if most.isEmpty then return some ((low, none), t.within k after)
        let high ← readBound most
        if high < low then refuse .reversedBounds pos'
        return some ((low, some high), t.within k after)) := by
  refine .ite (fun _ => alike_ok (by simp)) fun _ => ?_
  refine .ite (fun _ => .bind alike_same ?_) fun _ => .bind alike_same ?_
  all_goals
    rintro low _ rfl
    refine .ite (fun _ => alike_ok (by simpa using ht)) fun _ => .bind alike_same ?_
    rintro high _ rfl
    exact .guard fun _ => alike_ok (by simpa using ht)

/-- Bounds are read alike, and where there are none the brace is a character on both sides. -/
theorem readBounds_alike (hs : s.Settled) (ha : Fenced after) :
    Alike (fun x y => (∀ b t, x = some (b, t) → s.Reaches t) ∧
        y = x.map fun p => (p.1, p.2.within k after))
      (readBounds s) (readBounds (s.within k after)) := by
  have hnext : s.next? = some (.plain '\x7d') ↔
      (s.within k after).next? = some (.plain '\x7d') := by
    by_cases hne : s.rest = []
    · obtain ⟨c, hc, hnext⟩ := next?_within_nil (k := k) ha hne
      have hother : c ≠ '\x7d' := ne_of_mem_of_not_mem hc (by decide)
      rw [hnext]
      simp [next?, hne, hother]
    · rw [next?_within hne]
  unfold readBounds
  simp only [← hnext]
  refine .ite (fun _ => alike_ok (by simp)) fun _ => ?_
  refine (takeWhile_carries ha (by decide) (.inr ?_) hs).then fun least u hu => ?_
  · simp [within]
  refine (Carries.from hu (accept_carries hu.settled ha (by decide))).then fun comma v hv => ?_
  dsimp only
  have hclose : ∀ w, s.Reaches w →
      s.Carries k after (w.accept '\x7d') ((w.within k after).accept '\x7d') :=
    fun w hw => .from hw (accept_carries hw.settled ha (by decide))
  refine .ite (fun _ => ?_) fun _ => (hclose v hv).then fun closed x hx => ?_
  · refine (Carries.from hv (takeWhile_carries ha (by decide) (.inr ?_) hv.settled)).then
      fun most w hw => (hclose w hw).then fun closed x hx => ?_
    · simp [within]
    · exact numbers_alike hx
  · exact numbers_alike hx

theorem skipComment_alike {n m : Nat} (hnm : n ≤ m) (hs : s.Settled)
    (ha : Fenced after) :
    Alike (fun t u => s.Reaches t ∧ u = t.within k after) (skipComment start n s)
      (skipComment start' m (s.within k after)) := by
  induction n generalizing s m with
  | zero => exact alike_refuse
  | succ n ih =>
    obtain ⟨m, rfl⟩ : ∃ m', m = m' + 1 := ⟨m - 1, by omega⟩
    refine take_then hs ha (by simp [refuse]) fun x u hu => ?_
    refine .ite (fun _ => alike_ok ⟨hu, rfl⟩) fun _ => ?_
    intro t ht
    obtain ⟨v, hv, hr, hvt⟩ := ih (m := m) (by omega) hu.settled t ht
    exact ⟨v, hv, hu.trans hr, hvt⟩

/-- A comment that its line ends is skipped alike. -/
theorem skipLine_within {n m : Nat} (hnm : n ≤ m) (hn : s.rest.length < n) (hs : s.Settled)
    (ha : Fenced after) (h : skipLine n s = .ok t) (hne : t.rest ≠ []) :
    s.Reaches t ∧ skipLine m (s.within k after) = .ok (t.within k after) := by
  induction n generalizing s m with
  | zero => omega
  | succ n ih =>
    obtain ⟨m, rfl⟩ : ∃ m', m = m' + 1 := ⟨m - 1, by omega⟩
    rw [skipLine] at h ⊢
    obtain ⟨pos, _ | ⟨x, rest⟩⟩ := s
    · cases h
      exact absurd rfl hne
    · obtain ⟨⟨y, u⟩, hu, h⟩ := bind_eq_ok.1 h
      obtain ⟨v, hv, he⟩ := bind_eq_ok.1 hu
      obtain ⟨rfl, rfl⟩ : some x = y ∧ v = u := Prod.mk.inj (Except.ok.inj he)
      obtain ⟨_, hu', hr, rfl⟩ := take_carries (k := k) hs ha (by simp) _ hu
      have hlt := (skip_eq_ok hs hv (by simp)).2
      rw [hu', ok_bind]
      dsimp only at h hr hlt hn ⊢
      split at h
      · cases h
        exact ⟨hr, if_pos ‹_›⟩
      · obtain ⟨hr', h'⟩ := ih (m := m) (by omega) (by omega) hr.settled h
        exact ⟨hr.trans hr', by rw [if_neg ‹_›, h']⟩

end Reading

end UrlRouting.Expression
