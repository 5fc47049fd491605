import UrlRouting.Expression.Reading

/-! A text within a longer one. What is read from a text by itself is read in the same way when
characters stand before it and a parenthesis or a slash follows it. -/
namespace UrlRouting.Expression

theorem bind_eq_ok {ε α β : Type} {x : Except ε α} {f : α → Except ε β} {b : β} :
    x >>= f = .ok b ↔ ∃ a, x = .ok a ∧ f a = .ok b := by
  cases x with
  | error e => simp [bind, Except.bind]
  | ok a => simp [bind, Except.bind]

theorem ok_bind {ε α β : Type} {a : α} {f : α → Except ε β} :
    ((.ok a : Except ε α) >>= f) = f a := rfl

theorem map_eq_ok {ε α β : Type} {x : Except ε α} {f : α → β} {b : β} :
    x.map f = .ok b ↔ ∃ a, x = .ok a ∧ f a = b := by
  cases x <;> simp [Except.map]

theorem toOption_eq_some {ε α : Type} {x : Except ε α} {a : α} :
    x.toOption = some a ↔ x = .ok a := by
  cases x <;> simp [Except.toOption]

theorem exists_ok_of_any {ε α : Type} {x : Except ε α} {f : α → Bool}
    (h : x.toOption.any f = true) :
    ∃ a, x = .ok a ∧ f a = true := by
  obtain ⟨a, ha, hf⟩ := (Option.any_eq_true _ _).1 h
  exact ⟨a, toOption_eq_some.1 ha, hf⟩

theorem exists_some_of_any {ε α : Type} {x : Except ε (Option α)} {f : α → Bool}
    (h : x.toOption.any (fun found => found.any f) = true) :
    ∃ a, x = .ok (some a) ∧ f a = true := by
  obtain ⟨found, hx, hfound⟩ := exists_ok_of_any h
  obtain ⟨a, rfl, hf⟩ := (Option.any_eq_true _ _).1 hfound
  exact ⟨a, hx, hf⟩

theorem guard_eq_ok {β : Type} {c : Prop} [Decidable c] {fault : Fault} {pos : Nat}
    {f : Unit → Parse β} {b : β} :
    (if c then refuse fault pos >>= f else f ()) = .ok b ↔ ¬c ∧ f () = .ok b := by
  split
  · simp_all [refuse, bind, Except.bind]
  · simp_all

section Alike

variable {α β α' β' : Type} {rel : α → β → Prop} {rel' : α' → β' → Prop}

/-- Two readings that agree, in the sense of a relation, on what they read if the first succeeds. -/
def Alike (rel : α → β → Prop) (here : Parse α) (there : Parse β) : Prop :=
  ∀ a, here = .ok a → ∃ b, there = .ok b ∧ rel a b

theorem alike_ok {a : α} {b : β} (h : rel a b) : Alike rel (.ok a) (.ok b) := by
  intro a' ha
  cases ha
  exact ⟨b, rfl, h⟩

theorem alike_same {x : Parse α} : Alike Eq x x :=
  fun a h => ⟨a, h, rfl⟩

theorem Alike.and_eq {here : Parse α} {there : Parse β} (h : Alike rel here there) :
    Alike (fun a b => here = .ok a ∧ rel a b) here there := by
  intro a ha
  obtain ⟨b, hb, hab⟩ := h a ha
  exact ⟨b, hb, ha, hab⟩

theorem alike_refuse {fault : Fault} {pos : Nat} {there : Parse β} :
    Alike rel (refuse fault pos) there := by
  intro a h
  cases h

theorem Alike.bind {here : Parse α} {there : Parse β} {f : α → Parse α'} {g : β → Parse β'}
    (h : Alike rel here there) (hf : ∀ a b, rel a b → Alike rel' (f a) (g b)) :
    Alike rel' (here >>= f) (there >>= g) := by
  intro a' ha'
  obtain ⟨a, ha, hfa⟩ := bind_eq_ok.1 ha'
  obtain ⟨b, hb, hab⟩ := h a ha
  rw [hb]
  exact hf a b hab a' hfa

theorem Alike.ite {c : Prop} [Decidable c] {here here' : Parse α} {there there' : Parse β}
    (h : c → Alike rel here there) (h' : ¬c → Alike rel here' there') :
    Alike rel (if c then here else here') (if c then there else there') := by
  split
  · next hc => exact h hc
  · next hc => exact h' hc

/-- A guard refuses on both sides, or lets pass on both. -/
theorem Alike.guard {c : Prop} [Decidable c] {fault : Fault} {pos pos' : Nat}
    {here : Unit → Parse α} {there : Unit → Parse β} (h : ¬c → Alike rel (here ()) (there ())) :
    Alike rel (if c then refuse fault pos >>= here else here ())
      (if c then refuse fault pos' >>= there else there ()) :=
  .ite (fun _ => alike_refuse) h

end Alike

namespace Source

variable {α β α' β' : Type} {s t u : Source} {k : Nat} {after : List Token}

/-- No backslash without a character after it comes next. -/
def Settled (s : Source) : Prop :=
  s.rest.head? ≠ some .dangling

/-- The same place, with text before and after the present one. -/
def within (k : Nat) (after : List Token) (s : Source) : Source :=
  ⟨s.pos + k, s.rest ++ after⟩

/-- Characters at which every run of characters ends. -/
def fences : List Char := [')', '(', '/']

/-- What comes after a text begins with one of these characters. -/
def Fenced (after : List Token) : Prop :=
  ∃ c ∈ fences, after.head? = some (.plain c)

/-- Reading has come from one place to another, and not past a lone backslash. -/
structure Reaches (s t : Source) : Prop where
  settled : t.Settled
  used : ∃ used, s.rest = used ++ t.rest ∧ .dangling ∉ used

theorem Reaches.refl (h : s.Settled) : s.Reaches s :=
  ⟨h, [], rfl, by simp⟩

theorem Reaches.trans (h : s.Reaches t) (h' : t.Reaches u) : s.Reaches u := by
  obtain ⟨_, xs, hxs, hx⟩ := h
  obtain ⟨hu, ys, hys, hy⟩ := h'
  refine ⟨hu, xs ++ ys, by rw [hxs, hys, List.append_assoc], ?_⟩
  simp [hx, hy]

theorem Reaches.length_le (h : s.Reaches t) : t.rest.length ≤ s.rest.length := by
  obtain ⟨_, used, hu, _⟩ := h
  simp [hu]

theorem settle_eq_ok {s t : Source} : s.settle = .ok t ↔ s.Settled ∧ t = s := by
  obtain ⟨pos, rest⟩ := s
  unfold settle Settled
  constructor
  · intro h
    split at h
    · cases h
    · next hne =>
      cases h
      refine ⟨?_, rfl⟩
      intro hd
      obtain ⟨ts, rfl⟩ := List.head?_eq_some_iff.1 hd
      exact hne _ rfl
  · rintro ⟨h, rfl⟩
    split
    · simp_all
    · rfl

theorem settled_within (h : s.Settled) (ha : Fenced after) :
    (s.within k after).Settled := by
  obtain ⟨pos, _ | ⟨t, rest⟩⟩ := s
  · obtain ⟨c, _, ha⟩ := ha
    simp [Settled, within, ha]
  · simpa [Settled, within] using h

theorem skip_eq_ok (hs : s.Settled) (h : s.skip = .ok t) (hne : s.rest ≠ []) :
    s.Reaches t ∧ t.rest.length < s.rest.length := by
  obtain ⟨pos, _ | ⟨x, rest⟩⟩ := s
  · exact absurd rfl hne
  · obtain ⟨hset, rfl⟩ := settle_eq_ok.1 h
    refine ⟨⟨hset, [x], rfl, ?_⟩, by simp⟩
    simpa [Settled, eq_comm] using hs

theorem skip_within (ha : Fenced after) (h : s.skip = .ok t)
    (hne : s.rest ≠ []) : (s.within k after).skip = .ok (t.within k after) := by
  obtain ⟨pos, _ | ⟨x, rest⟩⟩ := s
  · exact absurd rfl hne
  · obtain ⟨hset, rfl⟩ := settle_eq_ok.1 h
    refine settle_eq_ok.2 ⟨?_, ?_⟩
    · have := settled_within (k := k) hset ha
      simpa [Settled, within] using this
    · simp [within]
      omega

theorem next?_within (hne : s.rest ≠ []) : (s.within k after).next? = s.next? := by
  obtain ⟨pos, _ | ⟨x, rest⟩⟩ := s
  · exact absurd rfl hne
  · rfl

theorem next?_within_nil (ha : Fenced after) (h : s.rest = []) :
    ∃ c ∈ fences, (s.within k after).next? = some (.plain c) := by
  simpa [within, next?, h, Fenced] using ha

/-- What is read from a place on by itself is read alike within the longer text. -/
abbrev Carries (k : Nat) (after : List Token) (s : Source) (here there : Parse (α × Source)) :
    Prop :=
  Alike (fun x y => s.Reaches x.2 ∧ y = (x.1, x.2.within k after)) here there

theorem carries_ok {a : α} (h : s.Reaches t) :
    s.Carries k after (.ok (a, t)) (.ok (a, t.within k after)) :=
  alike_ok ⟨h, rfl⟩

/-- The rest of a reading that begins with one that is carried over. -/
theorem Carries.then {rel : α' → β' → Prop} {here there : Parse (α × Source)}
    {f : α × Source → Parse α'} {g : α × Source → Parse β'} (h : s.Carries k after here there)
    (hf : ∀ a t, s.Reaches t → Alike rel (f (a, t)) (g (a, t.within k after))) :
    Alike rel (here >>= f) (there >>= g) := by
  refine Alike.bind h fun x y hxy => ?_
  obtain ⟨hr, rfl⟩ := hxy
  exact hf x.1 x.2 hr

theorem Carries.from {here there : Parse (α × Source)} (hr : s.Reaches t)
    (h : t.Carries k after here there) : s.Carries k after here there := by
  intro x hx
  obtain ⟨y, hy, hxr, hxy⟩ := h x hx
  exact ⟨y, hy, hr.trans hxr, hxy⟩

/-! ### Single characters -/

/-- A reading that goes on after the next token. -/
theorem skip_then {rel : α → β → Prop} {f : Source → Parse α} {g : Source → Parse β}
    (hs : s.Settled) (ha : Fenced after) (hne : s.rest ≠ [])
    (h : ∀ t, s.Reaches t → t.rest.length < s.rest.length →
      Alike rel (f t) (g (t.within k after))) :
    Alike rel (s.skip >>= f) ((s.within k after).skip >>= g) := by
  intro x hx
  obtain ⟨t, ht, hft⟩ := bind_eq_ok.1 hx
  obtain ⟨hr, hlt⟩ := skip_eq_ok hs ht hne
  rw [skip_within ha ht hne, ok_bind]
  exact h t hr hlt x hft

/-- With a token next, it is taken on both sides. -/
theorem take_carries (hs : s.Settled) (ha : Fenced after) (hne : s.rest ≠ []) :
    s.Carries k after s.take (s.within k after).take := by
  intro x h
  obtain ⟨u, hu, he⟩ := bind_eq_ok.1 h
  cases he
  refine ⟨_, ?_, (skip_eq_ok hs hu hne).1, rfl⟩
  simp only [take, next?_within hne, skip_within ha hu hne]
  rfl

theorem take_eq_none {a : Option Token} (h : s.take = .ok (a, t)) : a = none ↔ s.rest = [] := by
  obtain ⟨u, _, he⟩ := bind_eq_ok.1 h
  cases he
  simp [next?]

/-- A reading that goes on with the next token and needs one. -/
theorem take_then {rel : α → β → Prop} {f : Option Token × Source → Parse α}
    {g : Option Token × Source → Parse β} (hs : s.Settled)
    (ha : Fenced after) (hnone : ∀ t b, f (none, t) ≠ .ok b)
    (h : ∀ x t, s.Reaches t → Alike rel (f (some x, t)) (g (some x, t.within k after))) :
    Alike rel (s.take >>= f) ((s.within k after).take >>= g) := by
  by_cases hne : s.rest = []
  · intro b hb
    obtain ⟨⟨x, v⟩, hx, hfb⟩ := bind_eq_ok.1 hb
    obtain rfl := (take_eq_none hx).2 hne
    exact absurd hfb (hnone v b)
  · refine (take_carries hs ha hne).then fun x v hv => ?_
    cases x with
    | none => intro c hc; exact absurd hc (hnone v c)
    | some x => exact h x v hv

theorem accept_carries {c : Char} (hs : s.Settled) (ha : Fenced after)
    (hc : c ∉ fences) : s.Carries k after (s.accept c) ((s.within k after).accept c) := by
  intro x h
  unfold accept at h ⊢
  by_cases hne : s.rest = []
  · have hno : s.next? = none := by simp [next?, hne]
    rw [if_neg (by simp [hno])] at h
    obtain ⟨d, hd, hnext⟩ := next?_within_nil (k := k) ha hne
    have hother : d ≠ c := ne_of_mem_of_not_mem hd hc
    rw [if_neg (by simp [hnext, hother])]
    cases h
    exact ⟨_, rfl, .refl hs, rfl⟩
  · rw [next?_within hne]
    split at h
    · obtain ⟨u, hu, he⟩ := bind_eq_ok.1 h
      cases he
      rw [if_pos ‹_›, skip_within ha hu hne]
      exact ⟨_, rfl, (skip_eq_ok hs hu hne).1, rfl⟩
    · cases h
      rw [if_neg ‹_›]
      exact ⟨_, rfl, .refl hs, rfl⟩

/-- A run of characters ends where the text ends, if not before. -/
theorem takeWhile_carries {test : Char → Bool} (ha : Fenced after)
    (htest : fences.any test = false) {n m : Nat} (hnm : n = m ∨ n ≤ m ∧ s.rest.length ≤ n)
    (hs : s.Settled) : s.Carries k after (takeWhile test n s)
      (takeWhile test m (s.within k after)) := by
  have hfence : ∀ c ∈ fences, test c = false := by simpa using htest
  induction n generalizing s m with
  | zero =>
    have hr : takeWhile test m (s.within k after) = .ok ([], s.within k after) := by
      cases m with
      | zero => rfl
      | succ m =>
        have hnil : s.rest = [] := by
          rcases hnm with h | h
          · omega
          · exact List.length_eq_zero_iff.1 (by omega)
        obtain ⟨c, hc, hnext⟩ := next?_within_nil (k := k) ha hnil
        simp [takeWhile, hnext, hfence c hc]
    rw [hr]
    exact carries_ok (.refl hs)
  | succ n ih =>
    obtain ⟨m, rfl⟩ : ∃ m', m = m' + 1 := ⟨m - 1, by omega⟩
    by_cases hne : s.rest = []
    · have hno : s.next? = none := by simp [next?, hne]
      obtain ⟨c, hc, hnext⟩ := next?_within_nil (k := k) ha hne
      simp only [takeWhile, hno, hnext, hfence c hc]
      exact carries_ok (.refl hs)
    · simp only [takeWhile, next?_within hne]
      split
      · refine .ite (fun _ => ?_) (fun _ => carries_ok (.refl hs))
        refine skip_then hs ha hne fun u hr hlt => ?_
        refine (Carries.from hr (ih ?_ hr.settled)).then fun b v hv => carries_ok hv
        omega
      · exact carries_ok (.refl hs)

theorem takeUntil_go_carries {terminator : Char} {what : String}
    (ha : Fenced after) {rest : List Token} {pos : Nat} {read : List Char}
    (hs : Settled ⟨pos, rest⟩) :
    Carries k after ⟨pos, rest⟩ (takeUntil.go terminator what rest pos read)
      (takeUntil.go terminator what (rest ++ after) (pos + k) read) := by
  induction rest generalizing pos read with
  | nil =>
    intro x h
    simp only [takeUntil.go] at h
    split at h <;> cases h
  | cons y rest ih =>
    intro x h
    simp only [takeUntil.go, List.cons_append] at h ⊢
    obtain ⟨u, hu, h⟩ := bind_eq_ok.1 h
    have hskip : skip ⟨pos, y :: rest⟩ = .ok u := hu
    obtain ⟨hr, _⟩ := skip_eq_ok hs hskip (by simp)
    have hw := skip_within (k := k) ha hskip (by simp)
    obtain ⟨_, rfl⟩ := settle_eq_ok.1 hu
    have hw' : settle ⟨pos + k + y.width, rest ++ after⟩ =
      .ok (within k after ⟨pos + y.width, rest⟩) := hw
    rw [hw', ok_bind]
    exact Alike.ite (fun _ => .ite (fun _ => alike_refuse) fun _ => carries_ok hr)
      (fun _ => Carries.from hr (ih hr.settled)) x h

theorem takeUntil_carries {terminator : Char} {what : String}
    (ha : Fenced after) (hs : s.Settled) :
    s.Carries k after (s.takeUntil terminator what)
      ((s.within k after).takeUntil terminator what) :=
  takeUntil_go_carries ha hs

end Source

end UrlRouting.Expression
