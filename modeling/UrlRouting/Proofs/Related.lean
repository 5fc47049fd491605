import Mathlib.Data.List.Forall2
import UrlRouting.Proofs.Expression.Source

/-! Lists of which the members are related one by one, and what runs that may fail do to them. -/
namespace UrlRouting

variable {α β ε : Type} {R : α → β → Prop} {f : α → Except ε β} {as : List α} {bs : List β} {a : α}
  {b : β}

theorem exists_forall₂ (h : ∀ a ∈ as, ∃ b, R a b) : ∃ bs, List.Forall₂ R as bs := by
  induction as with
  | nil => exact ⟨[], .nil⟩
  | cons a as ih =>
    obtain ⟨⟨b, hb⟩, has⟩ := List.forall_mem_cons.1 h
    obtain ⟨bs, hbs⟩ := ih has
    exact ⟨b :: bs, .cons hb hbs⟩

theorem exists_of_forall₂ (h : List.Forall₂ R as bs) (ha : a ∈ as) :
    ∃ b, (a, b) ∈ as.zip bs ∧ R a b := by
  induction h with
  | nil => cases ha
  | @cons x b _ bs hxb _ ih =>
    rcases List.mem_cons.1 ha with rfl | ha
    · exact ⟨b, List.mem_cons_self, hxb⟩
    · obtain ⟨b', hb', hab⟩ := ih ha
      exact ⟨b', List.mem_cons_of_mem _ hb', hab⟩

theorem getLast?_forall₂ (h : List.Forall₂ R as bs) (hb : bs.getLast? = some b) :
    ∃ a, as.getLast? = some a ∧ R a b := by
  rw [← List.head?_reverse] at hb ⊢
  obtain ⟨bs', hbs⟩ := List.head?_eq_some_iff.1 hb
  have hrev := List.forall₂_reverse_iff.2 h
  rw [hbs] at hrev
  obtain ⟨a, as', hab, _, has⟩ := List.forall₂_cons_right_iff.1 hrev
  exact ⟨a, by rw [has, List.head?_cons], hab⟩

/-- The members may be numbered. -/
theorem forall₂_zipIdx_iff {n : Nat} :
    List.Forall₂ (fun x b => R x.1 b) (as.zipIdx n) bs ↔ List.Forall₂ R as bs := by
  rw [← List.forall₂_map_left_iff, List.zipIdx_map_fst]

theorem bind_eq_error {x : Except ε α} {err : ε} :
    x >>= f = .error err ↔ x = .error err ∨ ∃ a, x = .ok a ∧ f a = .error err := by
  cases x <;> simp [bind, Except.bind]

theorem map_eq_error {x : Except ε α} {f : α → β} {err : ε} :
    x.map f = .error err ↔ x = .error err := by
  cases x <;> simp [Except.map]

theorem mapM_eq_ok : as.mapM f = .ok bs ↔ List.Forall₂ (fun a b => f a = .ok b) as bs := by
  constructor
  · intro h
    induction as generalizing bs with
    | nil =>
      cases h
      exact .nil
    | cons a as ih =>
      rw [List.mapM_cons] at h
      obtain ⟨b, hb, h⟩ := Expression.bind_eq_ok.1 h
      obtain ⟨bs, hbs, h⟩ := Expression.bind_eq_ok.1 h
      cases h
      exact .cons hb (ih hbs)
  · intro h
    induction h with
    | nil => rfl
    | cons hab _ ih =>
      rw [List.mapM_cons, hab, Expression.ok_bind, ih]
      rfl

theorem exists_of_mapM_eq_error {err : ε} (h : as.mapM f = .error err) :
    ∃ a ∈ as, f a = .error err := by
  induction as with
  | nil => cases h
  | cons a as ih =>
    rw [List.mapM_cons] at h
    cases ha : f a with
    | error err' =>
      rw [ha] at h
      cases h
      exact ⟨a, List.mem_cons_self, ha⟩
    | ok b =>
      rw [ha, Expression.ok_bind] at h
      cases has : as.mapM f with
      | error err' =>
        rw [has] at h
        cases h
        obtain ⟨a', ha', herr⟩ := ih has
        exact ⟨a', List.mem_cons_of_mem _ ha', herr⟩
      | ok bs =>
        rw [has] at h
        cases h

theorem exists_some_of_join {x : Except ε (Option α)} (h : x.toOption.join.isSome = true) :
    ∃ a, x = .ok (some a) := by
  obtain ⟨a, ha⟩ := Option.isSome_iff_exists.1 h
  exact ⟨a, Expression.toOption_eq_some.1 (Option.join_eq_some_iff.1 ha)⟩

/-- Two runs that come to the same, as far as success goes. -/
theorem outcomes_of_isSome {x : Except ε (Option α)} {y : Except ε (Option β)}
    (h : x.map Option.isSome = y.map Option.isSome) :
    (∃ err, x = .error err ∧ y = .error err) ∨ (x = .ok none ∧ y = .ok none) ∨
      ∃ a b, x = .ok (some a) ∧ y = .ok (some b) := by
  cases x with
  | error err => cases y with
    | error err' =>
      cases h
      exact .inl ⟨err, rfl, rfl⟩
    | ok b => cases h
  | ok a => cases y with
    | error err => cases h
    | ok b => cases a <;> cases b <;> simp_all [Except.map]

end UrlRouting
