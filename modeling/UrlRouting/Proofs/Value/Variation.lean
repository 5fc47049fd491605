import Mathlib.Data.List.Forall2
import UrlRouting.Proofs.Value.Mapping

/-! Mappings that have the same keys in one order and differ in some of their values only. -/
namespace UrlRouting.Mapping

variable {m n l : Mapping} {k v : Value} {name : String} {entries : List (Value × Value)}
  {free free' : Value → Prop}

/-! ### Keys -/

/-- No key is there twice. -/
def Distinct (m : Mapping) : Prop :=
  m.Pairwise fun e f => e.1.agrees f.1 = false

instance (m : Mapping) : Decidable m.Distinct :=
  inferInstanceAs (Decidable (List.Pairwise _ m))

theorem distinct_iff_keys : m.Distinct ↔ m.keys.Pairwise fun k l => k.agrees l = false := by
  rw [keys, List.pairwise_map]
  rfl

theorem distinct_of_keys_eq {names : List String} (hkeys : m.keys = names.map Value.str)
    (hnodup : names.Nodup) : m.Distinct := by
  rw [distinct_iff_keys, hkeys, List.pairwise_map]
  exact hnodup.imp fun hne => Value.agrees_str_of_ne (by simpa using hne)

theorem key_of_mem_insert {x : Value × Value} (h : x ∈ m.insert k v) :
    x.1 = k ∨ ∃ e ∈ m, x.1 = e.1 := by
  induction m with
  | nil => exact .inl (congrArg Prod.fst (List.mem_singleton.1 h))
  | cons e m ih =>
    rw [insert] at h
    split at h
    · rcases List.mem_cons.1 h with rfl | h
      · exact .inr ⟨e, List.mem_cons_self, rfl⟩
      · exact .inr ⟨x, List.mem_cons_of_mem _ h, rfl⟩
    · rcases List.mem_cons.1 h with rfl | h
      · exact .inr ⟨x, List.mem_cons_self, rfl⟩
      · rcases ih h with hk | ⟨f, hf, hx⟩
        · exact .inl hk
        · exact .inr ⟨f, List.mem_cons_of_mem _ hf, hx⟩

theorem Distinct.insert (h : m.Distinct) : (m.insert k v).Distinct := by
  induction m with
  | nil => exact List.pairwise_singleton _ _
  | cons e m ih =>
    obtain ⟨he, hm⟩ := List.pairwise_cons.1 h
    rw [Mapping.insert]
    split
    · exact List.pairwise_cons.2 ⟨he, hm⟩
    · next hne =>
      refine List.pairwise_cons.2 ⟨fun x hx => ?_, ih hm⟩
      rcases key_of_mem_insert hx with hk | ⟨f, hf, hk⟩
      · rw [hk]
        simpa using hne
      · rw [hk]
        exact he f hf

theorem Distinct.insertAll (h : m.Distinct) : (m.insertAll entries).Distinct := by
  induction entries generalizing m with
  | nil => exact h
  | cons e entries ih => exact ih h.insert

theorem distinct_ofList (entries : List (Value × Value)) : (ofList entries).Distinct :=
  Distinct.insertAll (m := []) .nil

theorem has_str_iff : m.has (.str name) = true ↔ .str name ∈ m.keys := by
  simp [has, keys, Value.agrees_str]

/-! ### Variation -/

/-- The two mappings have the same keys in one order, and the same values but under the keys that
are free. -/
def Varies (free : Value → Prop) (m n : Mapping) : Prop :=
  List.Forall₂ (fun e f => e.1 = f.1 ∧ (¬free e.1 → e = f)) m n

theorem Varies.refl (free : Value → Prop) (m : Mapping) : m.Varies free m :=
  List.forall₂_same.2 fun _ _ => ⟨rfl, fun _ => rfl⟩

theorem Varies.symm (h : m.Varies free n) : n.Varies free m :=
  h.flip.imp fun _ _ ⟨hk, hv⟩ => ⟨hk.symm, fun hfree => (hv (hk ▸ hfree)).symm⟩

theorem Varies.trans (h : m.Varies free n) (h' : n.Varies free l) : m.Varies free l := by
  induction h generalizing l with
  | nil =>
    cases h'
    exact .nil
  | cons hef _ ih =>
    cases h' with
    | cons hfg h' =>
      refine .cons ⟨hef.1.trans hfg.1, fun hfree => ?_⟩ (ih h')
      exact (hef.2 hfree).trans (hfg.2 (hef.1 ▸ hfree))

theorem Varies.mono (h : m.Varies free n) (hfree : ∀ k, free k → free' k) : m.Varies free' n :=
  h.imp fun _ _ ⟨hk, hv⟩ => ⟨hk, fun hnot => hv (mt (hfree _) hnot)⟩

theorem Varies.keys_eq (h : m.Varies free n) : m.keys = n.keys := by
  rw [← List.forall₂_eq_eq_eq]
  exact List.forall₂_map_left_iff.2 (List.forall₂_map_right_iff.2 (h.imp fun _ _ h => h.1))

theorem Varies.distinct (h : m.Varies free n) (hm : m.Distinct) : n.Distinct := by
  rw [distinct_iff_keys, ← h.keys_eq]
  exact distinct_iff_keys.1 hm

theorem Varies.has_eq (h : m.Varies free n) : m.has (.str name) = n.has (.str name) :=
  Bool.eq_iff_iff.2 (by rw [has_str_iff, has_str_iff, h.keys_eq])

/-- Where no key is free, there is no difference. -/
theorem Varies.eq (h : m.Varies free n) (hnone : ∀ e ∈ m, ¬free e.1) : m = n := by
  rw [← List.forall₂_eq_eq_eq]
  exact ((List.forall₂_and_left _ _).2 ⟨hnone, h⟩).imp fun _ _ ⟨hfree, hef⟩ => hef.2 hfree

theorem Varies.mem (h : m.Varies free n) {e : Value × Value} (he : e ∈ m) (hfree : ¬free e.1) :
    e ∈ n := by
  induction h with
  | nil => cases he
  | cons hef _ ih =>
    rcases List.mem_cons.1 he with rfl | he
    · rw [hef.2 hfree]
      exact List.mem_cons_self
    · exact List.mem_cons_of_mem _ (ih he)

/-- The other mapping is determined by what it has under the free keys. -/
theorem Varies.eq_map {f : Value × Value → Value × Value} (h : m.Varies free n) (hn : n.Distinct)
    (hsame : ∀ e ∈ m, ¬free e.1 → f e = e)
    (hfree : ∀ e ∈ m, free e.1 → ∃ v, n.get? e.1 = some v ∧ f e = (e.1, v)) : n = m.map f := by
  obtain ⟨hlength, hpairs⟩ := List.forall₂_iff_zip.1 h
  refine Eq.symm ?_
  rw [← List.forall₂_eq_eq_eq]
  refine List.forall₂_map_left_iff.2 (List.forall₂_iff_zip.2 ⟨hlength, fun {e g} hzip => ?_⟩)
  obtain ⟨he, hg⟩ := List.of_mem_zip hzip
  obtain ⟨hkey, hvalue⟩ := hpairs hzip
  by_cases hk : free e.1
  · obtain ⟨v, hv, hf⟩ := hfree e he hk
    rw [hkey, get?_of_mem hn hg] at hv
    obtain rfl := Option.some.inj hv
    rw [hf, hkey]
  · rw [hsame e he hk, ← hvalue hk]

theorem Varies.filter (h : m.Varies free n) (p : Value → Bool) (hp : ∀ k, p k = true → ¬free k) :
    m.filter (fun e => p e.1) = n.filter fun e => p e.1 := by
  induction h with
  | nil => rfl
  | @cons e f _ _ hef _ ih =>
    rw [List.filter_cons, List.filter_cons, ← hef.1, ih]
    split
    · next he => rw [hef.2 (hp _ he)]
    · rfl

/-- The look-up under a key that is not free is the same. -/
theorem Varies.get?_eq (h : m.Varies free n) (hk : ∀ l, l.agrees k = true → ¬free l) :
    m.get? k = n.get? k := by
  induction h with
  | nil => rfl
  | @cons e f _ _ hef _ ih =>
    rw [get?, get?, List.find?_cons, List.find?_cons, ← hef.1]
    cases he : e.1.agrees k with
    | true => rw [hef.2 (hk _ he)]
    | false => exact ih

/-- An entry that is there is given another value. -/
theorem varies_insert (hhas : m.has (.str name) = true) (hfree : free (.str name)) :
    m.Varies free (m.insert (.str name) v) := by
  induction m with
  | nil => cases hhas
  | cons e m ih =>
    rw [insert]
    split
    · next he =>
      refine .cons ⟨rfl, fun hnot => ?_⟩ (Varies.refl free m)
      rw [Value.agrees_str.1 he] at hnot
      exact absurd hfree hnot
    · next he =>
      refine .cons ⟨rfl, fun _ => rfl⟩ (ih ?_)
      simpa [has, he] using hhas

/-- Entries that are there are given other values. -/
theorem varies_insertAll (h : ∀ e ∈ entries, ∃ name, e.1 = .str name ∧ m.has (.str name) = true ∧
      free (.str name)) : m.Varies free (m.insertAll entries) := by
  induction entries generalizing m with
  | nil => exact Varies.refl free m
  | cons e entries ih =>
    obtain ⟨⟨name, hkey, hhas, hfree⟩, h⟩ := List.forall_mem_cons.1 h
    have hfirst : m.Varies free (m.insert e.1 e.2) := by
      rw [hkey]
      exact varies_insert hhas hfree
    refine hfirst.trans (ih fun f hf => ?_)
    obtain ⟨other, hother, hhas, hfree⟩ := h f hf
    exact ⟨other, hother, hfirst.has_eq ▸ hhas, hfree⟩

/-- A key that is given one value in both mappings is free no more. -/
theorem Varies.insert (h : m.Varies free n) (hm : m.Distinct) :
    (m.insert (.str name) v).Varies (fun k => free k ∧ k ≠ .str name) (n.insert (.str name) v) := by
  induction h with
  | nil => exact Varies.refl _ _
  | @cons e f m n hef hmn ih =>
    obtain ⟨he, hm⟩ := List.pairwise_cons.1 hm
    rw [Mapping.insert, Mapping.insert, ← hef.1]
    split
    · next hname =>
      have hkey := Value.agrees_str.1 hname
      refine .cons ⟨rfl, fun _ => rfl⟩ (((List.forall₂_and_left _ _).2 ⟨he, hmn⟩).imp ?_)
      rintro x y ⟨hne, hk, hv⟩
      refine ⟨hk, fun hnot => hv fun hfree => hnot ⟨hfree, ?_⟩⟩
      intro hx
      rw [hkey, hx, Value.agrees_self] at hne
      cases hne
    · next hname =>
      refine .cons ⟨hef.1, fun hnot => hef.2 fun hfree => hnot ⟨hfree, ?_⟩⟩ (ih hm)
      intro hkey
      exact hname (Value.agrees_str.2 hkey)

/-- Once all free keys have been given values there is no difference. -/
theorem Varies.insertAll_eq (h : m.Varies free n) (hm : m.Distinct)
    (hkeys : ∀ f ∈ entries, ∃ name, f.1 = .str name)
    (hall : ∀ e ∈ m, free e.1 → ∃ f ∈ entries, f.1 = e.1) :
    m.insertAll entries = n.insertAll entries := by
  induction entries generalizing free m n with
  | nil => exact h.eq fun e he hfree => by simpa using hall e he hfree
  | cons f entries ih =>
    obtain ⟨⟨name, hname⟩, hkeys⟩ := List.forall_mem_cons.1 hkeys
    have hvaries : (m.insert f.1 f.2).Varies (fun k => free k ∧ k ≠ f.1) (n.insert f.1 f.2) := by
      rw [hname]
      exact h.insert hm
    refine ih hvaries hm.insert hkeys fun e he hfree => ?_
    rcases key_of_mem_insert he with hk | ⟨x, hx, hk⟩
    · exact absurd hk hfree.2
    · obtain ⟨g, hg, hge⟩ := hall x hx (hk ▸ hfree.1)
      rcases List.mem_cons.1 hg with rfl | hg
      · exact absurd (hk.trans hge.symm) hfree.2
      · exact ⟨g, hg, hge.trans hk.symm⟩

theorem varies_of_keys_eq (h : m.keys = n.keys) : m.Varies (fun _ => True) n := by
  rw [keys, keys, ← List.forall₂_eq_eq_eq, List.forall₂_map_left_iff, List.forall₂_map_right_iff]
    at h
  exact h.imp fun _ _ hk => ⟨hk, fun hfixed => absurd trivial hfixed⟩

/-- Entries for all keys, in their order, are all that is left. -/
theorem insertAll_of_keys_eq {names : List String} (hm : m.keys = names.map Value.str)
    (hn : n.keys = names.map Value.str) (hnodup : names.Nodup) : m.insertAll n = n := by
  have hdistinct := distinct_of_keys_eq hn hnodup
  have hnames : ∀ e ∈ n, ∃ name, e.1 = .str name := by
    intro e he
    obtain ⟨name, _, hname⟩ := exists_name_of_mem hn he
    exact ⟨name, hname⟩
  rw [(varies_of_keys_eq (hm.trans hn.symm)).insertAll_eq (distinct_of_keys_eq hm hnodup) hnames]
  · refine insertAll_of_get? fun e he => ?_
    obtain ⟨name, hname⟩ := hnames e he
    exact ⟨name, hname, hname ▸ get?_of_mem hdistinct he⟩
  · intro e he _
    have hkey : e.1 ∈ n.keys := hn ▸ hm ▸ List.mem_map_of_mem he
    exact List.mem_map.1 hkey

end UrlRouting.Mapping
