import Mathlib.Data.List.Nodup
import Mathlib.Data.List.Perm.Subperm
import UrlRouting.Proofs.Value.Key
import UrlRouting.Value.Text

/-! Mappings that are equal: they have the same entries, whatever the order, under keys that
agree. -/
namespace UrlRouting

namespace Value

variable {a b k : Value} {name : String}

/-- A text, or nothing. -/
inductive IsTextual : Value → Prop
  | none : IsTextual .none
  | str (s : String) : IsTextual (.str s)

instance : DecidablePred IsTextual
  | .none => isTrue .none
  | .str s => isTrue (.str s)
  | .bool _ | .int _ | .float _ | .bytes _ | .list _ | .tuple _ | .dict _ | .methods _ |
      .handler _ =>
    isFalse nofun

theorem IsTextual.isWritable (ha : a.IsTextual) : a.isWritable = true := by
  cases ha <;> rfl

theorem IsTextual.agrees_iff (ha : a.IsTextual) : a.agrees b = true ↔ a = b := by
  cases ha with
  | none =>
    cases b with
    | float x => cases x <;> simp [agrees, scalarEqual, asInt?]
    | _ => simp [agrees, scalarEqual, asInt?]
  | str s =>
    rw [str_agrees]
    exact eq_comm

/-- Only a text has a text for its standard form. -/
theorem standard_eq_str : k.standard = str name ↔ k = str name := by
  cases k with
  | float x => cases h : x.whole? <;> simp [standard, h]
  | _ => simp [standard]

end Value

namespace Mapping

variable {m n : Mapping} {k l v : Value} {e : Value × Value} {name : String}
  {entries : List (Value × Value)}

/-- The mapping with its keys in their standard form. -/
def standardized (m : Mapping) : Mapping :=
  m.map fun e => (e.1.standard, e.2)

/-- The same entries in any order, under keys that agree. -/
def Alike (m n : Mapping) : Prop :=
  m.standardized.Perm n.standardized

theorem mem_standardized : e ∈ m.standardized ↔ ∃ f ∈ m, f.1.standard = e.1 ∧ f.2 = e.2 := by
  obtain ⟨k, v⟩ := e
  simp [standardized]

theorem Alike.symm (h : m.Alike n) : n.Alike m :=
  List.Perm.symm h

theorem Alike.exists_mem (h : m.Alike n) (he : e ∈ m) :
    ∃ f ∈ n, f.1.standard = e.1.standard ∧ f.2 = e.2 :=
  mem_standardized.1 (h.mem_iff.1 (List.mem_map_of_mem he))

/-! ### Look-ups -/

theorem Keyed.get?_eq_some (hm : m.Keyed) (hk : k.IsKey) :
    m.get? k = some v ↔ (k.standard, v) ∈ m.standardized := by
  rw [mem_standardized]
  constructor
  · intro h
    obtain ⟨e, he, hek, rfl⟩ := mem_of_get? h
    exact ⟨e, he, (Value.agrees_iff (hm.isKey e he) hk).1 hek, rfl⟩
  · rintro ⟨e, he, hek, rfl⟩
    exact hm.get?_of_agrees hk he ((Value.agrees_iff (hm.isKey e he) hk).2 hek)

/-- A look-up depends on the standard form of the key only. -/
theorem Keyed.get?_eq_of_standard (hm : m.Keyed) (hk : k.IsKey) (hl : l.IsKey)
    (h : k.standard = l.standard) : m.get? k = m.get? l := by
  refine Option.ext fun v => ?_
  rw [hm.get?_eq_some hk, hm.get?_eq_some hl, h]

theorem Alike.get?_eq (h : m.Alike n) (hm : m.Keyed) (hn : n.Keyed) (hk : k.IsKey) :
    m.get? k = n.get? k := by
  refine Option.ext fun v => ?_
  rw [hm.get?_eq_some hk, hn.get?_eq_some hk]
  exact h.mem_iff

theorem Alike.has_eq (h : m.Alike n) (hm : m.Keyed) (hn : n.Keyed) (hk : k.IsKey) :
    m.has k = n.has k := by
  rw [has_eq_isSome_get?, has_eq_isSome_get?, h.get?_eq hm hn hk]

/-! ### Texts as keys -/

theorem Keyed.insert (hm : m.Keyed) (hk : k.IsKey) : (m.insert k v).Keyed where
  isKey e he := by
    rcases key_of_mem_insert he with h | ⟨f, hf, h⟩
    · rw [h]
      exact hk
    · rw [h]
      exact hm.isKey f hf
  distinct := hm.distinct.insert

/-- A text that is given a value has this entry and no other. -/
theorem perm_insert (hm : m.Distinct) :
    (m.insert (.str name) v).Perm
      ((.str name, v) :: m.filter fun e => !e.1.agrees (.str name)) := by
  induction m with
  | nil => exact .refl _
  | cons e m ih =>
    obtain ⟨he, hm⟩ := List.pairwise_cons.1 hm
    rw [Mapping.insert, List.filter_cons]
    split
    · next hname =>
      have hrest : m.filter (fun f => !f.1.agrees (.str name)) = m := by
        rw [List.filter_eq_self]
        intro f hf
        have hne := he f hf
        rw [Value.agrees_str.1 hname, ← Bool.not_eq_true, Value.str_agrees] at hne
        simpa using Value.agrees_str_of_ne hne
      rw [hname, hrest, ← Value.agrees_str.1 hname]
      exact .refl _
    · next hname =>
      rw [if_pos (by simpa using hname)]
      exact ((ih hm).cons e).trans (.swap _ _ _)

theorem standardized_filter : standardized (m.filter fun e => !e.1.agrees (.str name)) =
    m.standardized.filter fun e => !e.1.agrees (.str name) := by
  rw [standardized, standardized, List.filter_map]
  refine congrArg _ (List.filter_congr fun e _ => ?_)
  rw [Function.comp_apply, Bool.eq_iff_iff, Bool.not_eq_true', Bool.not_eq_true',
    ← Bool.not_eq_true,
    ← Bool.not_eq_true, Value.agrees_str, Value.agrees_str, Value.standard_eq_str]

theorem Alike.insert (h : m.Alike n) (hm : m.Distinct) (hn : n.Distinct) :
    (m.insert (.str name) v).Alike (n.insert (.str name) v) := by
  have hinsert : ∀ {m : Mapping}, m.Distinct → (m.insert (.str name) v).standardized.Perm
      ((.str name, v) :: m.standardized.filter fun e => !e.1.agrees (.str name)) := by
    intro m hm
    rw [← standardized_filter]
    exact (perm_insert hm).map _
  exact (hinsert hm).trans (((h.filter _).cons _).trans (hinsert hn).symm)

theorem Alike.insertAll (h : m.Alike n) (hm : m.Keyed) (hn : n.Keyed)
    (hkeys : ∀ e ∈ entries, ∃ name, e.1 = .str name) :
    (m.insertAll entries).Alike (n.insertAll entries) ∧ (m.insertAll entries).Keyed := by
  induction entries generalizing m n with
  | nil => exact ⟨h, hm⟩
  | cons e entries ih =>
    obtain ⟨⟨name, hname⟩, hkeys⟩ := List.forall_mem_cons.1 hkeys
    have hk : e.1.IsKey := hname ▸ Value.isKey_str name
    have hfirst : (m.insert e.1 e.2).Alike (n.insert e.1 e.2) := by
      rw [hname]
      exact h.insert hm.distinct hn.distinct
    exact ih hfirst (hm.insert hk) (hn.insert hk) hkeys

/-! ### Equality -/

theorem agreesWithin_iff : ∀ {m n : Mapping}, Value.agreesWithin m n = true ↔
    ∀ e ∈ m, ∃ f ∈ n, e.1.agrees f.1 = true ∧ e.2.agrees f.2 = true
  | [], _ => by simp [Value.agreesWithin]
  | (k, v) :: m, n => by
    rw [Value.agreesWithin, Bool.and_eq_true, List.any_eq_true, agreesWithin_iff,
      List.forall_mem_cons]
    simp only [Bool.and_eq_true]

theorem equal_iff : m.equal n = true ↔ m.length = n.length ∧
    ∀ e ∈ m, ∃ f ∈ n, e.1.agrees f.1 = true ∧ e.2.agrees f.2 = true := by
  rw [equal, Value.agrees, Bool.and_eq_true, beq_iff_eq, agreesWithin_iff]

theorem Alike.equal (h : m.Alike n) (hm : ∀ e ∈ m, e.1.IsKey) (hn : ∀ e ∈ n, e.1.IsKey) :
    m.equal n = true := by
  refine equal_iff.2 ⟨by simpa [standardized] using h.length_eq, fun e he => ?_⟩
  obtain ⟨f, hf, hkey, hvalue⟩ := h.exists_mem he
  exact ⟨f, hf, (Value.agrees_iff (hm e he) (hn f hf)).2 hkey.symm, hvalue ▸ Value.agrees_self _⟩

/-- Mappings of texts that are equal have the same entries. -/
theorem alike_of_equal (hm : m.Keyed) (hn : n.Keyed) (htext : ∀ e ∈ m, e.2.IsTextual)
    (h : m.equal n = true) : m.Alike n := by
  obtain ⟨hlength, hall⟩ := equal_iff.1 h
  have hnodup : m.standardized.Nodup := by
    refine List.Nodup.of_map Prod.fst ?_
    rw [standardized, List.map_map]
    exact (distinct_iff_nodup hm.isKey).1 hm.distinct
  have hsubset : m.standardized ⊆ n.standardized := by
    intro x hx
    obtain ⟨e, he, hkey, hvalue⟩ := mem_standardized.1 hx
    obtain ⟨f, hf, hagree, hsame⟩ := hall e he
    refine mem_standardized.2 ⟨f, hf, ?_, ?_⟩
    · rw [← hkey, (Value.agrees_iff (hm.isKey e he) (hn.isKey f hf)).1 hagree]
    · rw [← hvalue, (htext e he).agrees_iff.1 hsame]
  refine (List.subperm_of_subset hnodup hsubset).perm_of_length_le ?_
  simp [standardized, hlength]

end Mapping

end UrlRouting
