import UrlRouting.Proofs.Number.Whole
import UrlRouting.Proofs.Value.Variation

/-! Agreement of keys: values that can be keys agree exactly if they have one standard form, so keys
that agree stand for each other in a mapping. -/
namespace UrlRouting

namespace Value

variable {a b c : Value} {as bs : List Value} {n : Int}

mutual

/-- The numbers in a value that can be a key are in their one form. -/
def IsNormal : Value → Prop
  | float x => x.IsNormal
  | tuple items => AllNormal items
  | _ => True

def AllNormal : List Value → Prop
  | [] => True
  | v :: rest => IsNormal v ∧ AllNormal rest

end

/-- A value that can be a key. -/
structure IsKey (k : Value) : Prop where
  hashable : k.unhashable? = Option.none
  normal : k.IsNormal

mutual

/-- A whole number stands for the numbers of all kinds that equal it. -/
def standard : Value → Value
  | bool b => int (if b then 1 else 0)
  | methods mask => int mask
  | float x => match x.whole? with
    | some n => int n
    | Option.none => float x
  | tuple items => tuple (standardAll items)
  | v => v

def standardAll : List Value → List Value
  | [] => []
  | v :: rest => standard v :: standardAll rest

end

/-- The whole number that a value equals, if any. -/
def whole? : Value → Option Int
  | float x => x.whole?
  | v => v.asInt?

theorem standard_eq_int : b.standard = int n ↔ b.whole? = some n := by
  cases b with
  | float x =>
    rw [standard, whole?]
    cases x.whole? <;> simp
  | _ => simp [standard, whole?, asInt?]

theorem standard_of_asInt? (h : a.asInt? = some n) : a.standard = int n := by
  rw [standard_eq_int]
  cases a with
  | float => cases h
  | _ => exact h

theorem agrees_of_asInt? (h : a.asInt? = some n) : a.agrees b = true ↔ b.whole? = some n := by
  cases a with
  | bool | int | methods =>
    cases h
    cases b with
    | float x => simp only [agrees, scalarEqual, asInt?, whole?, Binary64.equalsInt_iff]
    | bool | int | methods =>
      simp only [agrees, scalarEqual, asInt?, whole?, beq_iff_eq, Option.some.injEq]
      exact eq_comm
    | _ => simp [agrees, scalarEqual, asInt?, whole?]
  | _ => cases h

theorem float_agrees_of_asInt? {x : Binary64} (h : b.asInt? = some n) :
    (float x).agrees b = x.equalsInt n := by
  cases b with
  | bool | int | methods =>
    cases h
    cases x <;> simp only [agrees, scalarEqual, asInt?]
  | _ => cases h

/-- A float that is whole agrees with the numbers of all kinds that are the same whole number. -/
theorem float_agrees_of_whole? {x : Binary64} (hx : x.IsNormal) (hb : b.IsNormal)
    (h : x.whole? = some n) : (float x).agrees b = true ↔ b.whole? = some n := by
  cases x with
  | nan | infinity => cases h
  | finite negative m e =>
    cases b with
    | float y => exact Binary64.equal_iff_of_whole? hx hb h
    | bool | int | methods =>
      rw [float_agrees_of_asInt? rfl, Binary64.equalsInt_iff, h]
      exact eq_comm
    | _ => simp [agrees, scalarEqual, asInt?, whole?]

/-- Any other float agrees with itself only. -/
theorem float_agrees_of_not_whole {x : Binary64} (h : x.whole? = Option.none) :
    (float x).agrees b = true ↔ float x = b := by
  cases b with
  | bool | int | methods =>
    rw [float_agrees_of_asInt? rfl, Binary64.equalsInt_iff, h]
    simp
  | float y =>
    rw [float.injEq]
    cases x with
    | nan tag => cases y <;> simp [agrees, scalarEqual, Binary64.equal]
    | infinity | finite => exact Binary64.equal_iff_of_not_whole rfl h
  | _ => cases x <;> simp [agrees, scalarEqual, asInt?]

theorem float_standard_of_not_whole {x : Binary64} (h : x.whole? = Option.none) :
    (float x).standard = b.standard ↔ float x = b := by
  constructor
  · intro hsame
    cases b with
    | float y =>
      rw [standard, standard, h] at hsame
      cases hy : y.whole? with
      | none =>
        rw [hy] at hsame
        exact hsame
      | some n =>
        rw [hy] at hsame
        cases hsame
    | _ => simp [standard, h] at hsame
  · rintro rfl
    rfl

theorem float_agrees_iff {x : Binary64} (hx : x.IsNormal) (hb : b.IsNormal) :
    (float x).agrees b = true ↔ (float x).standard = b.standard := by
  cases h : x.whole? with
  | some n =>
    have hstandard : (float x).standard = int n := standard_eq_int.2 h
    rw [float_agrees_of_whole? hx hb h, ← standard_eq_int, hstandard]
    exact eq_comm
  | none => rw [float_agrees_of_not_whole h, float_standard_of_not_whole h]

theorem number_agrees_iff (h : a.asInt? = some n) :
    a.agrees b = true ↔ a.standard = b.standard := by
  rw [agrees_of_asInt? h, standard_of_asInt? h, ← standard_eq_int]
  exact eq_comm

/-- What can be a key consists of such values. -/
theorem IsKey.items {items : List Value} (h : (tuple items).IsKey) : ∀ v ∈ items, v.IsKey := by
  obtain ⟨hhashable, hnormal⟩ := h
  rw [unhashable?] at hhashable
  rw [IsNormal] at hnormal
  induction items with
  | nil => simp
  | cons v items ih =>
    rw [unhashable?.firstUnhashable] at hhashable
    rw [AllNormal] at hnormal
    cases hv : v.unhashable? with
    | some k =>
      rw [hv] at hhashable
      cases hhashable
    | none =>
      rw [hv] at hhashable
      exact List.forall_mem_cons.2 ⟨⟨hv, hnormal.1⟩, ih hhashable hnormal.2⟩

mutual

/-- Keys agree exactly if they have one standard form. -/
theorem agrees_iff :
    {a b : Value} → a.IsKey → b.IsKey → (a.agrees b = true ↔ a.standard = b.standard)
  | none, b, _, _ | str _, b, _, _ | bytes _, b, _, _ | handler _, b, _, _ => by
    cases b with
    | float x => cases h : x.whole? <;> cases x <;> simp [agrees, scalarEqual, asInt?, standard, h]
    | _ => simp [agrees, scalarEqual, asInt?, standard]
  | bool _, _, _, _ | int _, _, _, _ | methods _, _, _, _ => number_agrees_iff rfl
  | float _, _, ha, hb => float_agrees_iff ha.normal hb.normal
  | list _, _, ha, _ | dict _, _, ha, _ => nomatch ha.hashable
  | tuple as, b, ha, hb => by
    cases b with
    | tuple bs =>
      rw [agrees, standard, standard, tuple.injEq]
      exact agreesAll_iff ha.items hb.items
    | float x => cases h : x.whole? <;> cases x <;> simp [agrees, scalarEqual, asInt?, standard, h]
    | _ => simp [agrees, scalarEqual, asInt?, standard]

theorem agreesAll_iff : {as bs : List Value} → (∀ a ∈ as, a.IsKey) → (∀ b ∈ bs, b.IsKey) →
    (agreesAll as bs = true ↔ standardAll as = standardAll bs)
  | [], [], _, _ => by simp [agreesAll]
  | [], _ :: _, _, _ | _ :: _, [], _, _ => by simp [agreesAll, standardAll]
  | a :: as, b :: bs, ha, hb => by
    obtain ⟨ha, has⟩ := List.forall_mem_cons.1 ha
    obtain ⟨hb, hbs⟩ := List.forall_mem_cons.1 hb
    rw [agreesAll, standardAll, standardAll, Bool.and_eq_true, List.cons.injEq, agrees_iff ha hb,
      agreesAll_iff has hbs]

end

theorem agrees_comm (ha : a.IsKey) (hb : b.IsKey) : a.agrees b = b.agrees a := by
  rw [Bool.eq_iff_iff, agrees_iff ha hb, agrees_iff hb ha]
  exact eq_comm

/-- Keys that agree are told from the same keys. -/
theorem agrees_congr (ha : a.IsKey) (hb : b.IsKey) (hc : c.IsKey) (hab : a.agrees b = true) :
    c.agrees a = c.agrees b := by
  rw [agrees_iff ha hb] at hab
  rw [Bool.eq_iff_iff, agrees_iff hc ha, agrees_iff hc hb, hab]

theorem isKey_str (s : String) : (str s).IsKey :=
  ⟨rfl, trivial⟩

end Value

namespace Mapping

variable {m n : Mapping} {k v : Value} {e : Value × Value} {name : String}

/-- The keys can be keys, and none is there twice. -/
structure Keyed (m : Mapping) : Prop where
  isKey : ∀ e ∈ m, e.1.IsKey
  distinct : m.Distinct

theorem mem_of_get?_str (h : m.get? (.str name) = some v) : (.str name, v) ∈ m := by
  obtain ⟨e, he, hk, rfl⟩ := mem_of_get? h
  rw [← Value.agrees_str.1 hk]
  exact he

theorem get?_congr {l : Value} (h : ∀ e ∈ m, e.1.agrees k = e.1.agrees l) :
    m.get? k = m.get? l := by
  induction m with
  | nil => rfl
  | cons e m ih =>
    obtain ⟨he, hm⟩ := List.forall_mem_cons.1 h
    rw [get?, get?, List.find?_cons, List.find?_cons, he]
    cases e.1.agrees l with
    | true => rfl
    | false => exact ih hm

/-- A value is found under all keys that agree with its own. -/
theorem Keyed.get?_of_agrees (h : m.Keyed) (hk : k.IsKey) (he : e ∈ m) (hek : e.1.agrees k = true) :
    m.get? k = some e.2 := by
  rw [← get?_of_mem h.distinct he]
  exact get?_congr fun f hf => (Value.agrees_congr (h.isKey e he) hk (h.isKey f hf) hek).symm

theorem distinct_iff_nodup (h : ∀ e ∈ m, e.1.IsKey) :
    m.Distinct ↔ (m.map fun e => e.1.standard).Nodup := by
  rw [List.Nodup, List.pairwise_map]
  refine List.Pairwise.iff_of_mem fun he hf => ?_
  rw [← Bool.not_eq_true, Value.agrees_iff (h _ he) (h _ hf)]

theorem Varies.keyed {free : Value → Prop} (h : m.Varies free n) (hm : m.Keyed) : n.Keyed where
  isKey e he := by
    have hkey : e.1 ∈ m.keys := h.keys_eq ▸ List.mem_map_of_mem he
    obtain ⟨f, hf, hkey⟩ := List.mem_map.1 hkey
    exact hkey ▸ hm.isKey f hf
  distinct := h.distinct hm.distinct

end Mapping

end UrlRouting
