import UrlRouting.Value.Mapping

/-! Keys agree with themselves, and what a mapping keeps under its keys. -/
namespace UrlRouting

namespace Value

theorem agrees_float_self (x : Binary64) : (float x).agrees (float x) = true := by
  cases x <;> simp [agrees, scalarEqual, Binary64.equal]

mutual

theorem agrees_self : (v : Value) → v.agrees v = true
  | none | bool _ | int _ | str _ | bytes _ | methods _ | handler _ => by
    simp [agrees, scalarEqual, asInt?]
  | float x => agrees_float_self x
  | list items => by
    rw [agrees]
    exact agreesAll_self items
  | tuple items => by
    rw [agrees]
    exact agreesAll_self items
  | dict entries => by
    rw [agrees, beq_self_eq_true, Bool.true_and]
    exact agreesWithin_of_subset entries entries fun _ h => h

theorem agreesAll_self : (vs : List Value) → agreesAll vs vs = true
  | [] => rfl
  | v :: vs => by rw [agreesAll, agrees_self v, agreesAll_self vs, Bool.true_and]

theorem agreesWithin_of_subset : (es bs : List (Value × Value)) → (∀ e ∈ es, e ∈ bs) →
    agreesWithin es bs = true
  | [], _, _ => rfl
  | (k, v) :: es, bs, h => by
    have hself : bs.any (fun e => agrees k e.1 && agrees v e.2) = true := by
      refine List.any_eq_true.2 ⟨(k, v), h _ (by simp), ?_⟩
      rw [agrees_self k, agrees_self v, Bool.true_and]
    rw [agreesWithin, hself, agreesWithin_of_subset es bs fun e he => h e (by simp [he]),
      Bool.true_and]

end

/-- Nothing but the same text agrees with a text. -/
theorem agrees_str {k : Value} {name : String} : k.agrees (str name) = true ↔ k = str name := by
  cases k with
  | float x => cases x <;> simp [agrees, scalarEqual, asInt?]
  | _ => simp [agrees, scalarEqual, asInt?]

theorem str_agrees {k : Value} {name : String} : (str name).agrees k = true ↔ k = str name := by
  cases k with
  | str s =>
    rw [agrees_str]
    exact eq_comm
  | float x => cases x <;> simp [agrees, scalarEqual, asInt?]
  | _ => simp [agrees, scalarEqual, asInt?]

theorem agrees_str_of_ne {k : Value} {name : String} (h : k ≠ str name) :
    k.agrees (str name) = false := by
  rw [← Bool.not_eq_true, agrees_str]
  exact h

end Value

namespace Mapping

variable {m : Mapping} {k v : Value} {entries : List (Value × Value)} {name : String}

theorem insert_of_fresh (h : ∀ e ∈ m, e.1.agrees k = false) : m.insert k v = m ++ [(k, v)] := by
  induction m with
  | nil => rfl
  | cons e m ih =>
    obtain ⟨he, hm⟩ := List.forall_mem_cons.1 h
    rw [insert, if_neg (by simp [he]), ih hm, List.cons_append]

/-- New keys, of which no two agree, are added in their order. -/
theorem insertAll_of_fresh (h : ∀ e ∈ m, ∀ f ∈ entries, e.1.agrees f.1 = false)
    (hne : entries.Pairwise fun e f => e.1.agrees f.1 = false) :
    m.insertAll entries = m ++ entries := by
  induction entries generalizing m with
  | nil => simp [insertAll]
  | cons e entries ih =>
    obtain ⟨hself, hne⟩ := List.pairwise_cons.1 hne
    have hfresh : ∀ x ∈ m, x.1.agrees e.1 = false := fun x hx => h x hx e (by simp)
    have hinsert : m.insertAll (e :: entries) = (m.insert e.1 e.2).insertAll entries := rfl
    rw [hinsert, insert_of_fresh hfresh, ih ?_ hne, List.append_assoc, List.singleton_append]
    intro x hx f hf
    rcases List.mem_append.1 hx with hx | hx
    · exact h x hx f (by simp [hf])
    · rw [List.mem_singleton.1 hx]
      exact hself f hf

theorem ofList_of_pairwise (hne : entries.Pairwise fun e f => e.1.agrees f.1 = false) :
    ofList entries = entries :=
  insertAll_of_fresh (m := []) (by simp) hne

/-- A key that is given the value that it has changes nothing. -/
theorem insert_of_get? (h : m.get? (.str name) = some v) : m.insert (.str name) v = m := by
  induction m with
  | nil => cases h
  | cons e m ih =>
    simp only [get?, List.find?_cons] at h
    rw [insert]
    split
    · next he =>
      rw [he] at h
      cases h
      rfl
    · next he =>
      rw [Bool.not_eq_true] at he
      rw [he] at h
      rw [ih h]

/-- Neither do entries that are all there. -/
theorem insertAll_of_get?
    (h : ∀ e ∈ entries, ∃ name, e.1 = .str name ∧ m.get? (.str name) = some e.2) :
    m.insertAll entries = m := by
  induction entries with
  | nil => rfl
  | cons e entries ih =>
    obtain ⟨⟨name, hkey, hvalue⟩, h⟩ := List.forall_mem_cons.1 h
    have hsame : m.insert e.1 e.2 = m := by
      rw [hkey]
      exact insert_of_get? hvalue
    change (m.insert e.1 e.2).insertAll entries = m
    rw [hsame]
    exact ih h

theorem mem_of_get? (h : m.get? k = some v) : ∃ e ∈ m, e.1.agrees k = true ∧ e.2 = v := by
  obtain ⟨e, he, rfl⟩ := Option.map_eq_some_iff.1 h
  have hek : e.1.agrees k = true := List.find?_some (p := fun e : Value × Value => e.1.agrees k) he
  exact ⟨e, List.mem_of_find?_eq_some he, hek, rfl⟩

theorem get?_of_fresh (h : ∀ e ∈ m, e.1.agrees k = false) : m.get? k = none := by
  rw [get?, Option.map_eq_none_iff, List.find?_eq_none]
  exact fun e he => by simp [h e he]

/-- Where no two keys agree, each entry is found by its key. -/
theorem get?_of_mem {e : Value × Value} (hne : m.Pairwise fun e f => e.1.agrees f.1 = false)
    (he : e ∈ m) : m.get? e.1 = some e.2 := by
  induction m with
  | nil => cases he
  | cons f m ih =>
    obtain ⟨hf, hne⟩ := List.pairwise_cons.1 hne
    rcases List.mem_cons.1 he with rfl | he
    · simp [get?, Value.agrees_self]
    · have hskip : get? (f :: m) e.1 = get? m e.1 := by simp [get?, hf e he]
      rw [hskip, ih hne he]

theorem get?_append (m rest : Mapping) : get? (m ++ rest) k = (m.get? k).or (rest.get? k) := by
  rw [get?, List.find?_append, Option.map_or]
  rfl

theorem get?_map (f : Value → Value) : get? (m.map fun e => (e.1, f e.2)) k = (m.get? k).map f := by
  rw [get?, get?, List.find?_map, Option.map_map, Option.map_map]
  rfl

theorem has_of_mem {e : Value × Value} (he : e ∈ m) : m.has e.1 = true :=
  List.any_eq_true.2 ⟨e, he, Value.agrees_self e.1⟩

/-! ### Texts as keys -/

theorem get?_cons_self (v : Value) : get? ((.str name, v) :: m) (.str name) = some v := by
  simp [get?, Value.agrees_self (.str name)]

theorem get?_cons_of_ne (h : k ≠ .str name) :
    get? ((k, v) :: m) (.str name) = m.get? (.str name) := by
  simp [get?, Value.agrees_str_of_ne h]

theorem has_eq_false_iff : m.has (.str name) = false ↔ ∀ e ∈ m, e.1 ≠ .str name := by
  rw [has, List.any_eq_false]
  exact forall_congr' fun e => forall_congr' fun _ => not_congr Value.agrees_str

theorem get?_insert_self : (m.insert (.str name) v).get? (.str name) = some v := by
  induction m with
  | nil => exact get?_cons_self v
  | cons e m ih =>
    obtain ⟨k, w⟩ := e
    rw [insert]
    split
    · next he =>
      rw [Value.agrees_str.1 he]
      exact get?_cons_self v
    · next he => rw [get?_cons_of_ne (mt Value.agrees_str.2 he), ih]

/-- A text that is given a value leaves the values of all other keys. -/
theorem get?_insert_str (h : k ≠ .str name) : (m.insert (.str name) v).get? k = m.get? k := by
  have hskip : (Value.str name).agrees k = false := by
    rw [← Bool.not_eq_true, Value.str_agrees]
    exact h
  induction m with
  | nil => simp [insert, get?, hskip]
  | cons e m ih =>
    rw [insert]
    split
    · next he =>
      rw [Value.agrees_str.1 he]
      simp [get?, hskip, Value.agrees_str.1 he]
    · rw [get?, get?, List.find?_cons, List.find?_cons]
      cases e.1.agrees k with
      | true => rfl
      | false => exact ih

theorem get?_insert_of_ne {other : String} (h : other ≠ name) :
    (m.insert (.str name) v).get? (.str other) = m.get? (.str other) :=
  get?_insert_str (by simpa using h)

theorem has_insert_of_ne {other : String} (h : other ≠ name) :
    (m.insert (.str name) v).has (.str other) = m.has (.str other) := by
  rw [has_eq_isSome_get?, has_eq_isSome_get?, get?_insert_of_ne h]

/-- Entries before a key are left alone. -/
theorem insert_append (h : ∀ e ∈ m, e.1.agrees k = false) (rest : Mapping) :
    (m ++ rest).insert k v = m ++ rest.insert k v := by
  induction m with
  | nil => rfl
  | cons e m ih =>
    obtain ⟨he, hm⟩ := List.forall_mem_cons.1 h
    rw [List.cons_append, insert, if_neg (by simp [he]), ih hm, List.cons_append]

theorem get?_insertAll_of_ne (h : ∀ e ∈ entries, ∃ other, e.1 = .str other ∧ name ≠ other) :
    (m.insertAll entries).get? (.str name) = m.get? (.str name) := by
  induction entries generalizing m with
  | nil => rfl
  | cons e entries ih =>
    obtain ⟨⟨other, hkey, hne⟩, h⟩ := List.forall_mem_cons.1 h
    change ((m.insert e.1 e.2).insertAll entries).get? (.str name) = _
    rw [ih h, hkey, get?_insert_of_ne hne]

theorem exists_name_of_mem {names : List String} {e : Value × Value}
    (hkeys : m.keys = names.map Value.str) (he : e ∈ m) : ∃ name ∈ names, e.1 = .str name := by
  have hkey : e.1 ∈ m.keys := List.mem_map_of_mem he
  rw [hkeys] at hkey
  obtain ⟨name, hname, hkey⟩ := List.mem_map.1 hkey
  exact ⟨name, hname, hkey.symm⟩

/-- Of entries with different names, each is found. -/
theorem get?_insertAll_of_mem {names : List String}
    (hkeys : entries.map Prod.fst = names.map Value.str) (hnodup : names.Nodup)
    (he : (.str name, v) ∈ entries) : (m.insertAll entries).get? (.str name) = some v := by
  induction entries generalizing m names with
  | nil => cases he
  | cons e entries ih =>
    cases names with
    | nil => cases hkeys
    | cons first names =>
      simp only [List.map_cons, List.cons.injEq] at hkeys
      obtain ⟨hfirst, hkeys⟩ := hkeys
      obtain ⟨hnot, hnodup⟩ := List.nodup_cons.1 hnodup
      change ((m.insert e.1 e.2).insertAll entries).get? (.str name) = _
      rcases List.mem_cons.1 he with rfl | he
      · obtain rfl : name = first := Value.str.inj hfirst
        rw [get?_insertAll_of_ne, get?_insert_self]
        intro e he
        obtain ⟨other, hother, hkey⟩ := exists_name_of_mem hkeys he
        refine ⟨other, hkey, ?_⟩
        rintro rfl
        exact hnot hother
      · exact ih hkeys hnodup he

end Mapping

end UrlRouting
