import UrlRouting.CommandLine.Pair
import UrlRouting.Proofs.Expression.Source
import UrlRouting.Proofs.Text.Integer
import UrlRouting.Proofs.Text.Pieces
import UrlRouting.Proofs.Value.Variation

/-! Reading pairs of keys and values as they are written for the entries of a mapping. A value comes
back as a text, or as a whole number if it looks like one. -/
namespace UrlRouting.CommandLine

variable {s pair key value : List Char} {c : Char} {name text : String} {v : Value}
  {m entries : Mapping}

/-! ### Values -/

/-- A value as it is read again. What cannot be read stands for itself. -/
def reread (v : Value) : Value :=
  match parseValue v.text.toList with
  | .ok w => w
  | .error _ => v

theorem looksNumeric_eq_false (hdash : '-' ∉ s) (hc : c ∈ s)
    (hdigit : Text.isDigit c.toNat = false) : looksNumeric s = false := by
  have hdrop : s.dropWhile (· == '-') = s := by
    cases s with
    | nil => rfl
    | cons d s =>
      have hd : d ≠ '-' := fun h => hdash (h ▸ List.mem_cons_self)
      simp [hd]
  rw [looksNumeric, hdrop, Bool.and_eq_false_iff, List.all_eq_false]
  exact .inr ⟨c, hc, by simp [hdigit]⟩

theorem parseValue_text (h : looksNumeric s = false) :
    parseValue s = .ok (.str (String.ofList s)) := by
  rw [parseValue, h]
  rfl

theorem exists_number (h : looksNumeric s = true) (hread : ∃ v, parseValue s = .ok v) :
    ∃ n, Text.readInteger s = .ok n ∧ parseValue s = .ok (.int n) := by
  obtain ⟨v, hv⟩ := hread
  rw [parseValue, if_pos h] at hv ⊢
  cases hn : Text.readInteger s with
  | ok n => exact ⟨n, rfl, rfl⟩
  | error fault =>
    rw [hn] at hv
    cases fault <;> cases hv

/-- What is read is the text itself or a number. -/
theorem reread_cases (hread : ∃ v, parseValue text.toList = .ok v) :
    looksNumeric text.toList = false ∧ reread (.str text) = .str text ∨
      looksNumeric text.toList = true ∧ ∃ n, Text.readInteger text.toList = .ok n ∧
        reread (.str text) = .int n := by
  cases h : looksNumeric text.toList with
  | false =>
    refine .inl ⟨rfl, ?_⟩
    simp [reread, Value.text, parseValue_text h]
  | true =>
    obtain ⟨n, hn, hv⟩ := exists_number h hread
    refine .inr ⟨rfl, n, hn, ?_⟩
    simp [reread, Value.text, hv]

/-- A text is written as before unless it looks like a number in another spelling than the usual
one. -/
theorem text_reread_eq_iff (hread : ∃ v, parseValue text.toList = .ok v) :
    (reread (.str text)).text = text ↔
      (looksNumeric text.toList = true → ∃ n : Int, text = toString n) := by
  rcases reread_cases hread with ⟨hlooks, hv⟩ | ⟨hlooks, n, hn, hv⟩
  · simp [hlooks, hv, Value.text]
  · have htext : (reread (.str text)).text = toString n := by rw [hv]; rfl
    rw [htext]
    constructor
    · exact fun h _ => ⟨n, h.symm⟩
    · intro h
      obtain ⟨k, rfl⟩ := h hlooks
      rw [Text.eq_of_readInteger_toString hn]

theorem isNothing_reread (hread : ∃ v, parseValue text.toList = .ok v) :
    (reread (.str text)).isNothing = false := by
  rcases reread_cases hread with ⟨_, hv⟩ | ⟨_, n, _, hv⟩ <;> rw [hv] <;> rfl

/-- What is read can be written again, since numbers that are too long are not read. -/
theorem isWritable_reread (hread : ∃ v, parseValue text.toList = .ok v) :
    (reread (.str text)).isWritable = true := by
  rcases reread_cases hread with ⟨_, hv⟩ | ⟨_, n, hn, hv⟩ <;> rw [hv]
  · rfl
  · rw [Value.isWritable, Value.isShort, decide_eq_true_eq]
    exact Text.natAbs_lt_of_readInteger hn

/-! ### Pairs -/

/-- The text is a key that is not empty, an equals sign, and a value. The sign is the first one. -/
structure IsPair (pair key value : List Char) : Prop where
  text : pair = key ++ '=' :: value
  first : '=' ∉ key
  ne_nil : key ≠ []

/-- The text has no equals sign, or no key in front of it. -/
def IsMalformed (pair : List Char) : Prop :=
  '=' ∉ pair ∨ pair.head? = some '='

theorem cutPair?_eq_some : cutPair? pair = some (key, value) ↔ IsPair pair key value := by
  have hcut : cutPair? pair = some (key, value) ↔
      Text.cutFirst? '=' pair = some (key, value) ∧ key ≠ [] := by
    rw [cutPair?]
    cases Text.cutFirst? '=' pair with
    | none => simp
    | some cut =>
      obtain ⟨k, v⟩ := cut
      cases k with
      | nil => simp +contextual [eq_comm]
      | cons c k => simp +contextual [eq_comm]
  rw [hcut, Text.cutFirst?_eq_some]
  exact ⟨fun ⟨⟨htext, hfirst⟩, hne⟩ => ⟨htext, hfirst, hne⟩,
    fun h => ⟨⟨h.text, h.first⟩, h.ne_nil⟩⟩

theorem IsPair.not_isMalformed (h : IsPair pair key value) : ¬IsMalformed pair := by
  obtain ⟨rfl, hfirst, hne⟩ := h
  obtain ⟨c, key, rfl⟩ := List.exists_cons_of_ne_nil hne
  rintro (hfree | hhead)
  · exact hfree (by simp)
  · exact hfirst (by simp_all)

theorem isMalformed_of_cutPair? (h : cutPair? pair = none) : IsMalformed pair := by
  rw [cutPair?] at h
  split at h
  · next key value hcut =>
    obtain ⟨rfl, _⟩ := Text.cutFirst?_eq_some.1 hcut
    split at h
    · next hempty =>
      rw [List.isEmpty_iff.1 hempty]
      exact .inr rfl
    · cases h
  · next hcut => exact .inl (Text.cutFirst?_eq_none.1 hcut)

/-- The pair for an entry. -/
def pairOf (e : Value × Value) : String :=
  e.1.text ++ "=" ++ e.2.text

/-- The text is the key of a pair, and is read as a text. -/
structure IsKeyText (name : String) : Prop where
  ne_empty : name ≠ ""
  not_mem : '=' ∉ name.toList
  looksNumeric : looksNumeric name.toList = false

theorem cutPair?_pairOf (h : IsKeyText name) (v : Value) :
    cutPair? (pairOf (.str name, v)).toList = some (name.toList, v.text.toList) := by
  have hpair : (pairOf (.str name, v)).toList = name.toList ++ '=' :: v.text.toList := by
    simp [pairOf, Value.text]
  exact cutPair?_eq_some.2 ⟨hpair, h.not_mem, by simpa using h.ne_empty⟩

/-- The pairs for entries are read as these entries, with their values as they are read again. -/
theorem addPairs_pairs (hkeys : ∀ e ∈ entries, ∃ name, e.1 = .str name ∧ IsKeyText name)
    (hread : ∀ e ∈ entries, ∃ v, parseValue e.2.text.toList = .ok v) :
    addPairs m (entries.map fun e => (pairOf e).toList) =
      .ok (.values (m.insertAll (entries.map fun e => (e.1, reread e.2)))) := by
  induction entries generalizing m with
  | nil => rfl
  | cons e entries ih =>
    obtain ⟨⟨name, hname, hkey⟩, hkeys⟩ := List.forall_mem_cons.1 hkeys
    obtain ⟨⟨v, hv⟩, hread⟩ := List.forall_mem_cons.1 hread
    have hreread : reread e.2 = v := by rw [reread, hv]
    have hparsed : parseValue name.toList = .ok e.1 := by
      rw [parseValue_text hkey.looksNumeric, String.ofList_toList, hname]
    have hpair : cutPair? (pairOf e).toList = some (name.toList, e.2.text.toList) := by
      rw [← cutPair?_pairOf hkey, ← hname]
    rw [List.map_cons, addPairs, hpair]
    simp only [hv, hparsed, Expression.ok_bind, ih hkeys hread]
    rw [← hreread]
    rfl

theorem keys_map_reread : Mapping.keys (entries.map fun e => (e.1, reread e.2)) = entries.keys := by
  rw [Mapping.keys, List.map_map]
  rfl

theorem parsePairs_pairs (hdistinct : Mapping.Distinct entries)
    (hkeys : ∀ e ∈ entries, ∃ name, e.1 = .str name ∧ IsKeyText name)
    (hread : ∀ e ∈ entries, ∃ v, parseValue e.2.text.toList = .ok v) :
    parsePairs ((entries.map pairOf).map String.toList) =
      .ok (.values (entries.map fun e => (e.1, reread e.2))) := by
  have hnew : Mapping.Distinct (entries.map fun e => (e.1, reread e.2)) := by
    rw [Mapping.distinct_iff_keys, keys_map_reread, ← Mapping.distinct_iff_keys]
    exact hdistinct
  rw [parsePairs, List.map_map]
  refine (addPairs_pairs hkeys hread).trans ?_
  exact congrArg (fun m => Except.ok (Pairs.values m)) (Mapping.ofList_of_pairwise hnew)

end UrlRouting.CommandLine
