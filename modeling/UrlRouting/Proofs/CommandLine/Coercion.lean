import UrlRouting.Proofs.CommandLine.Pair
import UrlRouting.Proofs.Related

/-! What a text on the command line is taken for: a whole number if it is written as one, and a text
if not. Some texts look like numbers and are none, and nothing can be read from these. -/
namespace UrlRouting.CommandLine

variable {s digits pair key value : List Char} {pairs : List (List Char)} {values : List Nat}
  {dashes : Nat} {n : Int} {v : Value} {m : Mapping}

/-! ### Dashes and digits -/

/-- Digits of any kind after some dashes. -/
structure Dashed (s : List Char) (dashes : Nat) (digits : List Char) : Prop where
  text : s = List.replicate dashes '-' ++ digits
  ne_nil : digits ≠ []
  isDigit : ∀ c ∈ digits, Text.isDigit c.toNat = true

namespace Dashed

theorem dropWhile_eq (h : Dashed s dashes digits) : s.dropWhile (· == '-') = digits := by
  obtain ⟨rfl, hne, hdigits⟩ := h
  obtain ⟨c, rest, rfl⟩ := List.exists_cons_of_ne_nil hne
  have hc : c ≠ '-' := Text.ne_of_isDigit (hdigits c List.mem_cons_self) (by decide)
  rw [List.dropWhile_append_of_pos (by simp), List.dropWhile_cons_of_neg (by simpa using hc)]

theorem unique {dashes' : Nat} {digits' : List Char} (h : Dashed s dashes digits)
    (h' : Dashed s dashes' digits') : dashes = dashes' ∧ digits = digits' := by
  have hdigits : digits = digits' := h.dropWhile_eq.symm.trans h'.dropWhile_eq
  have hlength := congrArg List.length (h.text.symm.trans h'.text)
  simp only [List.length_append, List.length_replicate, hdigits] at hlength
  exact ⟨by omega, hdigits⟩

end Dashed

theorem looksNumeric_iff : looksNumeric s = true ↔ ∃ dashes digits, Dashed s dashes digits := by
  rw [looksNumeric, Bool.and_eq_true, Bool.not_eq_true', List.isEmpty_eq_false_iff,
    List.all_eq_true]
  constructor
  · rintro ⟨hne, hdigits⟩
    have htake : s.takeWhile (· == '-') = List.replicate (s.takeWhile (· == '-')).length '-' :=
      List.eq_replicate_of_mem fun c hc => beq_iff_eq.1 (List.all_eq_true.1 List.all_takeWhile c hc)
    exact ⟨_, _, by rw [← htake, List.takeWhile_append_dropWhile], hne, hdigits⟩
  · rintro ⟨dashes, digits, h⟩
    rw [h.dropWhile_eq]
    exact ⟨h.ne_nil, h.isDigit⟩

/-- The text is a whole number: decimal digits, of any script, with one dash in front if it is
negative. -/
inductive Spells (s : List Char) : Int → Prop
  | natural {values : List Nat} (hne : s ≠ []) (h : Text.HaveValues s values) :
      Spells s (Text.ofDigits values)
  | negative {digits : List Char} {values : List Nat} (hs : s = '-' :: digits) (hne : digits ≠ [])
      (h : Text.HaveValues digits values) : Spells s (-(Text.ofDigits values : Nat))

/-- The text has digits after dashes and is no whole number that can be read: there are several
dashes, or one of the digits has no place value, or there are too many of them. -/
def IsMisleading (s : List Char) : Prop :=
  ∃ dashes digits, Dashed s dashes digits ∧ (1 < dashes ∨ Text.IsUnreadable digits)

theorem isDigit_of_haveValues (h : Text.HaveValues digits values) :
    ∀ c ∈ digits, Text.isDigit c.toNat = true :=
  fun c hc => Bool.or_eq_true_iff.2 (.inl (h.isDecimal c hc))

theorem Spells.exists_dashed (h : Spells s n) :
    ∃ dashes digits, Dashed s dashes digits ∧ dashes ≤ 1 := by
  cases h with
  | natural hne h => exact ⟨0, s, ⟨rfl, hne, isDigit_of_haveValues h⟩, by omega⟩
  | negative hs hne h => exact ⟨1, _, ⟨hs, hne, isDigit_of_haveValues h⟩, by omega⟩

theorem Dashed.isMisleading_iff (h : Dashed s dashes digits) :
    IsMisleading s ↔ 1 < dashes ∨ Text.IsUnreadable digits := by
  constructor
  · rintro ⟨_, _, h', hbad⟩
    obtain ⟨rfl, rfl⟩ := h.unique h'
    exact hbad
  · exact fun hbad => ⟨dashes, digits, h, hbad⟩

/-! ### Values -/

/-- What a text is taken for: the whole number that it is, and else the text itself. -/
inductive Coerces (s : List Char) : Value → Prop
  | number {n : Int} (h : Spells s n) : Coerces s (.int n)
  | text (h : ∀ n, ¬Spells s n) : Coerces s (.str (String.ofList s))

theorem parseValue_of_readInteger (h : looksNumeric s = true) (hread : Text.readInteger s = .ok n) :
    parseValue s = .ok (.int n) := by
  rw [parseValue, if_pos h, hread]

theorem exists_breakdown (h : looksNumeric s = true)
    (hread : ∃ fault, Text.readInteger s = .error fault) :
    ∃ b, parseValue s = .error b := by
  obtain ⟨fault, hfault⟩ := hread
  rw [parseValue, if_pos h, hfault]
  cases fault with
  | notANumber => exact ⟨_, rfl⟩
  | tooManyDigits => exact ⟨_, rfl⟩

/-- Behind one dash at most, digits are read as the number that they spell unless they are
unreadable. -/
theorem Dashed.readInteger_signed (h : Dashed s dashes digits) (hone : dashes ≤ 1) {f : Nat → Int}
    (hspells : ∀ values, Text.HaveValues digits values → Spells s (f (Text.ofDigits values)))
    (hread : Text.readInteger s = (Text.readNatural digits).map f) :
    (¬IsMisleading s ∧ ∃ n, Spells s n ∧ Text.readInteger s = .ok n) ∨
      IsMisleading s ∧ ∃ fault, Text.readInteger s = .error fault := by
  rw [h.isMisleading_iff, or_iff_right (by omega : ¬1 < dashes), hread]
  rcases Text.readNatural_cases h.ne_nil h.isDigit with ⟨hclear, values, hvalues, hnatural⟩ |
    ⟨hbad, fault, hfault⟩
  · exact .inl ⟨hclear, _, hspells values hvalues, by rw [hnatural]; rfl⟩
  · exact .inr ⟨hbad, fault, by rw [hfault]; rfl⟩

/-- Dashes and digits are a number, or they are misleading and cannot be read. -/
theorem Dashed.readInteger_cases (h : Dashed s dashes digits) :
    (¬IsMisleading s ∧ ∃ n, Spells s n ∧ Text.readInteger s = .ok n) ∨
      IsMisleading s ∧ ∃ fault, Text.readInteger s = .error fault := by
  match dashes, h with
  | 0, h =>
    obtain ⟨c, rest, hdigits⟩ := List.exists_cons_of_ne_nil h.ne_nil
    have hs : s = digits := h.text
    have hc : Text.isDigit c.toNat = true := h.isDigit c (hdigits ▸ List.mem_cons_self)
    refine h.readInteger_signed (f := fun n => (n : Int)) (by omega)
      (fun _ hvalues => .natural (hs ▸ h.ne_nil) (hs ▸ hvalues)) ?_
    rw [hs, hdigits, Text.readInteger_of_isDigit rest hc]
  | 1, h =>
    have hs : s = '-' :: digits := h.text
    refine h.readInteger_signed (f := fun n => -(n : Int)) (by omega)
      (fun _ hvalues => .negative hs h.ne_nil hvalues) ?_
    rw [hs, Text.readInteger_dash]
  | k + 2, h =>
    -- the second dash is read where a digit has to be
    have hs : s = '-' :: '-' :: (List.replicate k '-' ++ digits) := h.text
    obtain ⟨fault, hfault⟩ : ∃ fault,
        Text.readNatural ([] ++ '-' :: (List.replicate k '-' ++ digits)) = .error fault :=
      Text.HaveValues.readNatural_append .nil (by decide) rfl rfl
    refine .inr ⟨h.isMisleading_iff.2 (.inl (by omega)), fault, ?_⟩
    rw [hs, Text.readInteger_dash, ← List.nil_append ('-' :: _), hfault]
    rfl

/-- A text is read as what it is taken for unless it is misleading. -/
theorem parseValue_cases (s : List Char) :
    (¬IsMisleading s ∧ ∃ v, parseValue s = .ok v ∧ Coerces s v) ∨
    IsMisleading s ∧ ∃ b, parseValue s = .error b := by
  by_cases hlooks : looksNumeric s = true
  · obtain ⟨dashes, digits, h⟩ := looksNumeric_iff.1 hlooks
    rcases h.readInteger_cases with ⟨hclear, n, hn, hread⟩ | ⟨hbad, fault, hfault⟩
    · exact .inl ⟨hclear, .int n, parseValue_of_readInteger hlooks hread, .number hn⟩
    · exact .inr ⟨hbad, exists_breakdown hlooks ⟨fault, hfault⟩⟩
  · have hdashed : ¬∃ dashes digits, Dashed s dashes digits := mt looksNumeric_iff.2 hlooks
    refine .inl ⟨?_, _, parseValue_text (Bool.eq_false_iff.2 hlooks), .text fun n hn => ?_⟩
    · rintro ⟨dashes, digits, h, _⟩
      exact hdashed ⟨dashes, digits, h⟩
    · obtain ⟨dashes, digits, h, _⟩ := hn.exists_dashed
      exact hdashed ⟨dashes, digits, h⟩

theorem isMisleading_iff : IsMisleading s ↔ ∃ b, parseValue s = .error b := by
  rcases parseValue_cases s with ⟨hclear, v, hv, _⟩ | ⟨hbad, hb⟩
  · exact iff_of_false hclear (by simp [hv])
  · exact iff_of_true hbad hb

/-! ### Pairs -/

/-- Reading stops at a pair with a misleading key or value: the pairs in front of it are
well-formed. -/
inductive Stumbles : List (List Char) → Prop
  | here {pair key value : List Char} {pairs : List (List Char)} (hpair : IsPair pair key value)
      (hbad : IsMisleading key ∨ IsMisleading value) : Stumbles (pair :: pairs)
  | later {pair key value : List Char} {pairs : List (List Char)} (hpair : IsPair pair key value)
      (hrest : Stumbles pairs) : Stumbles (pair :: pairs)

theorem stumbles_cons_iff (hpair : IsPair pair key value) :
    Stumbles (pair :: pairs) ↔ (IsMisleading key ∨ IsMisleading value) ∨ Stumbles pairs := by
  constructor
  · rintro (⟨hpair', hbad⟩ | ⟨_, hrest⟩)
    · have hsame := (cutPair?_eq_some.2 hpair).symm.trans (cutPair?_eq_some.2 hpair')
      cases hsame
      exact .inl hbad
    · exact .inr hrest
  · rintro (hbad | hrest)
    · exact .here hpair hbad
    · exact .later hpair hrest

theorem not_stumbles_of_isMalformed (h : IsMalformed pair) : ¬Stumbles (pair :: pairs) := by
  rintro (⟨hpair, _⟩ | ⟨hpair, _⟩) <;> exact hpair.not_isMalformed h

/-- The pair is read as the entry. -/
def Enters (pair : List Char) (e : Value × Value) : Prop :=
  ∃ key value, IsPair pair key value ∧ Coerces key e.1 ∧ Coerces value e.2

/-- Pairs are read as entries, in their order, up to the first that is malformed. -/
theorem addPairs_cases (m : Mapping) (pairs : List (List Char)) :
    (Stumbles pairs ∧ ∃ b, addPairs m pairs = .error b) ∨
    (¬Stumbles pairs ∧ ∃ pair ∈ pairs, IsMalformed pair ∧
      addPairs m pairs = .ok (.malformed pair)) ∨
    (¬Stumbles pairs ∧ ∃ entries, List.Forall₂ Enters pairs entries ∧
      addPairs m pairs = .ok (.values (m.insertAll entries))) := by
  induction pairs generalizing m with
  | nil => exact .inr (.inr ⟨nofun, [], .nil, rfl⟩)
  | cons pair pairs ih =>
    cases hcut : cutPair? pair with
    | none =>
      have hbad := isMalformed_of_cutPair? hcut
      refine .inr (.inl ⟨not_stumbles_of_isMalformed hbad, pair, List.mem_cons_self, hbad, ?_⟩)
      rw [addPairs, hcut]
    | some cut =>
      obtain ⟨key, value⟩ := cut
      have hpair := cutPair?_eq_some.1 hcut
      rw [stumbles_cons_iff hpair]
      rcases parseValue_cases value with ⟨hvalue, w, hw, hwvalue⟩ | ⟨hvalue, b, hb⟩
      · rcases parseValue_cases key with ⟨hkey, k, hk, hkkey⟩ | ⟨hkey, b, hb⟩
        · have hadd : addPairs m (pair :: pairs) = addPairs (m.insert k w) pairs := by
            simp only [addPairs, hcut, hw, hk, Expression.ok_bind]
          have hclear : ¬(IsMisleading key ∨ IsMisleading value) := not_or.2 ⟨hkey, hvalue⟩
          rw [hadd, or_iff_right hclear]
          rcases ih (m.insert k w) with herror | ⟨hrest, p, hp, hmalformed⟩ |
            ⟨hrest, entries, hentries, hread⟩
          · exact .inl herror
          · exact .inr (.inl ⟨hrest, p, List.mem_cons_of_mem _ hp, hmalformed⟩)
          · exact .inr (.inr ⟨hrest, (k, w) :: entries,
              .cons ⟨key, value, hpair, hkkey, hwvalue⟩ hentries, hread⟩)
        · refine .inl ⟨.inl (.inl hkey), b, ?_⟩
          simp only [addPairs, hcut, hw, hb, Expression.ok_bind]
          rfl
      · refine .inl ⟨.inl (.inr hvalue), b, ?_⟩
        simp only [addPairs, hcut, hb]
        rfl

theorem stumbles_iff : Stumbles pairs ↔ ∃ b, parsePairs pairs = .error b := by
  rw [parsePairs]
  rcases addPairs_cases [] pairs with ⟨hbad, hb⟩ | ⟨hclear, pair, _, _, hread⟩ |
    ⟨hclear, entries, _, hread⟩
  · exact iff_of_true hbad hb
  · exact iff_of_false hclear (by simp [hread])
  · exact iff_of_false hclear (by simp [hread])

/-- A text that is not misleading is read as what it is taken for, a whole number or itself. Pairs
among which no misleading key or value is reached are refused if one of them has no equals sign or
no key, and only then, and are read as a mapping otherwise. -/
theorem parsePairs_of_clear (hs : ¬IsMisleading s) (hpairs : ¬Stumbles pairs) :
    (∃ v, parseValue s = .ok v ∧ Coerces s v) ∧
    ((∃ pair, parsePairs pairs = .ok (.malformed pair)) ↔ ∃ pair ∈ pairs, IsMalformed pair) ∧
    ((∀ pair ∈ pairs, ¬IsMalformed pair) → ∃ entries, List.Forall₂ Enters pairs entries ∧
      parsePairs pairs = .ok (.values (Mapping.ofList entries))) := by
  have hvalue : ∃ v, parseValue s = .ok v ∧ Coerces s v := by
    rcases parseValue_cases s with ⟨_, hv⟩ | ⟨hbad, _⟩
    · exact hv
    · exact absurd hbad hs
  refine ⟨hvalue, ?_⟩
  rcases addPairs_cases [] pairs with ⟨hbad, _⟩ | ⟨_, pair, hmem, hmalformed, hread⟩ |
    ⟨_, entries, hentries, hread⟩
  · exact absurd hbad hpairs
  · exact ⟨⟨fun _ => ⟨pair, hmem, hmalformed⟩, fun _ => ⟨pair, hread⟩⟩,
      fun hwell => absurd hmalformed (hwell pair hmem)⟩
  · have hwell : ∀ pair ∈ pairs, ¬IsMalformed pair := by
      intro pair hmem
      obtain ⟨e, _, key, value, hpair, _⟩ := exists_of_forall₂ hentries hmem
      exact hpair.not_isMalformed
    refine ⟨⟨?_, fun ⟨pair, hmem, hbad⟩ => absurd hbad (hwell pair hmem)⟩,
      fun _ => ⟨entries, hentries, hread⟩⟩
    rintro ⟨pair, hmalformed⟩
    cases hread.symm.trans hmalformed

theorem parsePairs_of_clear_usual :
    ¬IsMisleading "-2".toList ∧ ¬Stumbles ["a=b=c".toList, "0=-7".toList] ∧
      Coerces "-2".toList (.int (-2)) ∧
    ∃ entries, List.Forall₂ Enters ["a=b=c".toList, "0=-7".toList] entries ∧
      Mapping.ofList entries = [(.str "a", .str "b=c"), (.int 0, .int (-7))] := by
  have hvalue : parseValue "-2".toList = .ok (.int (-2)) := rfl
  have hread : parsePairs ["a=b=c".toList, "0=-7".toList] =
      .ok (.values [(.str "a", .str "b=c"), (.int 0, .int (-7))]) := rfl
  have hs : ¬IsMisleading "-2".toList := by
    rw [isMisleading_iff, hvalue]
    rintro ⟨_, ⟨⟩⟩
  have hpairs : ¬Stumbles ["a=b=c".toList, "0=-7".toList] := by
    rw [stumbles_iff, hread]
    rintro ⟨_, ⟨⟩⟩
  obtain ⟨⟨v, hv, hcoerces⟩, hmalformed, hentries⟩ := parsePairs_of_clear hs hpairs
  have hwell : ∀ pair ∈ ["a=b=c".toList, "0=-7".toList], ¬IsMalformed pair := by
    intro pair hmem hbad
    obtain ⟨_, h⟩ := hmalformed.2 ⟨pair, hmem, hbad⟩
    cases hread.symm.trans h
  obtain ⟨entries, henters, h⟩ := hentries hwell
  cases hvalue.symm.trans hv
  have hsame := hread.symm.trans h
  injection hsame with hsame
  injection hsame with hsame
  exact ⟨hs, hpairs, hcoerces, entries, henters, hsame.symm⟩

/-- With two dashes a text is no number, and not taken for a text either. -/
theorem parsePairs_two_dashes : (∀ n, ¬Spells "--2".toList n) ∧
    parseValue "--2".toList = .error (.notInteger "--2".toList) ∧ ¬IsMalformed "a=--2".toList ∧
    parsePairs ["a=--2".toList] = .error (.notInteger "--2".toList) := by
  have hpair : IsPair "a=--2".toList "a".toList "--2".toList := cutPair?_eq_some.1 rfl
  have hdashed : Dashed "--2".toList 2 ['2'] := ⟨rfl, by decide, List.forall_mem_singleton.2 rfl⟩
  refine ⟨fun n h => ?_, rfl, hpair.not_isMalformed, rfl⟩
  obtain ⟨dashes, digits, hdashed', hone⟩ := h.exists_dashed
  obtain ⟨rfl, _⟩ := hdashed.unique hdashed'
  omega

end UrlRouting.CommandLine
