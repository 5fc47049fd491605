import Mathlib.Algebra.Group.Nat.Defs
import Mathlib.Data.List.Forall2
import UrlRouting.Text.Integer

/-! Reading whole numbers: the digits may be of any script, and the usual spelling of a number is
read as that number, if it is not too long. -/
namespace UrlRouting.Text

variable {c : Char} {code : Nat} {digits rest : List Char} {values : List Nat} {n : Nat} {k l : Int}

/-! ### Digits -/

theorem CodeRanges.contains_eq_false {a b : CodeRanges} (ha : a.contains code = true)
    (h : ∀ r ∈ a, ∀ q ∈ b, r.2 < q.1 ∨ q.2 < r.1) : b.contains code = false := by
  rw [Bool.eq_false_iff]
  intro hb
  obtain ⟨r, hr, hlow, hhigh⟩ := contains_iff.1 ha
  obtain ⟨q, hq, hlow', hhigh'⟩ := contains_iff.1 hb
  rcases h r hr q hq with h | h <;> omega

theorem isSome_decimalValue? (code : Nat) : (decimalValue? code).isSome = isDecimal code := by
  rw [decimalValue?, isDecimal]
  split
  · cases isAsciiDecimal code <;> rfl
  · rw [Option.isSome_map, List.isSome_find?]
    rfl

theorem ne_of_isDigit {d : Char} (h : isDigit c.toNat = true) (hd : isDigit d.toNat = false) :
    c ≠ d := by
  rintro rfl
  rw [h] at hd
  cases hd

/-- A digit beyond ASCII is no blank. -/
theorem isBlank_of_isDigit_of_le (h : isDigit code = true) (hcode : 0x80 ≤ code) :
    isBlank code = false := by
  rw [isBlank, if_neg (by omega)]
  rcases Bool.or_eq_true_iff.1 h with h | h
  · rw [isDecimal, if_neg (by omega)] at h
    exact CodeRanges.contains_eq_false h (by decide)
  · exact CodeRanges.contains_eq_false h (by decide)

theorem isNumberBlank_of_isDigit (h : isDigit c.toNat = true) : isNumberBlank c = false := by
  rw [isNumberBlank]
  split
  · next hcode =>
    have hlone : loneDigits.contains c.toNat = false := by
      have hall : CodeRanges.contains [(0, 0x7F)] c.toNat = true :=
        CodeRanges.contains_iff.2 ⟨_, List.mem_cons_self, Nat.zero_le _, by omega⟩
      exact CodeRanges.contains_eq_false hall (by decide)
    rw [isDigit, hlone, Bool.or_false, isDecimal, if_pos hcode] at h
    simp only [isAsciiDecimal, Bool.and_eq_true, decide_eq_true_eq] at h
    simp [isAsciiBlank]
    omega
  · next hcode => exact isBlank_of_isDigit_of_le h (by omega)

/-- Decimal digits have values, one by one. -/
def HaveValues (digits : List Char) (values : List Nat) : Prop :=
  List.Forall₂ (fun c d => decimalValue? c.toNat = some d) digits values

theorem ne_underscore_of_value {d : Nat} (h : decimalValue? c.toNat = some d) : c ≠ '_' := by
  rintro rfl
  cases h

theorem HaveValues.head?_ne (h : HaveValues digits values) (hrest : rest.head? ≠ some '_') :
    (digits ++ rest).head? ≠ some '_' := by
  cases h with
  | nil => exact hrest
  | cons h _ => exact fun hc => ne_underscore_of_value h (Option.some.inj hc)

/-- All digits up to the first other character are taken. -/
theorem HaveValues.takeDigits (h : HaveValues digits values)
    (hrest : ∀ c, rest.head? = some c → c ≠ '_' ∧ decimalValue? c.toNat = none) :
    takeDigits false (digits ++ rest) = some (values, rest) := by
  induction h with
  | nil =>
    cases rest with
    | nil => rfl
    | cons c rest =>
      obtain ⟨hne, hnone⟩ := hrest c rfl
      rw [List.nil_append, Text.takeDigits, if_neg hne, hnone]
      rfl
  | cons hc _ ih =>
    rw [List.cons_append, Text.takeDigits, if_neg (ne_underscore_of_value hc), hc, ih]
    rfl

theorem HaveValues.readNatural (h : HaveValues digits values) (hne : digits ≠ []) :
    readNatural digits =
      if integerDigitLimit < digits.length then .error (.tooManyDigits digits.length)
      else .ok (ofDigits values) := by
  have hhead : (digits ++ []).head? ≠ some '_' := h.head?_ne nofun
  have htake : Text.takeDigits false (digits ++ []) = some (values, []) := h.takeDigits nofun
  have hlength := List.Forall₂.length_eq h
  have hvalues : values ≠ [] := by
    rwa [← List.length_pos_iff, ← hlength, List.length_pos_iff]
  rw [List.append_nil] at hhead htake
  rw [Text.readNatural, if_neg hhead, htake, hlength]
  simp [hvalues]

/-- Digits are no number if a character follows that is neither a digit nor a blank. -/
theorem HaveValues.readNatural_append (h : HaveValues digits values) (hne : c ≠ '_')
    (hnone : decimalValue? c.toNat = none) (hblank : isNumberBlank c = false) :
    ∃ fault, Text.readNatural (digits ++ c :: rest) = .error fault := by
  have hhead : (digits ++ c :: rest).head? ≠ some '_' := h.head?_ne (by simpa using hne)
  have htake : Text.takeDigits false (digits ++ c :: rest) = some (values, c :: rest) := by
    refine h.takeDigits fun d hd => ?_
    cases hd
    exact ⟨hne, hnone⟩
  rw [Text.readNatural, if_neg hhead, htake]
  by_cases hlong : values.length > integerDigitLimit
  · exact ⟨_, if_pos hlong⟩
  · exact ⟨_, (if_neg hlong).trans (if_pos (by simp [hblank]))⟩

theorem HaveValues.isDecimal (h : HaveValues digits values) :
    ∀ c ∈ digits, isDecimal c.toNat = true := by
  induction h with
  | nil => exact nofun
  | cons hd _ ih =>
    refine List.forall_mem_cons.2 ⟨?_, ih⟩
    rw [← isSome_decimalValue?, hd]
    rfl

/-- All characters have values, or there is a first one that has none. -/
theorem haveValues_or_stops (digits : List Char) : (∃ values, HaveValues digits values) ∨
    ∃ decimals values c rest, digits = decimals ++ c :: rest ∧ HaveValues decimals values ∧
      decimalValue? c.toNat = none := by
  induction digits with
  | nil => exact .inl ⟨[], .nil⟩
  | cons c digits ih =>
    cases hc : decimalValue? c.toNat with
    | none => exact .inr ⟨[], [], c, digits, rfl, .nil, hc⟩
    | some d =>
      rcases ih with ⟨values, hvalues⟩ | ⟨decimals, values, c', rest, rfl, hvalues, hc'⟩
      · exact .inl ⟨d :: values, .cons hc hvalues⟩
      · exact .inr ⟨c :: decimals, d :: values, c', rest, rfl, .cons hc hvalues, hc'⟩

/-- One of the digits has no place value, or there are too many of them. -/
def IsUnreadable (digits : List Char) : Prop :=
  (∃ c ∈ digits, isDecimal c.toNat = false) ∨ integerDigitLimit < digits.length

theorem HaveValues.isUnreadable_iff (h : HaveValues digits values) :
    IsUnreadable digits ↔ integerDigitLimit < digits.length := by
  refine or_iff_right ?_
  rintro ⟨c, hc, hlone⟩
  rw [h.isDecimal c hc] at hlone
  cases hlone

/-- Digits are read by their values unless they are unreadable. -/
theorem readNatural_cases (hne : digits ≠ []) (hdigits : ∀ c ∈ digits, isDigit c.toNat = true) :
    (¬IsUnreadable digits ∧ ∃ values, HaveValues digits values ∧
      readNatural digits = .ok (ofDigits values)) ∨
    IsUnreadable digits ∧ ∃ fault, readNatural digits = .error fault := by
  rcases haveValues_or_stops digits with ⟨values, hvalues⟩ |
    ⟨decimals, values, c, rest, rfl, hvalues, hc⟩
  · rw [hvalues.isUnreadable_iff]
    by_cases hlong : integerDigitLimit < digits.length
    · exact .inr ⟨hlong, _, by rw [hvalues.readNatural hne, if_pos hlong]⟩
    · exact .inl ⟨hlong, values, hvalues, by rw [hvalues.readNatural hne, if_neg hlong]⟩
  · have hmem : c ∈ decimals ++ c :: rest := by simp
    have hdigit := hdigits c hmem
    have hlone : Text.isDecimal c.toNat = false := by
      rw [← isSome_decimalValue?, hc]
      rfl
    exact .inr ⟨.inl ⟨c, hmem, hlone⟩,
      hvalues.readNatural_append (ne_of_isDigit hdigit (by decide)) hc
      (isNumberBlank_of_isDigit hdigit)⟩

/-- A number that begins with a digit has no sign. -/
theorem readInteger_of_isDigit (rest : List Char) (h : isDigit c.toNat = true) :
    readInteger (c :: rest) = (readNatural (c :: rest)).map fun n : Nat => (n : Int) := by
  rw [readInteger, List.dropWhile_cons, isNumberBlank_of_isDigit h, if_neg (by simp)]
  split
  · next heq => exact absurd (List.cons.inj heq).1 (ne_of_isDigit h (by decide))
  · next heq => exact absurd (List.cons.inj heq).1 (ne_of_isDigit h (by decide))
  · rfl

theorem readInteger_dash :
    readInteger ('-' :: rest) = (readNatural rest).map fun n : Nat => -(n : Int) :=
  rfl

/-! ### The length of what is read -/

theorem decimalValue?_lt {d : Nat} (h : decimalValue? code = some d) : d < 10 := by
  rw [decimalValue?] at h
  split at h
  · split at h
    · next hdecimal =>
      cases h
      simp only [isAsciiDecimal, Bool.and_eq_true, decide_eq_true_eq] at hdecimal
      omega
    · cases h
  · obtain ⟨r, _, rfl⟩ := Option.map_eq_some_iff.1 h
    exact Nat.mod_lt _ (by decide)

theorem lt_of_takeDigits {isOpen : Bool} (h : takeDigits isOpen digits = some (values, rest)) :
    ∀ d ∈ values, d < 10 := by
  induction digits generalizing isOpen values with
  | nil =>
    cases isOpen
    · cases h
      exact nofun
    · cases h
  | cons c digits ih =>
    rw [takeDigits] at h
    split at h
    · cases isOpen
      · exact ih h
      · cases h
    · split at h
      · next d hd =>
        obtain ⟨⟨values', rest'⟩, htaken, heq⟩ := Option.map_eq_some_iff.1 h
        cases heq
        exact List.forall_mem_cons.2 ⟨decimalValue?_lt hd, ih htaken⟩
      · cases isOpen
        · cases h
          exact nofun
        · cases h

theorem foldl_digits_lt (h : ∀ d ∈ values, d < 10) (n : Nat) :
    values.foldl (fun n d => 10 * n + d) n < (n + 1) * 10 ^ values.length := by
  induction values generalizing n with
  | nil => simp
  | cons d values ih =>
    obtain ⟨hd, hvalues⟩ := List.forall_mem_cons.1 h
    calc values.foldl (fun n d => 10 * n + d) (10 * n + d)
        < (10 * n + d + 1) * 10 ^ values.length := ih hvalues _
      _ ≤ (n + 1) * 10 * 10 ^ values.length := Nat.mul_le_mul_right _ (by omega)
      _ = (n + 1) * 10 ^ (values.length + 1) := by
        rw [Nat.pow_succ, Nat.mul_assoc, Nat.mul_comm 10]

theorem lt_of_readNatural (h : readNatural digits = .ok n) : n < Nat.pow 10 integerDigitLimit := by
  rw [readNatural] at h
  split at h
  · cases h
  · split at h
    · cases h
    · next values rest htaken =>
      split at h
      · cases h
      · next hshort =>
        split at h
        · cases h
        · cases h
          have hlt := foldl_digits_lt (lt_of_takeDigits htaken) 0
          rw [Nat.zero_add, Nat.one_mul] at hlt
          generalize integerDigitLimit = limit at hshort ⊢
          exact Nat.lt_of_lt_of_le hlt
            (Nat.pow_le_pow_right (by decide) (Nat.le_of_not_gt hshort))

/-- What is read is no longer than what may be written. -/
theorem natAbs_lt_of_readInteger (h : readInteger digits = .ok k) :
    k.natAbs < Nat.pow 10 integerDigitLimit := by
  have hsigned : ∀ {rest} {f : Nat → Int}, (∀ n, (f n).natAbs = n) →
      (readNatural rest).map f = .ok k → k.natAbs < Nat.pow 10 integerDigitLimit := by
    intro rest f hf hmap
    cases hn : readNatural rest with
    | error fault =>
      rw [hn] at hmap
      cases hmap
    | ok n =>
      rw [hn] at hmap
      cases hmap
      rw [hf]
      exact lt_of_readNatural hn
  rw [readInteger] at h
  split at h
  · exact hsigned (fun n => by rw [Int.natAbs_neg, Int.natAbs_natCast]) h
  · exact hsigned Int.natAbs_natCast h
  · exact hsigned Int.natAbs_natCast h

/-! ### The usual spelling -/

theorem code_of_isDigit (h : c.isDigit = true) : 0x30 ≤ c.toNat ∧ c.toNat ≤ 0x39 := by
  simp only [Char.isDigit, Bool.and_eq_true, decide_eq_true_eq, ge_iff_le, UInt32.le_iff_toNat_le]
    at h
  exact h

theorem decimalValue?_of_isDigit (h : c.isDigit = true) :
    decimalValue? c.toNat = some (c.toNat - 0x30) := by
  obtain ⟨hlow, hhigh⟩ := code_of_isDigit h
  have hdecimal : isAsciiDecimal c.toNat = true := by simp [isAsciiDecimal, hlow, hhigh]
  rw [decimalValue?, if_pos (by omega), if_pos hdecimal]

theorem isDigit_of_ascii (h : c.isDigit = true) : isDigit c.toNat = true := by
  refine Bool.or_eq_true_iff.2 (.inl ?_)
  rw [← isSome_decimalValue?, decimalValue?_of_isDigit h]
  rfl

theorem haveValues_of_isDigit (h : ∀ c ∈ digits, c.isDigit = true) :
    HaveValues digits (digits.map fun c => c.toNat - 0x30) := by
  rw [HaveValues, List.forall₂_map_right_iff, List.forall₂_same]
  exact fun c hc => decimalValue?_of_isDigit (h c hc)

theorem isDigit_of_mem_digits (h : c ∈ Nat.toDigits 10 n) : c.isDigit = true :=
  Nat.isDigit_of_mem_toDigits (by decide) (by decide) h

theorem readNatural_digits : readNatural (Nat.toDigits 10 n) =
    if (Nat.toDigits 10 n).length > integerDigitLimit then
      .error (.tooManyDigits (Nat.toDigits 10 n).length)
    else .ok n := by
  have hvalue : ofDigits ((Nat.toDigits 10 n).map fun c => c.toNat - 0x30) = n := by
    rw [ofDigits, List.foldl_map]
    exact Nat.ofDigitChars_ten_toDigits
  rw [(haveValues_of_isDigit fun c => isDigit_of_mem_digits).readNatural Nat.toDigits_ne_nil,
    hvalue]

theorem readInteger_digits : readInteger (Nat.toDigits 10 n) =
    (readNatural (Nat.toDigits 10 n)).map fun n : Nat => (n : Int) := by
  obtain ⟨c, rest, hdigits⟩ := List.exists_cons_of_ne_nil (Nat.toDigits_ne_nil (n := n) (b := 10))
  have hc : c.isDigit = true := isDigit_of_mem_digits (hdigits ▸ List.mem_cons_self)
  rw [hdigits, readInteger_of_isDigit rest (isDigit_of_ascii hc)]

theorem toList_toString (k : Int) : (toString k).toList = Nat.toDigits 10 k.natAbs ∧ 0 ≤ k ∨
    (toString k).toList = '-' :: Nat.toDigits 10 k.natAbs ∧ k < 0 := by
  cases k with
  | ofNat n => exact .inl ⟨Nat.toList_repr, Int.natCast_nonneg n⟩
  | negSucc n =>
    refine .inr ⟨?_, Int.negSucc_lt_zero n⟩
    change ("-" ++ Nat.repr (n + 1)).toList = _
    rw [String.toList_append, Nat.toList_repr]
    rfl

theorem mem_toString (h : c ∈ (toString k).toList) : c = '-' ∨ c.isDigit = true := by
  rcases toList_toString k with ⟨hk, _⟩ | ⟨hk, _⟩ <;> rw [hk] at h
  · exact .inr (isDigit_of_mem_digits h)
  · exact (List.mem_cons.1 h).imp_right isDigit_of_mem_digits

theorem toString_ne_nil : (toString k).toList ≠ [] := by
  rcases toList_toString k with ⟨hk, _⟩ | ⟨hk, _⟩ <;> rw [hk]
  · exact Nat.toDigits_ne_nil
  · exact List.cons_ne_nil _ _

/-- What is read from the usual spelling of a number is that number. -/
theorem eq_of_readInteger_toString (h : readInteger (toString k).toList = .ok l) : l = k := by
  rcases toList_toString k with ⟨hk, hsign⟩ | ⟨hk, hsign⟩
  · rw [hk, readInteger_digits, readNatural_digits] at h
    split at h
    · cases h
    · cases h
      exact Int.natAbs_of_nonneg hsign
  · rw [hk, readInteger_dash, readNatural_digits] at h
    split at h
    · cases h
    · have hl : -(k.natAbs : Int) = l := Except.ok.inj h
      omega

end UrlRouting.Text
