import Mathlib.Data.List.Forall2
import UrlRouting.Expression.Matching
import UrlRouting.Proofs.Expression.Hereditary

/-! Expressions that take an ASCII letter in either case for the same. On texts that differ in the
case of ASCII letters only they go through the same states. -/
namespace UrlRouting.Expression

variable {m n : Nat} {c d : Char} {f : Folding} {test : CharTest} {items : List ClassItem}
  {negated : Bool} {t u : Subject} {a b : Node}

/-! ### Letters -/

theorem eq_or_letters (h : Text.lowerAscii m = Text.lowerAscii n) :
    m = n ∨ Text.isAsciiLetter m = true ∧ Text.isAsciiLetter n = true := by
  simp only [Text.lowerAscii, Text.isAsciiLetter, Bool.or_eq_true, Bool.and_eq_true,
    decide_eq_true_eq] at h ⊢
  split at h <;> split at h <;> omega

theorem ascii_of_letter (h : Text.isAsciiLetter m = true) : m < 0x80 := by
  simp only [Text.isAsciiLetter, Bool.or_eq_true, Bool.and_eq_true, decide_eq_true_eq] at h
  omega

theorem apply_eq (hf : f ≠ .exact) (h : Text.lowerAscii m = Text.lowerAscii n) :
    f.apply m = f.apply n := by
  rcases eq_or_letters h with rfl | ⟨hm, hn⟩
  · rfl
  cases f with
  | exact => exact absurd rfl hf
  | ascii => exact h
  | full => simpa [Folding.apply, Text.lower, ascii_of_letter hm, ascii_of_letter hn] using h

theorem isCased_of_letter (hf : f ≠ .exact) (h : Text.isAsciiLetter m = true) :
    f.isCased m = true := by
  cases f with
  | exact => exact absurd rfl hf
  | ascii => exact h
  | full =>
    have hlt := ascii_of_letter h
    simp only [Text.isAsciiLetter, Bool.or_eq_true, Bool.and_eq_true, decide_eq_true_eq] at h
    simp only [Folding.isCased, Text.isCased, Text.lower, Text.upper, Text.lowerAscii, hlt, if_true,
      Bool.or_eq_true, bne_iff_ne, Bool.and_eq_true, decide_eq_true_eq]
    split <;> split <;> omega

theorem anyCased_of_letter {first last : Nat} (hf : f ≠ .exact) (h : Text.isAsciiLetter m = true)
    (hfirst : first ≤ m) (hlast : m ≤ last) : f.anyCased first last = true := by
  simp only [Text.isAsciiLetter, Bool.or_eq_true, Bool.and_eq_true, decide_eq_true_eq] at h
  cases f with
  | exact => exact absurd rfl hf
  | ascii =>
    simp only [Folding.anyCased, Bool.or_eq_true, decide_eq_true_eq]
    omega
  | full =>
    simp only [Folding.anyCased, Text.anyCased, Bool.or_eq_true, decide_eq_true_eq]
    omega

theorem holds_of_letter {which : Category} {asciiOnly : Bool} (h : Text.isAsciiLetter m = true) :
    which.holds asciiOnly m = (which == .word) := by
  have hlt := ascii_of_letter h
  have hword : Text.isAsciiWord m = true ∧ Text.isWord m = true := by
    simp [Text.isAsciiWord, Text.isWord, Text.isLetter_of_ascii hlt, h]
  simp only [Text.isAsciiLetter, Bool.or_eq_true, Bool.and_eq_true, decide_eq_true_eq] at h
  have hdecimal : Text.isAsciiDecimal m = false := by
    simp only [Text.isAsciiDecimal, Bool.and_eq_false_iff, decide_eq_false_iff_not]
    omega
  have hblank : Text.isAsciiBlank m = false ∧ Text.isBlank m = false := by
    simp only [Text.isBlank, Text.isAsciiBlank, hlt, if_true, Bool.or_eq_false_iff,
      Bool.and_eq_false_iff, decide_eq_false_iff_not, beq_eq_false_iff_ne]
    omega
  cases which <;> cases asciiOnly
  · simp [Category.holds, Text.isDecimal, hlt, hdecimal]
  · simp [Category.holds, hdecimal]
  · simp [Category.holds, hblank.2]
  · simp [Category.holds, hblank.1]
  · simp [Category.holds, hword.2]
  · simp [Category.holds, hword.1]

/-! ### Tests -/

/-- Two characters that are the same, or one letter in two cases. -/
def SameLetter (c d : Char) : Prop :=
  Text.lowerAscii c.toNat = Text.lowerAscii d.toNat

instance : DecidableRel SameLetter :=
  fun _ _ => inferInstanceAs (Decidable (_ = _))

/-- The test takes an ASCII letter in either case for the same. -/
def CharTest.IgnoresCase (test : CharTest) : Prop :=
  ∀ c d, SameLetter c d → test.accepts c = test.accepts d

theorem ignoresCase_ofCode (hf : f ≠ .exact) (code : Nat) :
    (CharTest.ofCode f code negated).IgnoresCase := by
  intro c d h
  unfold CharTest.ofCode
  split
  · simp only [CharTest.accepts, Folding.same, apply_eq hf h]
  · next hcode =>
    rcases eq_or_letters h with heq | ⟨hc, hd⟩
    · simp only [CharTest.accepts, heq]
    · have hne : ∀ {k}, Text.isAsciiLetter k = true → (k == code) = false := by
        intro k hk
        rw [beq_eq_false_iff_ne]
        rintro rfl
        exact hcode (isCased_of_letter hf hk)
      simp [CharTest.accepts, Folding.same, Folding.apply, Folding.kin, hne hc, hne hd]

/-- An item without letters of two cases accepts no letter for itself. -/
theorem accepts_uncased {item : ClassItem} (hf : f ≠ .exact) (hitem : item.isCased f = false)
    (hm : Text.isAsciiLetter m = true) (hn : Text.isAsciiLetter n = true) :
    item.accepts .exact m = item.accepts .exact n := by
  cases item with
  | code k =>
    simp only [ClassItem.isCased, Bool.or_eq_false_iff] at hitem
    have hne : ∀ {l}, Text.isAsciiLetter l = true → (l == k) = false := by
      intro l hl
      rw [beq_eq_false_iff_ne]
      rintro rfl
      rw [isCased_of_letter hf hl] at hitem
      cases hitem.1
    simp [ClassItem.accepts, hne hm, hne hn]
  | range first last =>
    simp only [ClassItem.isCased, Bool.or_eq_false_iff] at hitem
    have hout : ∀ {l}, Text.isAsciiLetter l = true → ClassItem.between first last l = false := by
      intro l hl
      rw [ClassItem.between, ← Bool.not_eq_true, Bool.and_eq_true, decide_eq_true_eq,
        decide_eq_true_eq]
      rintro ⟨hfirst, hlast⟩
      rw [anyCased_of_letter hf hl hfirst hlast] at hitem
      cases hitem.1
    simp [ClassItem.accepts, hout hm, hout hn]
  | category which asciiOnly negated =>
    simp only [ClassItem.accepts, holds_of_letter hm, holds_of_letter hn]

theorem ignoresCase_ofItems (hf : f ≠ .exact) (items : List ClassItem) :
    (CharTest.ofItems f items negated).IgnoresCase := by
  intro c d h
  unfold CharTest.ofItems
  split
  · simp only [CharTest.accepts, apply_eq hf h]
  · next hitems =>
    rcases eq_or_letters h with heq | ⟨hc, hd⟩
    · simp only [CharTest.accepts, heq]
    · have hany : items.any (·.accepts .exact c.toNat) = items.any (·.accepts .exact d.toNat) := by
        rw [Bool.eq_iff_iff, List.any_eq_true, List.any_eq_true]
        refine exists_congr fun item => and_congr_right fun hitem => ?_
        have huncased : item.isCased f = false := by
          rw [← Bool.not_eq_true]
          exact fun h => hitems (List.any_eq_true.2 ⟨item, hitem, h⟩)
        rw [accepts_uncased hf huncased hc hd]
      simp only [CharTest.accepts, Folding.apply, hany]

theorem ignoresCase_exceptNewline : CharTest.exceptNewline.IgnoresCase := by
  intro c d h
  rcases eq_or_letters h with heq | ⟨hc, hd⟩
  · rw [Char.toNat_inj.1 heq]
  · have hne : ∀ {c : Char}, Text.isAsciiLetter c.toNat = true → (c != '\n') = true := by
      intro c hc
      rw [bne_iff_ne]
      rintro rfl
      cases hc
    simp only [CharTest.accepts, hne hc, hne hd]

/-! ### Expressions -/

/-- All tests and references of the expression take an ASCII letter in either case for the same. -/
def Node.IgnoresCase : Node → Prop
  | .empty | .anchor _ => True
  | .char test | .many _ _ _ test => test.IgnoresCase
  | .again _ f => f ≠ .exact
  | .seq a b | .alt a b | .whether _ a b => a.IgnoresCase ∧ b.IgnoresCase
  | .group _ body | .loop _ _ _ body | .atomic body | .ahead _ body | .behind _ _ body =>
      body.IgnoresCase

theorem hereditary_ignoresCase : Hereditary Node.IgnoresCase where
  empty := trivial
  seq ha hb := ⟨ha, hb⟩
  alt ha hb := ⟨ha, hb⟩
  whether ha hb := ⟨ha, hb⟩
  many h := h
  loop h := h
  atomic h := h
  ahead h := h
  behind h := h

/-- Two texts that differ in the case of ASCII letters only. -/
def SameLetters (t u : Subject) : Prop :=
  List.Forall₂ SameLetter t.toList u.toList

namespace SameLetters

variable (h : SameLetters t u)
include h

theorem size_eq : t.size = u.size := by
  simpa using h.length_eq

theorem getElem?_cases (i : Nat) : t[i]? = none ∧ u[i]? = none ∨
    ∃ c d, t[i]? = some c ∧ u[i]? = some d ∧ SameLetter c d := by
  by_cases hi : i < t.size
  · have hi' : i < u.size := h.size_eq ▸ hi
    exact .inr ⟨t[i], u[i], Array.getElem?_eq_getElem hi, Array.getElem?_eq_getElem hi',
      h.get hi hi'⟩
  · have hi' : ¬i < u.size := h.size_eq ▸ hi
    exact .inl ⟨Array.getElem?_eq_none (Nat.le_of_not_lt hi),
      Array.getElem?_eq_none (Nat.le_of_not_lt hi')⟩

theorem newline_eq (i : Nat) : (t[i]? == some '\n') = (u[i]? == some '\n') := by
  rcases h.getElem?_cases i with ⟨ht, hu⟩ | ⟨c, d, ht, hu, hcd⟩
  · rw [ht, hu]
  · have := ignoresCase_exceptNewline c d hcd
    simp only [CharTest.accepts, bne, Bool.not_inj_iff] at this
    simpa [ht, hu] using this

theorem isWordAt_eq (asciiOnly : Bool) (i : Nat) :
    Anchor.isWordAt t asciiOnly i = Anchor.isWordAt u asciiOnly i := by
  rcases h.getElem?_cases i with ⟨ht, hu⟩ | ⟨c, d, ht, hu, hcd⟩
  · simp only [Anchor.isWordAt, ht, hu]
  · simp only [Anchor.isWordAt, ht, hu]
    rcases eq_or_letters hcd with heq | ⟨hc, hd⟩
    · rw [heq]
    · rw [holds_of_letter hc, holds_of_letter hd]

theorem wordBefore_eq (asciiOnly : Bool) (i : Nat) :
    Anchor.wordBefore t asciiOnly i = Anchor.wordBefore u asciiOnly i := by
  cases i with
  | zero => rfl
  | succ i => exact h.isWordAt_eq asciiOnly i

theorem holds_eq (a : Anchor) (i : Nat) : a.holds t i = a.holds u i := by
  have hempty : t.isEmpty = u.isEmpty := by simp only [Array.isEmpty, h.size_eq]
  cases a <;>
    simp only [Anchor.holds, h.size_eq, h.newline_eq, h.wordBefore_eq, h.isWordAt_eq, hempty]

theorem runLength_eq (htest : test.IgnoresCase) (limit i : Nat) :
    runLength t test limit i = runLength u test limit i := by
  induction limit generalizing i with
  | zero => rfl
  | succ limit ih =>
    rcases h.getElem?_cases i with ⟨ht, hu⟩ | ⟨c, d, ht, hu, hcd⟩
    · simp only [runLength, ht, hu]
    · simp only [runLength, ht, hu, htest c d hcd, ih]

theorem sameText_eq (hf : f ≠ .exact) (count first i : Nat) :
    sameText t f count first i = sameText u f count first i := by
  induction count generalizing first i with
  | zero => rfl
  | succ count ih =>
    rcases h.getElem?_cases first with ⟨ht, hu⟩ | ⟨c, d, ht, hu, hcd⟩
    · simp only [sameText, ht, hu]
    · rcases h.getElem?_cases i with ⟨ht', hu'⟩ | ⟨c', d', ht', hu', hcd'⟩
      · simp only [sameText, ht, hu, ht', hu']
      · simp only [sameText, ht, hu, ht', hu', apply_eq hf hcd, apply_eq hf hcd', ih]

/-- An expression goes through the same states on both texts. -/
theorem run_eq {n : Node} (hn : n.IgnoresCase) : n.run t = n.run u := by
  have hsize := h.size_eq
  induction n with
  | empty => rfl
  | char test =>
    funext goal s
    rcases h.getElem?_cases s.pos with ⟨ht, hu⟩ | ⟨c, d, ht, hu, hcd⟩
    · simp only [Node.run, ht, hu]
    · simp only [Node.run, ht, hu, hn c d hcd]
  | anchor a =>
    funext goal s
    simp only [Node.run, h.holds_eq]
  | again index f =>
    funext goal s
    simp only [Node.run, h.sameText_eq hn]
  | seq a b iha ihb =>
    funext goal
    simp only [Node.run, iha hn.1, ihb hn.2]
  | alt a b iha ihb =>
    funext goal s
    simp only [Node.run, iha hn.1, ihb hn.2]
  | group index body ih =>
    funext goal s
    simp only [Node.run, ih hn]
  | many least most greed test =>
    funext goal s
    simp only [Node.run, runMany, hsize, h.runLength_eq hn]
  | loop least most greed body ih =>
    funext goal s
    simp only [Node.run, runLoop, turnLimit, hsize, ih hn]
  | atomic body ih =>
    funext goal s
    simp only [Node.run, ih hn]
  | ahead negated body ih =>
    funext goal s
    simp only [Node.run, ih hn]
  | behind negated width body ih =>
    funext goal s
    simp only [Node.run, ih hn]
  | whether index yes no ihy ihn =>
    funext goal s
    simp only [Node.run, ihy hn.1, ihn hn.2]

/-- Both texts are matched with the same groups, or none is. -/
theorem fullMatch_eq {n : Node} (hn : n.IgnoresCase) : n.fullMatch t = n.fullMatch u := by
  rw [Node.fullMatch, Node.fullMatch, h.run_eq hn, h.size_eq]

end SameLetters

end UrlRouting.Expression
