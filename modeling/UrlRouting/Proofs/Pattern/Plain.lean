import Mathlib.Data.List.Forall2
import UrlRouting.Proofs.Pattern.Ending
import UrlRouting.Proofs.Pattern.Reading

/-! Plain patterns: no constraint other than digits or word characters. Each of their segments takes
one piece of a path in one way only. -/
namespace UrlRouting

open Expression Expression.Reading

variable {s : Segment} {w rest : List Char} {text : Subject} {k : Nat}

namespace Segment

/-- The segment is a literal, a placeholder, or constrained to digits or to word characters. -/
def IsPlain (s : Segment) : Prop :=
  s.kind = .constrained → s.expression = "\\d+" ∨ s.expression = "\\w+"

/-- The category of characters that a constrained segment is made of. -/
def category (s : Segment) : Category :=
  if s.expression = "\\d+" then .digit else .word

/-- A piece of a path fits the segment. -/
def Fits (s : Segment) (w : List Char) : Prop :=
  match s.kind with
  | .exact => w = s.data.toList
  | .placeholder => w ≠ [] ∧ '/' ∉ w
  | .constrained => w ≠ [] ∧ ∀ c ∈ w, s.category.holds false c.toNat

/-- The test of the characters that fill a named segment. -/
def test (s : Segment) : CharTest :=
  match s.kind with
  | .constrained => .oneOf [.category s.category false false] false .exact
  | _ => .literal 47 true .exact

theorem kind_of_named (h : s.isNamed) : s.kind = .placeholder ∨ s.kind = .constrained := by
  cases hk : s.kind <;> simp_all [isNamed]

theorem kind_of_not_named (h : s.isNamed = false) : s.kind = .exact := by
  cases hk : s.kind <;> simp_all [isNamed]

theorem accepts_test_constrained (hk : s.kind = .constrained) (c : Char) :
    s.test.accepts c = s.category.holds false c.toNat := by
  simp [test, hk, CharTest.accepts, ClassItem.accepts, Folding.apply]

theorem accepts_test_placeholder (hk : s.kind = .placeholder) (c : Char) :
    s.test.accepts c = true ↔ c ≠ '/' := by
  have hc : s.test.accepts c = !(CharTest.literal ('/').toNat false .exact).accepts c := by
    simp only [test, hk]
    change (Folding.exact.same c.toNat 47 != true) = !(Folding.exact.same c.toNat 47 != false)
    cases Folding.exact.same c.toNat 47 <;> rfl
  rw [hc, accepts_literal]
  simp

theorem test_slash (h : s.isNamed) : s.test.accepts '/' = false := by
  rcases kind_of_named h with hk | hk
  · have := accepts_test_placeholder hk '/'
    simpa using this
  · rw [accepts_test_constrained hk, category]
    split <;> decide

/-- A named segment takes what its test accepts, character by character. -/
theorem fits_iff (h : s.isNamed) : s.Fits w ↔ w ≠ [] ∧ ∀ c ∈ w, s.test.accepts c := by
  rcases kind_of_named h with hk | hk
  · simp only [Fits, hk, accepts_test_placeholder hk]
    refine and_congr_right fun _ => ⟨fun hw c hc => ?_, fun hw hmem => hw '/' hmem rfl⟩
    rintro rfl
    exact hw hc
  · simp only [Fits, hk, accepts_test_constrained hk]

theorem fits_exact (h : s.isNamed = false) : s.Fits w ↔ w = s.data.toList := by
  simp only [Fits, kind_of_not_named h]

theorem not_mem_of_fits (hw : s.Written) (h : s.Fits w) : '/' ∉ w := by
  cases hn : s.isNamed with
  | true =>
    intro hmem
    have := ((fits_iff hn).1 h).2 '/' hmem
    rw [test_slash hn] at this
    cases this
  | false =>
    rw [fits_exact hn] at h
    subst h
    cases hw with
    | exact hslash => simpa [exact] using hslash
    | placeholder => cases hn
    | constrained => cases hn

/-! ### Reading -/

/-- The repetition of a test, as it is read by itself. -/
def repetition (length : Nat) (test : CharTest) : Reading :=
  ⟨⟨length, []⟩, .empty, [],
    ⟨.whole, 0, .initial false, [], [.piece ⟨.many 1 none .greedy test, .repetition⟩]⟩, []⟩

theorem alone_anything : Alone false anything.toList (repetition 5 (.literal 47 true .exact)) where
  settled := by simp [anything, tokens, Source.Settled]
  ran := by cbv
  closed := rfl
  unnumbered := by cbv

theorem alone_digits : Alone false "\\d+".toList
    (repetition 3 (.oneOf [.category .digit false false] false .exact)) where
  settled := by simp [tokens, Source.Settled]
  ran := by cbv
  closed := rfl
  unnumbered := by cbv

theorem alone_words : Alone false "\\w+".toList
    (repetition 3 (.oneOf [.category .word false false] false .exact)) where
  settled := by simp [tokens, Source.Settled]
  ran := by cbv
  closed := rfl
  unnumbered := by cbv

theorem alone_of_plain (hw : s.Written) (hp : s.IsPlain) (hn : s.isNamed) :
    ∃ length, Alone false s.expression.toList (repetition length s.test) := by
  cases hw with
  | exact => cases hn
  | placeholder name => exact ⟨5, alone_anything⟩
  | constrained h =>
    rcases hp rfl with he | he
    · refine ⟨3, ?_⟩
      simp only at he
      subst he
      exact alone_digits
    · refine ⟨3, ?_⟩
      simp only at he
      subst he
      exact alone_words

end Segment

end UrlRouting
