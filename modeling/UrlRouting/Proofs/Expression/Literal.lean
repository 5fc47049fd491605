import Mathlib.Data.Bool.AllAny
import UrlRouting.Proofs.Expression.Sequence

/-! Escaped texts are read as the characters that they stand for. -/
namespace UrlRouting.Expression

open Source Reading

variable {ignoreCase : Bool} {c : Char} {s : List Char} {rest : List Token} {pos start : Nat}
  {g : GroupTable} {ms : List Member} {r : Reading} {t : Source}

theorem special_facts : ∀ c ∈ specialChars,
    Escape.anchor? true c = none ∧ Escape.anchor? false c = none ∧ Escape.category? c = none ∧
      c ≠ '0' ∧ c.isDigit = false ∧
      (Escape.control? c = none ∨ Escape.control? c = some c.toNat) ∧
      Text.isAsciiLetter c.toNat = false ∧ c ≠ 'x' ∧ c ≠ 'u' ∧ c ≠ 'U' ∧ c ≠ 'N' :=
  -- The list is gone through, and not all the characters that there are.
  List.all_iff_forall_prop.1 (by decide)

/-- A special character after a backslash means itself. -/
theorem read_special (h : c ∈ specialChars) (asciiOnly : Bool) :
    Escape.read g asciiOnly c start t = .ok (.code c.toNat, t) := by
  obtain ⟨htrue, hfalse, hcategory, hzero, hdigit, hcontrol, hletter, hx, hu, hU, hN⟩ :=
    special_facts c h
  have hanchor : Escape.anchor? asciiOnly c = none := by cases asciiOnly <;> assumption
  unfold Escape.read
  rcases hcontrol with hcontrol | hcontrol
  · simp [hanchor, hcategory, hzero, hdigit, hcontrol, Escape.readCode, hletter]
    rfl
  · simp [hanchor, hcategory, hcontrol]
    rfl

theorem readPlain_ordinary (h : c ∉ specialChars) :
    r.readPlain c start t = .ok (r.appendCode c.toNat t) := by
  unfold readPlain
  split <;> first | rfl | exact absurd (by decide) h

theorem step_literal (hverbose : r.frame.mode.verbose = false)
    (hsource : r.source = ⟨pos, literalToken c :: rest⟩) (hrest : Settled ⟨0, rest⟩) :
    r.step (literalToken c) = .ok (r.appendCode c.toNat ⟨pos + (literalToken c).width, rest⟩) := by
  have hskip : r.source.skip = .ok ⟨pos + (literalToken c).width, rest⟩ := by
    rw [hsource]
    exact skip_cons hrest
  by_cases h : c ∈ specialChars
  · have ht : literalToken c = .escaped c := by simp [literalToken, h]
    rw [ht] at hskip ⊢
    simp only [step, Token.isPlain, hskip, ok_bind, readEscape, read_special h]
    rfl
  · have ht : literalToken c = .plain c := by simp [literalToken, h]
    have hbar : c ≠ '|' := by
      rintro rfl
      exact h (by decide)
    have hparen : c ≠ ')' := by
      rintro rfl
      exact h (by decide)
    rw [ht] at hskip ⊢
    simp [step, Token.isPlain, hskip, ok_bind, hverbose, readPlain_ordinary h, hbar, hparen]

/-- The character as a piece of an expression. -/
def charPiece (ignoreCase : Bool) (c : Char) : Piece :=
  ⟨.char (.ofCode (Mode.initial ignoreCase).folding c.toNat false), .atom⟩

theorem reads_char (ignoreCase : Bool) (c : Char) (pos : Nat) (g : GroupTable)
    (ms : List Member) (hrest : Settled ⟨0, rest⟩) :
    ∃ pos', (top ignoreCase pos (literalToken c :: rest) g ms).Reads
      (top ignoreCase pos' rest g (.piece (charPiece ignoreCase c) :: ms)) :=
  ⟨_, reads_step rfl (step_literal rfl rfl hrest) (by simp [top])⟩

theorem settled_literal : Settled ⟨pos, literalToken c :: rest⟩ := by
  unfold literalToken Settled
  split <;> simp

theorem settled_literals (hrest : Settled ⟨0, rest⟩) :
    Settled ⟨pos, s.map literalToken ++ rest⟩ := by
  cases s with
  | nil => exact hrest
  | cons c s => exact settled_literal

theorem reads_literals (s : List Char) (pos : Nat) (ms : List Member) (hrest : Settled ⟨0, rest⟩) :
    ∃ pos', (top ignoreCase pos (s.map literalToken ++ rest) g ms).Reads
      (top ignoreCase pos' rest g
        ((s.reverse.map fun c => .piece (charPiece ignoreCase c)) ++ ms)) := by
  induction s generalizing pos ms with
  | nil => exact ⟨pos, .refl _⟩
  | cons c s ih =>
    obtain ⟨pos', hc⟩ := reads_char ignoreCase c pos g ms (settled_literals hrest)
    obtain ⟨pos'', hs⟩ := ih pos' (.piece (charPiece ignoreCase c) :: ms)
    refine ⟨pos'', hc.trans ?_⟩
    simpa using hs

end UrlRouting.Expression
