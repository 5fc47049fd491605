import Mathlib.Algebra.Group.Nat.Defs
import UrlRouting.Number.Binary64

/-! Which numbers are whole, and that a number in its one form is determined by its value. -/
namespace UrlRouting.Binary64

variable {x y : Binary64} {n : Int}

/-- The one form of a number: its mantissa has 53 binary digits, or fewer and the least exponent. -/
def IsNormal : Binary64 → Prop
  | finite _ m e => m < 2 ^ 53 ∧ leastExponent ≤ e ∧ (2 ^ 52 ≤ m ∨ e = leastExponent)
  | _ => True

/-- The whole number that it is, if it is one. -/
def whole? : Binary64 → Option Int
  | finite negative m e =>
    if 2 ^ (-e).toNat ∣ m * 2 ^ e.toNat then
      let size : Nat := m * 2 ^ e.toNat / 2 ^ (-e).toNat
      some (if negative then -size else size)
    else none
  | _ => none

/-- One of the two powers of two is trivial. -/
theorem size_iff {m size : Nat} {e : Int} :
    (if 0 ≤ e then m * Nat.pow 2 e.toNat == size else m == size * Nat.pow 2 (-e).toNat) = true ↔
      m * 2 ^ e.toNat = size * 2 ^ (-e).toNat := by
  split
  · next he =>
    have hzero : (-e).toNat = 0 := by omega
    rw [hzero, beq_iff_eq, Nat.pow_zero, Nat.mul_one]
    rfl
  · next he =>
    have hzero : e.toNat = 0 := by omega
    rw [hzero, beq_iff_eq, Nat.pow_zero, Nat.mul_one]
    rfl

theorem whole?_eq_some {negative : Bool} {m : Nat} {e : Int} :
    (finite negative m e).whole? = some n ↔ m * 2 ^ e.toNat = n.natAbs * 2 ^ (-e).toNat ∧
      n = if negative then -(n.natAbs : Int) else n.natAbs := by
  have hpos : 0 < 2 ^ (-e).toNat := Nat.two_pow_pos _
  rw [whole?]
  constructor
  · intro h
    split at h
    · next hdvd =>
      obtain ⟨size, hsize⟩ := hdvd
      rw [hsize, Nat.mul_div_cancel_left _ hpos] at h
      have hn : n.natAbs = size := by
        have hvalue := Option.some.inj h
        split at hvalue <;> omega
      rw [hn, Nat.mul_comm size, hsize]
      exact ⟨rfl, (Option.some.inj h).symm⟩
    · cases h
  · rintro ⟨hsize, hn⟩
    rw [if_pos ⟨n.natAbs, by rw [hsize, Nat.mul_comm]⟩, hsize, Nat.mul_div_cancel _ hpos]
    exact congrArg some hn.symm

theorem signed_iff {negative : Bool} (hn : n ≠ 0) :
    (n = if negative then -(n.natAbs : Int) else n.natAbs) ↔ negative = decide (n < 0) := by
  cases negative with
  | true =>
    rw [if_pos rfl, eq_comm (b := decide (n < 0)), decide_eq_true_iff]
    omega
  | false =>
    rw [if_neg Bool.false_ne_true, eq_comm (b := decide (n < 0)), decide_eq_false_iff_not]
    omega

theorem equalsInt_iff : x.equalsInt n = true ↔ x.whole? = some n := by
  cases x with
  | nan | infinity => simp [equalsInt, whole?]
  | finite negative m e =>
    have hpos : 0 < 2 ^ e.toNat := Nat.two_pow_pos _
    rw [whole?_eq_some, equalsInt]
    simp only [Bool.or_eq_true, Bool.and_eq_true, size_iff, beq_iff_eq]
    by_cases hn : n = 0
    · subst hn
      have hzero : (0 : Int) = if negative then -((0 : Int).natAbs : Int)
          else (0 : Int).natAbs := by
        split <;> rfl
      rw [Int.natAbs_zero, Nat.zero_mul, Nat.mul_eq_zero]
      constructor
      · rintro (⟨hm, _⟩ | ⟨_, hm⟩)
        · exact ⟨.inl hm, hzero⟩
        · exact ⟨hm, hzero⟩
      · rintro ⟨hm, _⟩
        exact .inl ⟨hm.resolve_right (Nat.ne_of_gt hpos), rfl⟩
    · rw [signed_iff hn, and_comm]
      constructor
      · rintro (⟨hzero, _⟩ | h)
        · exact absurd (Int.natAbs_eq_zero.1 hzero) hn
        · exact h.symm
      · exact fun h => .inr h.symm

/-- Numbers of one size are the same in their one form. -/
theorem eq_of_size_eq {m n k l : Nat} {e f : Int} (hm : m < 2 ^ 53) (he : leastExponent ≤ e)
    (hn : 2 ^ 52 ≤ n ∨ f = leastExponent) (hkl : f - e = (l : Int) - k) (hle : k ≤ l)
    (h : m * 2 ^ k = n * 2 ^ l) : m = n ∧ e = f := by
  obtain ⟨d, rfl⟩ := Nat.exists_eq_add_of_le hle
  have hsize : m = n * 2 ^ d := by
    rw [Nat.add_comm k d, Nat.pow_add, ← Nat.mul_assoc] at h
    exact Nat.eq_of_mul_eq_mul_right (Nat.two_pow_pos k) h
  cases d with
  | zero => exact ⟨by simpa using hsize, by omega⟩
  | succ d =>
    -- the greater exponent is not the least one, so that mantissa is full and the other too large
    have hlarge : 2 ^ 52 ≤ n := hn.resolve_right (by omega)
    have htwo : 2 ≤ 2 ^ (d + 1) := by
      rw [Nat.pow_succ]
      have := Nat.two_pow_pos d
      omega
    have := Nat.mul_le_mul hlarge htwo
    omega

theorem eq_of_whole?_eq (hx : x.IsNormal) (hy : y.IsNormal) (hn : n ≠ 0) (h : x.whole? = some n)
    (h' : y.whole? = some n) : x = y := by
  cases x with
  | nan | infinity => cases h
  | finite a m e =>
  cases y with
  | nan | infinity => cases h'
  | finite b m' f =>
    obtain ⟨hm, he, hm'⟩ := hx
    obtain ⟨hk, hf, hk'⟩ := hy
    rw [whole?_eq_some] at h h'
    have hsign : a = b := ((signed_iff hn).1 h.2).trans ((signed_iff hn).1 h'.2).symm
    have hsize : m * 2 ^ (e.toNat + (-f).toNat) = m' * 2 ^ (f.toNat + (-e).toNat) := by
      rw [Nat.pow_add, Nat.pow_add, ← Nat.mul_assoc, ← Nat.mul_assoc, h.1, h'.1]
      exact Nat.mul_right_comm _ _ _
    rcases Nat.le_total (e.toNat + (-f).toNat) (f.toNat + (-e).toNat) with hle | hle
    · obtain ⟨rfl, rfl⟩ := eq_of_size_eq hm he hk' (by omega) hle hsize
      rw [hsign]
    · obtain ⟨rfl, rfl⟩ := eq_of_size_eq hk hf hm' (by omega) hle hsize.symm
      rw [hsign]

theorem whole?_eq_zero {negative : Bool} {m : Nat} {e : Int} :
    (finite negative m e).whole? = some 0 ↔ m = 0 := by
  rw [whole?_eq_some, Int.natAbs_zero, Nat.zero_mul, Nat.mul_eq_zero]
  simp

/-- A whole number equals the numbers that are the same whole number. -/
theorem equal_iff_of_whole? (hx : x.IsNormal) (hy : y.IsNormal) (h : x.whole? = some n) :
    x.equal y = true ↔ y.whole? = some n := by
  cases x with
  | nan | infinity => cases h
  | finite a m e =>
  cases y with
  | nan | infinity => simp [equal, whole?]
  | finite b m' f =>
    rw [equal]
    by_cases hn : n = 0
    · subst hn
      rw [whole?_eq_zero] at h ⊢
      subst h
      simp only [beq_self_eq_true, Bool.true_and, Bool.or_eq_true, Bool.and_eq_true, beq_iff_eq]
      exact ⟨fun hsame => hsame.elim id fun hsame => hsame.1.2.symm, Or.inl⟩
    · have hm : m ≠ 0 := fun hzero => hn (Option.some.inj (h.symm.trans (whole?_eq_zero.2 hzero)))
      constructor
      · intro hsame
        simp only [Bool.or_eq_true, Bool.and_eq_true, beq_iff_eq, hm, false_and, false_or] at hsame
        obtain ⟨⟨rfl, rfl⟩, rfl⟩ := hsame
        exact h
      · intro h'
        have hsame := eq_of_whole?_eq hx hy hn h h'
        simp only [finite.injEq] at hsame
        simp [hsame]

/-- Any other number equals itself only. -/
theorem equal_iff_of_not_whole (hnan : x.isNan = false) (h : x.whole? = none) :
    x.equal y = true ↔ x = y := by
  cases x with
  | nan => cases hnan
  | infinity a => cases y <;> simp [equal]
  | finite a m e =>
    have hm : m ≠ 0 := by
      rintro rfl
      rw [whole?_eq_zero.2 rfl] at h
      cases h
    cases y <;> simp [equal, hm, and_assoc]

end UrlRouting.Binary64
