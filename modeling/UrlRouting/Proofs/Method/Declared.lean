import Mathlib.Data.Nat.Bitwise
import UrlRouting.Method.Reading
import UrlRouting.Proofs.Expression.Source

/-! Which bits the sets of methods have that values stand for. Names and numbers are held to the
declared methods, and flags are taken as they come. -/
namespace UrlRouting

open Expression

namespace MethodSet

variable {a b set mask : MethodSet} {v : Value} {members : List Value}

/-- All bits are of declared methods. -/
def isDeclared (set : MethodSet) : Bool :=
  set &&& any == set

theorem isDeclared_or (ha : isDeclared a = true) (hb : isDeclared b = true) :
    isDeclared (a ||| b) = true := by
  rw [isDeclared, beq_iff_eq] at *
  rw [Nat.and_or_distrib_right, ha, hb]

theorem isDeclared_of_le (h : set ≤ any) : isDeclared set = true := by
  have hmod : set &&& (2 ^ 9 - 1) = set % 2 ^ 9 := Nat.and_two_pow_sub_one_eq_mod set 9
  rw [isDeclared, beq_iff_eq]
  exact hmod.trans (Nat.mod_eq_of_lt (Nat.lt_succ_of_le h))

theorem isDeclared_mask (m : Method) : isDeclared m.mask = true := by
  cases m <;> rfl

theorem meets_mask_iff {m asked : Method} : meets m.mask asked.mask = true ↔ asked = m := by
  cases m <;> cases asked <;> decide

/-- A declared method at least is in the set. -/
def isSelectable (set : MethodSet) : Bool :=
  set != 0 && isDeclared set

/-- A set with a declared method has one in common with all of them. -/
theorem meets_any (h : isSelectable set = true) : meets set any = true := by
  obtain ⟨hne, hdeclared⟩ := Bool.and_eq_true_iff.1 h
  rw [meets, beq_iff_eq.1 hdeclared]
  exact hne

end MethodSet

namespace Value

/-- Flags are of declared methods. -/
def isDeclaredFlag : Value → Bool
  | .methods mask => MethodSet.isDeclared mask
  | _ => true

/-- Flags that the value is or has among its members are of declared methods, and those that it is
are not empty. -/
def hasDeclaredFlags : Value → Bool
  | .methods mask => MethodSet.isSelectable mask
  | v => (v.items?.getD []).all isDeclaredFlag

end Value

namespace MethodSet

variable {a b set mask : MethodSet} {v : Value} {members : List Value}

theorem isDeclared_ofMember (hv : v.isDeclaredFlag = true) (h : ofMember v = .ok set) :
    isDeclared set = true := by
  unfold ofMember at h
  split at h
  · cases h
    exact hv
  · obtain ⟨m, -, rfl⟩ := map_eq_ok.1 h
    exact isDeclared_mask m

/-- The members of a list only add declared methods to a set. -/
theorem isDeclared_foldlM (hmembers : members.all Value.isDeclaredFlag = true)
    (ha : isDeclared a = true)
    (h : members.foldlM (fun set v => (set ||| ·) <$> ofMember v) a = .ok set) :
    isDeclared set = true := by
  induction members generalizing a with
  | nil =>
    cases h
    exact ha
  | cons v members ih =>
    obtain ⟨hv, hmembers⟩ := Bool.and_eq_true_iff.1 hmembers
    rw [List.foldlM_cons] at h
    obtain ⟨next, hnext, h⟩ := bind_eq_ok.1 h
    obtain ⟨b, hb, rfl⟩ := map_eq_ok.1 hnext
    exact ih hmembers (isDeclared_or ha (isDeclared_ofMember hv hb)) h

theorem isSelectable_ofMembers (hmembers : members.all Value.isDeclaredFlag = true)
    (h : ofMembers members = .ok set) : isSelectable set = true := by
  obtain ⟨all, hall, h⟩ := bind_eq_ok.1 h
  split at h
  · cases h
  · next hne =>
    cases h
    exact Bool.and_eq_true_iff.2 ⟨bne_iff_ne.2 hne, isDeclared_foldlM hmembers rfl hall⟩

theorem isSelectable_ofMask {n : Int} (h : ofMask v n = .ok set) : isSelectable set = true := by
  unfold ofMask at h
  split at h
  · next hn =>
    cases h
    obtain ⟨hpos, hle⟩ := Bool.and_eq_true_iff.1 hn
    have hpos : 0 < n := of_decide_eq_true hpos
    have hle : n ≤ (any : Nat) := of_decide_eq_true hle
    have hne : n.toNat ≠ 0 := Nat.ne_of_gt (Int.lt_toNat.2 hpos)
    exact Bool.and_eq_true_iff.2 ⟨bne_iff_ne.2 hne, isDeclared_of_le (Int.toNat_le.2 hle)⟩
  · obtain ⟨_, _, h⟩ := bind_eq_ok.1 h
    cases h

/-- What a text lists are names and no flags. -/
theorem all_listed (s : String) : (listed s).all Value.isDeclaredFlag = true := by
  simp [listed, Value.isDeclaredFlag]

/-- A value that is read as a set gives a set with a declared method, and nothing else, where the
flags that it has are declared. -/
theorem isSelectable_ofValue (hv : v.hasDeclaredFlags = true) (h : ofValue v = .ok (some set)) :
    isSelectable set = true := by
  unfold ofValue at h
  split at h
  · cases h
  · cases h
    exact hv
  · obtain ⟨_, hset, heq⟩ := map_eq_ok.1 h
    cases heq
    exact isSelectable_ofMembers (all_listed _) hset
  · next hnone hflags htext =>
    have hmembers : (v.items?.getD []).all Value.isDeclaredFlag = true := by
      cases v with
      | methods mask => exact (hflags mask rfl).elim
      | _ => exact hv
    split at h
    · obtain ⟨_, hset, heq⟩ := map_eq_ok.1 h
      cases heq
      exact isSelectable_ofMask hset
    · split at h
      · next members hitems =>
        rw [hitems] at hmembers
        obtain ⟨_, hset, heq⟩ := map_eq_ok.1 h
        cases heq
        exact isSelectable_ofMembers hmembers hset
      · cases h

end MethodSet

end UrlRouting
