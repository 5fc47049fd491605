import UrlRouting.Proofs.Expression.Alongside
import UrlRouting.Proofs.Expression.LetterCase

/-! What is read in modes that ignore case takes an ASCII letter in either case for the same. -/
namespace UrlRouting.Expression

variable {mode : Mode} {n : Node} {f : Frame} {r r' : Reading} {s : Source}

theorem folding_ne (h : mode.ignoreCase = true) : mode.folding ≠ .exact := by
  unfold Mode.folding
  rw [if_pos h]
  split <;> nofun

namespace Reading

theorem ignoresCase_of_simple (h : Simple mode n) (hmode : mode.ignoreCase = true) :
    n.IgnoresCase := by
  cases h with
  | code code negated => exact ignoresCase_ofCode (folding_ne hmode) code
  | items items negated => exact ignoresCase_ofItems (folding_ne hmode) items
  | any => exact fun _ _ _ => rfl
  | exceptNewline => exact ignoresCase_exceptNewline
  | anchor => trivial
  | again => exact folding_ne hmode

/-- All open frames ignore case, and so does what they hold. -/
def IsCaseless (r : Reading) : Prop :=
  ∀ f ∈ r.frame :: r.outer, f.mode.ignoreCase = true ∧ f.Holds Node.IgnoresCase

theorem IsCaseless.body (h : r.IsCaseless) : r.frame.body.IgnoresCase := by
  obtain ⟨hmode, hholds⟩ := h r.frame List.mem_cons_self
  exact hholds.body hereditary_ignoresCase (ignoresCase_ofItems (folding_ne hmode))

theorem isCaseless_start : (start true s).IsCaseless :=
  List.forall_mem_singleton.2 ⟨rfl, Frame.holds_opened (by simp)⟩

theorem IsCaseless.does (hr : r.IsCaseless) (h : Does r r')
    (hmode : r'.frame.mode.ignoreCase = true) :
    r'.IsCaseless := by
  obtain ⟨hframe, houter⟩ := List.forall_mem_cons.1 hr
  obtain ⟨hcase, hholds⟩ := hframe
  cases h with
  | passes => exact hr
  | appends role s hn =>
    refine List.forall_mem_cons.2 ⟨⟨hcase, hholds.append ?_⟩, houter⟩
    exact List.forall_mem_singleton.2 (ignoresCase_of_simple hn hcase)
  | repeats least most greed s hm =>
    have hmembers := hholds.members
    rw [hm] at hmembers
    obtain ⟨hlast, hformer⟩ := List.forall_mem_cons.1 hmembers
    refine List.forall_mem_cons.2 ⟨⟨hcase, hholds.first, hholds.branches, ?_⟩, houter⟩
    exact List.forall_mem_cons.2
      ⟨List.forall_mem_singleton.2 (hereditary_ignoresCase.repeated hlast), hformer⟩
  | opens _ _ _ _ _ hkind => exact List.forall_mem_cons.2 ⟨⟨hmode, Frame.holds_opened hkind⟩, hr⟩
  | closes s ho =>
    rw [ho] at houter
    obtain ⟨⟨hcase', hholds'⟩, houter⟩ := List.forall_mem_cons.1 houter
    refine List.forall_mem_cons.2 ⟨⟨hcase', hholds'.append ?_⟩, houter⟩
    -- What the group holds was read in its own mode, whatever the mode below is.
    exact hholds.closed hereditary_ignoresCase (ignoresCase_ofItems (folding_ne hcase)) fun _ _ =>
      hr.body
  | branches => exact List.forall_mem_cons.2 ⟨⟨hcase, hholds.branch⟩, houter⟩
  | firstBranch => exact List.forall_mem_cons.2 ⟨⟨hcase, hholds.firstBranch⟩, houter⟩

theorem IsCaseless.comes (hr : r.IsCaseless) (h : r.Comes r') : r'.IsCaseless := by
  induction h with
  | refl => exact hr
  | tail _ hstep ih =>
    obtain ⟨⟨x, hx⟩, hmode⟩ := hstep
    exact ih.does (does_step hx) hmode

end Reading

end UrlRouting.Expression
