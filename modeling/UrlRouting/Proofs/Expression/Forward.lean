import UrlRouting.Proofs.Expression.Isolation

/-! Expressions that match a part at the end of a text just as they match it by itself. They may
look at what comes, but not at what has been before. -/
namespace UrlRouting.Expression

variable {n : Node} {filled : Bool} {text : Subject} {u t : State} {part : List Char} {d : Nat}
  {base : List (Mark × Nat)}

/-- The same with `k` characters more in front. -/
def State.after (k : Nat) (u : State) : State :=
  ⟨k + u.pos, u.marks.map fun e => (e.1, k + e.2)⟩

/-- On its way through `part` the expression does not look at what is before: after a slash,
whatever is in front of that, it does what it does at the start. -/
def Node.NeverLooksBack (n : Node) (part : List Char) : Prop :=
  ∀ (front : List Char) (goal : Goal),
    n.run (front ++ '/' :: part).toArray goal ⟨front.length + 1, []⟩ =
      n.run part.toArray (fun u => goal (u.after (front.length + 1))) .start

/-- The expression has nothing in it that could look at what is before. It matters for some whether
the text is filled. -/
def Node.isForward (filled : Bool) : Node → Bool
  | .empty | .char _ | .again .. | .many .. => true
  | .anchor .textStart | .anchor .lineStart => false
  | .anchor (.noWordEdge _) => filled
  | .anchor _ => true
  | .seq a b | .alt a b | .whether _ a b => a.isForward filled && b.isForward filled
  | .group _ body | .loop _ _ _ body | .atomic body | .ahead _ body => body.isForward filled
  | .behind _ width body => body.isForward filled && body.isSlashless && body.width [] == width

theorem or_of_or_and {p : Prop} {a b : Bool} (h : p ∨ (a && b) = true) :
    (p ∨ a = true) ∧ (p ∨ b = true) := by
  rwa [Bool.and_eq_true_iff, or_and_left] at h

namespace Window

variable {W : Window} (hfinal : W.first + W.part.size = W.text.size)
include hfinal

/-- Nothing leads out of a part at the end. -/
theorem agrees_of_final
    (h : W.Follows W.inside ((n.renumber W.shift).ways W.text) (n.ways W.part)) :
    W.Agrees ((n.renumber W.shift).ways W.text) (n.ways W.part) := by
  intro u hu
  rw [List.filter_true, ← h u hu, List.filter_eq_self.2]
  intro t ht
  have hin := (onward_ways (P := fun _ => True) _ (fun _ _ => trivial) ht).inside (within_lift hu)
  exact decide_eq_true (hfinal ▸ hin.pos)

theorem getElem?_final {p : Nat} (hp : p ≤ W.part.size) : W.text[W.first + p]? = W.part[p]? := by
  rcases Nat.lt_or_eq_of_le hp with hlt | rfl
  · exact getElem?_part hlt
  · rw [hfinal, Array.getElem?_size, Array.getElem?_size]

theorem holds_final {a : Anchor} {p : Nat} (ha : (Node.anchor a).isForward filled = true)
    (hfilled : filled = true → W.part ≠ #[]) (hp : p ≤ W.part.size) :
    a.holds W.text (W.first + p) = a.holds W.part p := by
  have hend : (W.first + p == W.text.size) = (p == W.part.size) := by
    rw [Bool.eq_iff_iff, beq_iff_eq, beq_iff_eq]
    omega
  have hlast : (W.first + p + 1 == W.text.size) = (p + 1 == W.part.size) := by
    rw [Bool.eq_iff_iff, beq_iff_eq, beq_iff_eq]
    omega
  cases a with
  | textStart | lineStart => cases ha
  | lastLineEnd => rw [Anchor.holds, Anchor.holds, hend, hlast, getElem?_final hfinal hp]
  | lineEnd => rw [Anchor.holds, Anchor.holds, hend, getElem?_final hfinal hp]
  | textEnd => exact hend
  | wordEdge => exact holds_wordEdge hp
  | noWordEdge => exact holds_noWordEdge hp (hfilled ha)

/-- If nothing is before the part, it is the text. -/
theorem part_eq_text (hfirst : W.first = 0) : W.part = W.text := by
  have hsize : W.part.size = W.text.size := by
    rw [← hfinal, hfirst, Nat.zero_add]
  refine Array.ext_getElem? fun p => ?_
  by_cases hp : p ≤ W.part.size
  · rw [← getElem?_final hfinal hp, hfirst, Nat.zero_add]
  · rw [Array.getElem?_eq_none (Nat.le_of_not_le hp),
      Array.getElem?_eq_none (hsize ▸ Nat.le_of_not_le hp)]

theorem agrees_many_final {least : Nat} {most : Option Nat} {greed : Greed} {test : CharTest} :
    W.Agrees ((Node.many least most greed test).ways W.text)
      ((Node.many least most greed test).ways W.part) := by
  intro u hu
  rw [List.filter_true]
  refine manyWays_lift hu.pos ?_
  by_contra hlong
  obtain ⟨c, hc, _⟩ := runLength_accepts (Nat.lt_of_not_le hlong)
  rw [Nat.add_assoc, Nat.add_sub_cancel' hu.pos, hfinal, Array.getElem?_size] at hc
  cases hc

/-- The ways through the end of a text are those through that part alone. -/
theorem forward_ways (hfilled : filled = true → W.part ≠ #[])
    (hn : W.first = 0 ∨ n.isForward filled = true) :
    W.Agrees ((n.renumber W.shift).ways W.text) (n.ways W.part) := by
  induction n with
  | empty => exact agrees_of_final hfinal (follows_ways (n := .empty) hfilled rfl)
  | char => exact agrees_of_final (n := .char _) hfinal follows_char
  | anchor a =>
    refine agrees_of_final (n := .anchor a) hfinal (follows_anchor fun p hp => ?_)
    rcases hn with hfirst | hn
    · rw [part_eq_text hfinal hfirst, hfirst, Nat.zero_add]
    · exact holds_final hfinal hn hfilled hp
  | again => exact agrees_of_final (n := .again _ _) hfinal follows_again
  | seq a b iha ihb =>
    obtain ⟨ha, hb⟩ := or_of_or_and hn
    exact (iha ha).seq sieve_true (ihb hb)
  | alt a b iha ihb =>
    obtain ⟨ha, hb⟩ := or_of_or_and hn
    exact (iha ha).alt (ihb hb)
  | group i body ih => exact (ih hn).group fun _ _ => rfl
  | many => exact agrees_many_final hfinal
  | loop least most greed body ih => exact (ih hn).loopWays (goes_ways body)
  | atomic body ih => exact (ih hn).atomic
  | ahead negated body ih => exact (ih hn).ahead
  | behind negated width body ih =>
    rcases hn with hfirst | hn
    · refine (ih (.inl hfirst)).behind fun u => ?_
      rw [found, pos_lift, hfirst, Nat.zero_add]
      split
      · next hle => rw [lift_back hle]
      · rfl
    · obtain ⟨hn, hwidth⟩ := Bool.and_eq_true_iff.1 hn
      obtain ⟨hbody, hslashless⟩ := Bool.and_eq_true_iff.1 hn
      exact (ih (.inr hbody)).behind (findsInside_of_slashless hslashless (beq_iff_eq.1 hwidth))
  | whether i yes no ihy ihn =>
    obtain ⟨hy, hno⟩ := or_of_or_and hn
    exact (ihy hy).whether (ihn hno)

end Window

/-! ### After a slash -/

/-- What stands after a slash and goes up to the end, with no groups in front. -/
def afterSlash (front part : List Char) : Window where
  text := (front ++ '/' :: part).toArray
  part := part.toArray
  first := front.length + 1
  shift := 0
  base := []
  size_le := by
    simp only [List.size_toArray, List.length_append, List.length_cons]
    omega
  same p _ := by
    rw [List.getElem?_toArray, List.getElem?_toArray, List.getElem?_append_right (by omega)]
    rw [show front.length + 1 + p - front.length = p + 1 by omega, List.getElem?_cons_succ]
  opens := by simp
  ends := by
    left
    simp only [List.size_toArray, List.length_append, List.length_cons]
    omega
  former := by simp
  within := by simp

theorem final_afterSlash (front part : List Char) :
    (afterSlash front part).first + (afterSlash front part).part.size =
      (afterSlash front part).text.size := by
  simp only [afterSlash, List.size_toArray, List.length_append, List.length_cons]
  omega

theorem lift_afterSlash {front : List Char} :
    (afterSlash front part).lift = State.after (front.length + 1) := by
  have hmark : ∀ m : Mark, m.renumber 0 = m := fun m => by cases m <;> simp [Mark.renumber]
  funext u
  simp [Window.lift, afterSlash, State.after, hmark]

theorem Node.neverLooksBack_of_isForward (hn : n.isForward (!part.isEmpty) = true) :
    n.NeverLooksBack part := by
  intro front goal
  have hways : n.ways (front ++ '/' :: part).toArray ⟨front.length + 1, []⟩ =
      (n.ways part.toArray .start).map (State.after (front.length + 1)) := by
    have h := (Window.forward_ways (final_afterSlash front part) (by simp [afterSlash])
      (.inr hn)).eq within_start
    rwa [lift_afterSlash, afterSlash, Node.renumber_none] at h
  rw [run_eq, run_eq, Steps.run, Steps.run, hways, List.findSome?_map]
  rfl

/-- What is matched alone is matched after a slash, and up to the end. -/
theorem Node.NeverLooksBack.exists_way {front : List Char} (hn : n.NeverLooksBack part)
    (htext : text = (front ++ '/' :: part).toArray) (h : (n.fullMatch part.toArray).isSome) :
    ∃ t ∈ n.ways text ⟨front.length + 1, []⟩, t.pos = text.size := by
  obtain ⟨u, h⟩ := Option.isSome_iff_exists.1 h
  obtain ⟨hu, hend⟩ := mem_ways_of_fullMatch h
  have hpos : (u.after (front.length + 1)).pos = text.size := by
    simp only [State.after, hend, htext, List.size_toArray, List.length_append, List.length_cons]
    omega
  have hrun : (n.run text (fun t => if t.pos = text.size then some t else none)
      ⟨front.length + 1, []⟩).isSome := by
    rw [htext, hn front, ← htext]
    exact isSome_run hu (by rw [if_pos hpos]; rfl)
  obtain ⟨t, ht⟩ := Option.isSome_iff_exists.1 hrun
  obtain ⟨v, hv, hgoal⟩ := Expression.exists_way ht
  refine ⟨v, hv, ?_⟩
  by_contra hne
  rw [if_neg hne] at hgoal
  cases hgoal

/-! ### Groups in front -/

/-- The whole of a text, with groups in front. -/
def whole (hformer : ∀ e ∈ base, 1 ≤ e.1.index ∧ e.1.index ≤ d)
    (hwithin : ∀ e ∈ base, e.2 ≤ text.size) :
    Window where
  text := text
  part := text
  first := 0
  shift := d
  base := base
  size_le := Nat.le_of_eq (Nat.zero_add _)
  same p _ := by rw [Nat.zero_add]
  opens := .inl rfl
  ends := .inl (Nat.zero_add _)
  former := hformer
  within := hwithin

/-- More groups in front do not change where the ways lead. -/
theorem exists_way_renumber (hformer : ∀ e ∈ base, 1 ≤ e.1.index ∧ e.1.index ≤ d)
    (hwithin : ∀ e ∈ base, e.2 ≤ text.size) {p : Nat} (hp : p ≤ text.size)
    (ht : t ∈ n.ways text ⟨p, []⟩) : ∃ u ∈ (n.renumber d).ways text ⟨p, base⟩, u.pos = t.pos := by
  let W := whole hformer hwithin
  have hfinal : W.first + W.part.size = W.text.size := Nat.zero_add _
  have hfilled : false = true → W.part ≠ #[] := nofun
  have hways : (n.renumber d).ways text (W.lift ⟨p, []⟩) = (n.ways text ⟨p, []⟩).map W.lift :=
    (Window.forward_ways hfinal hfilled (.inl rfl)).eq ⟨hp, by simp⟩
  have hlift : W.lift ⟨p, []⟩ = ⟨p, base⟩ := by simp [W, Window.lift, whole]
  rw [hlift] at hways
  exact ⟨W.lift t, hways ▸ List.mem_map_of_mem ht, Nat.zero_add _⟩

end UrlRouting.Expression
