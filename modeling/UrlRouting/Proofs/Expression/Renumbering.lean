import UrlRouting.Expression.Reading

/-! Groups with other numbers. Where more groups have been opened in front, an expression reads the
same but for the numbers of its groups. -/
namespace UrlRouting.Expression

/-- The number of a group with `d` more groups in front. Zero is the number of no group. -/
def renumber (d : Nat) : Nat → Nat
  | 0 => 0
  | i + 1 => i + 1 + d

variable {d i j : Nat}

theorem renumber_of_pos (h : 1 ≤ i) : renumber d i = i + d := by
  obtain ⟨i, rfl⟩ : ∃ i', i = i' + 1 := ⟨i - 1, by omega⟩
  rfl

@[simp] theorem renumber_zero (i : Nat) : renumber 0 i = i := by
  cases i <;> rfl

@[simp] theorem renumber_le_iff : renumber d i ≤ renumber d j ↔ i ≤ j := by
  cases i <;> cases j <;> simp [renumber]

@[simp] theorem renumber_inj : renumber d i = renumber d j ↔ i = j := by
  cases i <;> cases j <;> simp [renumber]
  omega

theorem renumber_ne (h : 1 ≤ j) (hj : j ≤ d) : renumber d i ≠ j := by
  cases i with
  | zero => simp [renumber]; omega
  | succ i => simp [renumber]; omega

namespace Node

def renumber (d : Nat) : Node → Node
  | empty => empty
  | char t => char t
  | anchor a => anchor a
  | again i f => again (Expression.renumber d i) f
  | seq a b => seq (a.renumber d) (b.renumber d)
  | alt a b => alt (a.renumber d) (b.renumber d)
  | group i body => group (Expression.renumber d i) (body.renumber d)
  | many least most greed t => many least most greed t
  | loop least most greed body => loop least most greed (body.renumber d)
  | atomic body => atomic (body.renumber d)
  | ahead negated body => ahead negated (body.renumber d)
  | behind negated width body => behind negated width (body.renumber d)
  | whether i yes no => whether (Expression.renumber d i) (yes.renumber d) (no.renumber d)

theorem renumber_injective : Function.Injective (renumber d) := by
  intro m n h
  induction m generalizing n with
  | empty | char | anchor | many => cases n <;> simp_all [renumber]
  | again => cases n <;> simp_all [renumber]
  | group _ _ ih | loop _ _ _ _ ih | atomic _ ih | ahead _ _ ih | behind _ _ _ ih =>
    cases n <;> simp_all [renumber]
    exact ih (by simp_all)
  | seq _ _ iha ihb | alt _ _ iha ihb | whether _ _ _ iha ihb =>
    cases n <;> simp_all [renumber]
    exact ⟨iha (by simp_all), ihb (by simp_all)⟩

@[simp] theorem renumber_none (n : Node) : n.renumber 0 = n := by
  induction n <;> simp_all [renumber]

theorem ofList_map_renumber (ns : List Node) :
    ofList (ns.map (renumber d)) = (ofList ns).renumber d := by
  induction ns with
  | nil => rfl
  | cons n ns ih => simp_all [ofList, renumber]

theorem anyOf_map_renumber (ns : List Node) :
    anyOf (ns.map (renumber d)) = (anyOf ns).renumber d := by
  induction ns with
  | nil => rfl
  | cons n ns ih =>
    cases ns with
    | nil => rfl
    | cons m ns => simp_all [anyOf, renumber]

/-- The widths of closed groups, in front of which there are other ones. -/
def renumberWidths (d : Nat) (widths : List (Nat × Width)) : List (Nat × Width) :=
  widths.map fun w => (Expression.renumber d w.1, w.2)

theorem lookup_renumberWidths {own former : List (Nat × Width)}
    (hf : ∀ w ∈ former, 1 ≤ w.1 ∧ w.1 ≤ d) :
    (renumberWidths d own ++ former).lookup (Expression.renumber d i) = own.lookup i := by
  induction own with
  | nil =>
    simp only [renumberWidths, List.map_nil, List.nil_append, List.lookup_nil]
    rw [List.lookup_eq_none_iff]
    intro w hw
    have := renumber_ne (i := i) (hf w hw).1 (hf w hw).2
    simpa using this
  | cons w own ih =>
    simp only [renumberWidths, List.map_cons, List.cons_append, List.lookup_cons] at ih ⊢
    rw [ih]
    have : (Expression.renumber d i == Expression.renumber d w.1) = (i == w.1) := by
      rw [Bool.eq_iff_iff]
      simp
    rw [this, List.lookup_cons]

theorem width_renumber {own former : List (Nat × Width)}
    (hf : ∀ w ∈ former, 1 ≤ w.1 ∧ w.1 ≤ d) (n : Node) :
    (n.renumber d).width (renumberWidths d own ++ former) = n.width own := by
  induction n with
  | again => simp [renumber, width, lookup_renumberWidths hf]
  | _ => simp_all [renumber, width]

end Node

/-! ### Pieces -/

namespace Piece

def renumber (d : Nat) (p : Piece) : Piece :=
  ⟨p.node.renumber d, p.role⟩

theorem renumber_injective : Function.Injective (renumber d) := by
  rintro ⟨m, _⟩ ⟨n, _⟩ h
  simp only [renumber, mk.injEq] at h ⊢
  exact ⟨Node.renumber_injective h.1, h.2⟩

@[simp] theorem renumber_none : renumber 0 = id := by
  funext p
  simp [renumber]

@[simp] theorem isShareable_renumber (p : Piece) : (p.renumber d).isShareable = p.isShareable := rfl

@[simp] theorem items?_renumber (p : Piece) : (p.renumber d).items? = p.items? := by
  obtain ⟨n, r⟩ := p
  cases n <;> rfl

theorem map_node_renumber (ps : List Piece) :
    (ps.map (renumber d)).map node = (ps.map node).map (Node.renumber d) := by
  simp [renumber]

end Piece

theorem sharedHeads_renumber (first : List Piece) (others : List (List Piece)) :
    sharedHeads (first.map (Piece.renumber d)) (others.map (List.map (Piece.renumber d))) =
      ((sharedHeads first others).1.map (Piece.renumber d),
        (sharedHeads first others).2.map (List.map (Piece.renumber d))) := by
  induction first generalizing others with
  | nil => simp [sharedHeads]
  | cons p first ih =>
    have hall : (others.map (List.map (Piece.renumber d))).all
        (·.head? == some (p.renumber d)) = others.all (·.head? == some p) := by
      rw [List.all_map]
      congr 1
      funext ps
      cases ps with
      | nil => rfl
      | cons q ps =>
        rw [Bool.eq_iff_iff]
        simp [Piece.renumber_injective.eq_iff]
    have htails : (others.map (List.map (Piece.renumber d))).map List.tail =
        (others.map List.tail).map (List.map (Piece.renumber d)) := by
      simp
    simp only [List.map_cons, sharedHeads, Piece.isShareable_renumber, hall]
    split
    · rw [htails, ih]
      rfl
    · simp

theorem onlyItems?_renumber (ps : List Piece) :
    classOf?.onlyItems? (ps.map (Piece.renumber d)) = classOf?.onlyItems? ps := by
  rcases ps with _ | ⟨p, _ | _⟩ <;> simp [classOf?.onlyItems?]

theorem classOf?_renumber (branches : List (List Piece)) :
    classOf? (branches.map (List.map (Piece.renumber d))) = classOf? branches := by
  simp only [classOf?, List.mapM_map]
  congr 2
  funext ps
  exact onlyItems?_renumber ps

theorem alternatives_renumber (f : Folding) (branches : List (List Piece)) :
    alternatives f (branches.map (List.map (Piece.renumber d))) =
      (alternatives f branches).map (Piece.renumber d) := by
  rcases branches with _ | ⟨first, _ | ⟨second, others⟩⟩
  · rfl
  · rfl
  · simp only [List.map_cons, alternatives]
    have h := sharedHeads_renumber (d := d) first (second :: others)
    simp only [List.map_cons] at h
    rw [h]
    simp only [classOf?_renumber, List.map_append, List.map_cons, List.map_nil]
    congr 2
    split
    · rfl
    · simp only [Piece.renumber, Piece.mk.injEq, and_true]
      rw [← Node.anyOf_map_renumber, List.map_map, List.map_map]
      congr 2
      funext ps
      simp only [Function.comp_apply, Piece.map_node_renumber, Node.ofList_map_renumber]

theorem Reading.repeated_renumber (least : Nat) (most : Option Nat) (greed : Greed)
    (body : List Piece) :
    repeated least most greed (body.map (Piece.renumber d)) =
      (repeated least most greed body).renumber d := by
  rcases body with _ | ⟨⟨n, _⟩, _ | ⟨q, body⟩⟩
  · rfl
  · cases n <;> rfl
  · have hrest := Node.ofList_map_renumber (d := d) ((q :: body).map Piece.node)
    simp only [← Piece.map_node_renumber, List.map_cons] at hrest
    cases n <;> simp only [repeated, List.map_cons, Piece.renumber, Node.renumber] <;>
      simp_all [Node.ofList, Node.renumber]

end UrlRouting.Expression
