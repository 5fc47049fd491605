import UrlRouting.Proofs.Expression.Source

/-! What holds of all the pieces that have been read holds of the expression that is made of
them. -/
namespace UrlRouting.Expression

variable {P : Node → Prop} {f : Folding} {as : List Node} {ps : List Piece}
  {branches : List (List Piece)}

/-- A property that expressions have if their parts have it. Groups are not among them, since a
property may depend on their numbers. -/
structure Hereditary (P : Node → Prop) : Prop where
  empty : P .empty
  seq {a b : Node} (ha : P a) (hb : P b) : P (.seq a b)
  alt {a b : Node} (ha : P a) (hb : P b) : P (.alt a b)
  whether {index : Nat} {a b : Node} (ha : P a) (hb : P b) : P (.whether index a b)
  many {least : Nat} {most : Option Nat} {greed : Greed} {test : CharTest} (h : P (.char test)) :
    P (.many least most greed test)
  loop {least : Nat} {most : Option Nat} {greed : Greed} {a : Node} (h : P a) :
    P (.loop least most greed a)
  atomic {a : Node} (h : P a) : P (.atomic a)
  ahead {negated : Bool} {a : Node} (h : P a) : P (.ahead negated a)
  behind {negated : Bool} {width : Width} {a : Node} (h : P a) : P (.behind negated width a)

/-- The property holds of all pieces. -/
def Holds (P : Node → Prop) (ps : List Piece) : Prop :=
  ∀ p ∈ ps, P p.node

theorem holds_sharedHeads {first : List Piece} {others : List (List Piece)} (hf : Holds P first)
    (ho : ∀ ps ∈ others, Holds P ps) :
    Holds P (sharedHeads first others).1 ∧ ∀ ps ∈ (sharedHeads first others).2, Holds P ps := by
  induction first generalizing others with
  | nil => exact ⟨by simp [sharedHeads, Holds], by simpa [sharedHeads, Holds] using ho⟩
  | cons p first ih =>
    have hp : P p.node := hf p (by simp)
    have hrest : Holds P first := fun q hq => hf q (by simp [hq])
    rw [sharedHeads]
    split
    · have htails : ∀ ps ∈ others.map List.tail, Holds P ps := by
        intro ps hps q hq
        obtain ⟨qs, hqs, rfl⟩ := List.mem_map.1 hps
        exact ho qs hqs q (List.mem_of_mem_tail hq)
      obtain ⟨h1, h2⟩ := ih hrest htails
      refine ⟨fun q hq => ?_, h2⟩
      rcases List.mem_cons.1 hq with rfl | hq
      · exact hp
      · exact h1 q hq
    · refine ⟨by simp [Holds], fun ps hps => ?_⟩
      rcases List.mem_cons.1 hps with rfl | hps
      · exact hf
      · exact ho ps hps

namespace Hereditary

variable (hP : Hereditary P)
include hP

theorem ofList (h : ∀ a ∈ as, P a) : P (.ofList as) := by
  induction as with
  | nil => exact hP.empty
  | cons a as ih => exact hP.seq (h a (by simp)) (ih fun b hb => h b (by simp [hb]))

theorem anyOf (h : ∀ a ∈ as, P a) : P (.anyOf as) := by
  induction as with
  | nil => exact hP.empty
  | cons a as ih =>
    cases as with
    | nil => exact h a (by simp)
    | cons b as => exact hP.alt (h a (by simp)) (ih fun c hc => h c (by simp [hc]))

theorem ofPieces (h : Holds P ps) : P (.ofList (ps.map Piece.node)) := by
  refine hP.ofList fun a ha => ?_
  obtain ⟨p, hp, rfl⟩ := List.mem_map.1 ha
  exact h p hp

/-- Branches that are one character each become a class, so that it has to hold of the class. -/
theorem alternatives (hclass : ∀ items, P (.char (.ofItems f items false)))
    (h : ∀ ps ∈ branches, Holds P ps) : Holds P (alternatives f branches) := by
  rcases branches with _ | ⟨first, _ | ⟨second, others⟩⟩
  · simp [Expression.alternatives, Holds]
  · exact h first (by simp)
  · have hothers : ∀ ps ∈ second :: others, Holds P ps :=
      fun ps hps => h ps (List.mem_cons_of_mem _ hps)
    obtain ⟨h1, h2⟩ := holds_sharedHeads (h first (by simp)) hothers
    intro p hp
    simp only [Expression.alternatives] at hp
    rcases List.mem_append.1 hp with hp | hp
    · exact h1 p hp
    · rw [List.mem_singleton.1 hp]
      split
      · exact hclass _
      · refine hP.anyOf fun a ha => ?_
        obtain ⟨ps, hps, rfl⟩ := List.mem_map.1 ha
        exact hP.ofPieces (h2 ps hps)

theorem repeated {least : Nat} {most : Option Nat} {greed : Greed} (h : Holds P ps) :
    P (Reading.repeated least most greed ps) := by
  unfold Reading.repeated
  split
  · next ht =>
    obtain ⟨p, rfl, hp⟩ := List.map_eq_singleton_iff.1 ht
    exact hP.many (hp ▸ h p (by simp))
  · exact hP.loop (hP.ofPieces h)

end Hereditary

/-! ### Frames -/

/-- The property holds of all that the frame holds. -/
structure Frame.Holds (P : Node → Prop) (f : Frame) : Prop where
  first : ∀ g yes, f.kind = .whether g (some yes) → Expression.Holds P yes
  branches : ∀ ps ∈ f.branches, Expression.Holds P ps
  members : ∀ m ∈ f.members, Expression.Holds P m.pieces

namespace Frame

variable {f : Frame}

theorem holds_opened {kind : FrameKind} {start : Nat} {mode : Mode}
    (hw : ∀ g yes, kind ≠ .whether g (some yes)) : (opened kind start mode).Holds P where
  first g yes hg := absurd hg (hw g yes)
  branches := by simp [opened]
  members := by simp [opened]

namespace Holds

variable (hf : f.Holds P)
include hf

theorem append {m : Member} (hm : Expression.Holds P m.pieces) : (f.append m).Holds P where
  first := hf.first
  branches := hf.branches
  members := List.forall_mem_cons.2 ⟨hm, hf.members⟩

theorem sequence : Expression.Holds P f.sequence := by
  intro p hp
  obtain ⟨m, hm, hpm⟩ := List.mem_flatMap.1 hp
  exact hf.members m (List.mem_reverse.1 hm) p hpm

theorem branch : Frame.Holds P
    { f with branches := f.branches ++ [f.sequence], members := [] } where
  first := hf.first
  branches := List.forall_mem_append.2 ⟨hf.branches, List.forall_mem_singleton.2 hf.sequence⟩
  members := nofun

theorem firstBranch {group : Nat} :
    Frame.Holds P { f with kind := .whether group (some f.sequence), members := [] } where
  first := by
    rintro g yes ⟨⟩
    exact hf.sequence
  branches := hf.branches
  members := nofun

section Whole

variable (hP : Hereditary P) (hclass : ∀ items, P (.char (.ofItems f.mode.folding items false)))
include hP hclass

theorem pieces : Expression.Holds P f.pieces :=
  hP.alternatives hclass
    (List.forall_mem_append.2 ⟨hf.branches, List.forall_mem_singleton.2 hf.sequence⟩)

theorem body : P f.body :=
  hP.ofPieces (hf.pieces hP hclass)

theorem closed {groups : GroupTable} (hgroup : ∀ i, f.kind = .capture i → P (.group i f.body)) :
    Expression.Holds P (Reading.closed groups f).pieces := by
  have hbody := hf.body hP hclass
  have hsingle : ∀ a : Node, P a → Expression.Holds P [⟨a, .enclosed⟩] := by
    intro a ha p hp
    rw [List.mem_singleton.1 hp]
    exact ha
  unfold Reading.closed
  split
  · exact hf.pieces hP hclass
  · exact hf.pieces hP hclass
  · exact hsingle _ hbody
  · next i hi => exact hsingle _ (hgroup i hi)
  · exact hsingle _ (hP.atomic hbody)
  · exact hsingle _ (hP.ahead hbody)
  · exact hsingle _ (hP.behind hbody)
  · exact hsingle _ (hP.whether hbody hP.empty)
  · next g yes hg => exact hsingle _ (hP.whether (hP.ofPieces (hf.first g yes hg)) hbody)

end Whole

end Holds

end Frame

end UrlRouting.Expression
