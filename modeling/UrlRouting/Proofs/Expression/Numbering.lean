import UrlRouting.Proofs.Expression.Hereditary

/-! What holds of a text while it is read by itself: its groups have numbers lower than that of the
next group to come, and each open frame keeps what was there before it. -/
namespace UrlRouting.Expression

variable {n m : Nat} {r : Reading}

/-- The groups that an expression remembers have numbers from one to below `n`. -/
def Node.Below (n : Nat) : Node → Prop
  | .empty | .char _ | .anchor _ | .again .. | .many .. => True
  | .group i body => (1 ≤ i ∧ i < n) ∧ body.Below n
  | .seq a b | .alt a b | .whether _ a b => a.Below n ∧ b.Below n
  | .loop _ _ _ body | .atomic body | .ahead _ body | .behind _ _ body => body.Below n

/-- The same of a sequence of pieces. -/
def Below (n : Nat) (ps : List Piece) : Prop :=
  ∀ p ∈ ps, p.node.Below n

theorem Node.Below.mono (h : n ≤ m) {a : Node} (ha : a.Below n) : a.Below m := by
  induction a with
  | empty | char | anchor | again | many => trivial
  | group i body ih => exact ⟨⟨ha.1.1, by have := ha.1.2; omega⟩, ih ha.2⟩
  | seq _ _ iha ihb | alt _ _ iha ihb | whether _ _ _ iha ihb => exact ⟨iha ha.1, ihb ha.2⟩
  | loop _ _ _ _ ih | atomic _ ih | ahead _ _ ih | behind _ _ _ ih => exact ih ha

theorem hereditary_below (n : Nat) : Hereditary (Node.Below n) where
  empty := trivial
  seq ha hb := ⟨ha, hb⟩
  alt ha hb := ⟨ha, hb⟩
  whether ha hb := ⟨ha, hb⟩
  many _ := trivial
  loop h := h
  atomic h := h
  ahead h := h
  behind h := h

theorem Below.mono (h : n ≤ m) {ps : List Piece} (hp : Below n ps) : Below m ps :=
  fun p hm => (hp p hm).mono h

theorem below_repeated {least : Nat} {most : Option Nat} {greed : Greed} {ps : List Piece}
    (h : Below n ps) : (Reading.repeated least most greed ps).Below n :=
  (hereditary_below n).repeated h

/-! ### Frames -/

/-- What a frame holds, and the group that it stands for, have lower numbers. -/
structure Frame.Below (n : Nat) (f : Frame) : Prop where
  capture : ∀ i, f.kind = .capture i → 1 ≤ i ∧ i < n
  first : ∀ g yes, f.kind = .whether g (some yes) → Expression.Below n yes
  branches : ∀ ps ∈ f.branches, Expression.Below n ps
  members : ∀ m ∈ f.members, Expression.Below n m.pieces

namespace Frame

variable {f : Frame}

theorem Below.mono (h : n ≤ m) (hf : f.Below n) : f.Below m where
  capture i hi := ⟨(hf.capture i hi).1, by have := (hf.capture i hi).2; omega⟩
  first g yes hg := (hf.first g yes hg).mono h
  branches ps hps := (hf.branches ps hps).mono h
  members m hm := (hf.members m hm).mono h

theorem Below.holds (hf : f.Below n) : f.Holds (Node.Below n) :=
  ⟨hf.first, hf.branches, hf.members⟩

theorem Holds.below (hf : f.Holds (Node.Below n)) (hc : ∀ i, f.kind = .capture i → 1 ≤ i ∧ i < n) :
    f.Below n :=
  ⟨hc, hf.first, hf.branches, hf.members⟩

theorem Below.append {m : Member} (hf : f.Below n) (hm : Expression.Below n m.pieces) :
    (f.append m).Below n :=
  (hf.holds.append hm).below hf.capture

theorem below_opened {kind : FrameKind} {start : Nat} {mode : Mode}
    (hc : ∀ i, kind = .capture i → 1 ≤ i ∧ i < n) (hw : ∀ g yes, kind ≠ .whether g (some yes)) :
    (opened kind start mode).Below n :=
  (holds_opened hw).below hc

theorem Below.body (hf : f.Below n) : f.body.Below n :=
  hf.holds.body (hereditary_below n) fun _ => trivial

theorem Below.closed {groups : GroupTable} (hf : f.Below n) :
    Expression.Below n (Reading.closed groups f).pieces :=
  hf.holds.closed (hereditary_below n) (fun _ => trivial) fun i hi => ⟨hf.capture i hi, hf.body⟩

theorem Below.branch (hf : f.Below n) :
    Frame.Below n { f with branches := f.branches ++ [f.sequence], members := [] } :=
  hf.holds.branch.below hf.capture

theorem Below.firstBranch {group : Nat} (hf : f.Below n) :
    Frame.Below n { f with kind := .whether group (some f.sequence), members := [] } :=
  hf.holds.firstBranch.below nofun

end Frame

/-! ### Readings -/

/-- The kind of a frame that holds no group and no branch, and keeps no limit. -/
def FrameKind.isBare : FrameKind → Bool
  | .plain | .switched | .atomic | .ahead _ | .whether _ none => true
  | _ => false

namespace Reading

/-- The lowest frame is that of the whole text, and not in verbose mode. -/
def Grounded : Frame → List Frame → Prop
  | f, [] => f.kind = .whole ∧ f.mode.verbose = false
  | _, f :: outer => Grounded f outer

/-- The limit for look-behinds is the one to which all open look-behinds have led from none. -/
def Unwound : Option Nat → List Frame → Prop
  | limit, [] => limit = none
  | limit, f :: outer => match f.kind with
    | .behind _ former => Unwound former outer
    | _ => Unwound limit outer

structure Sound (r : Reading) : Prop where
  settled : r.source.Settled
  next_pos : 1 ≤ r.groups.next
  closed_lt : ∀ w ∈ r.groups.closed, 1 ≤ w.1 ∧ w.1 < r.groups.next
  below : ∀ f ∈ r.frame :: r.outer, f.Below r.groups.next
  grounded : Grounded r.frame r.outer
  unwound : Unwound r.groups.lookbehind (r.frame :: r.outer)

theorem grounded_of_same {f g : Frame} {outer : List Frame} (hk : g.kind = f.kind)
    (hm : g.mode = f.mode) (h : Grounded f outer) : Grounded g outer := by
  cases outer with
  | nil => simpa only [Grounded, hk, hm] using h
  | cons => exact h

theorem unwound_of_ne {f : Frame} {outer : List Frame} {limit : Option Nat}
    (hk : ∀ negated former, f.kind ≠ .behind negated former) :
    Unwound limit (f :: outer) ↔ Unwound limit outer := by
  cases h : f.kind <;> simp_all [Unwound]

theorem unwound_of_same {f g : Frame} {outer : List Frame} {limit : Option Nat}
    (hk : g.kind = f.kind) (h : Unwound limit (f :: outer)) : Unwound limit (g :: outer) := by
  simpa only [Unwound, hk] using h

variable {s : Source}

theorem sound_start {ignoreCase : Bool} (hs : s.Settled) : (start ignoreCase s).Sound where
  settled := hs
  next_pos := Nat.le_refl 1
  closed_lt := by simp [start, GroupTable.empty]
  below := by
    intro f hf
    rw [List.mem_singleton.1 hf]
    exact Frame.below_opened (by simp) (by simp)
  grounded := ⟨rfl, rfl⟩
  unwound := rfl

theorem Sound.below_frame (hr : r.Sound) : r.frame.Below r.groups.next :=
  hr.below r.frame List.mem_cons_self

theorem Sound.below_outer (hr : r.Sound) : ∀ f ∈ r.outer, f.Below r.groups.next :=
  fun f hf => hr.below f (List.mem_cons_of_mem _ hf)

theorem Sound.frame (hr : r.Sound) (hs : s.Settled) {f : Frame} (hk : f.kind = r.frame.kind)
    (hm : f.mode = r.frame.mode) (hb : f.Below r.groups.next) :
    Sound { r with source := s, frame := f } where
  settled := hs
  next_pos := hr.next_pos
  closed_lt := hr.closed_lt
  below := List.forall_mem_cons.2 ⟨hb, hr.below_outer⟩
  grounded := grounded_of_same hk hm hr.grounded
  unwound := unwound_of_same hk hr.unwound

theorem Sound.descend (hr : r.Sound) (hs : s.Settled) {kind : FrameKind} {start : Nat}
    {mode : Mode} (hk : kind.isBare) : (r.descend (.opened kind start mode) s).Sound where
  settled := hs
  next_pos := hr.next_pos
  closed_lt := hr.closed_lt
  below := by
    refine List.forall_mem_cons.2 ⟨Frame.below_opened ?_ ?_, hr.below⟩
    · rintro i rfl
      cases hk
    · rintro g yes rfl
      cases hk
  grounded := hr.grounded
  unwound := by
    refine (unwound_of_ne ?_).2 hr.unwound
    rintro negated former rfl
    cases hk

/-- One more group is open, and perhaps has a name. -/
theorem Sound.opened (hr : r.Sound) (hs : s.Settled) {start : Nat} {mode : Mode}
    {names : List (String × Nat)} :
    Sound ({ r with groups := { r.groups with next := r.groups.next + 1, names } }.descend
      (.opened (.capture r.groups.next) start mode) s) where
  settled := hs
  next_pos := Nat.le_add_left 1 _
  closed_lt w hw := ⟨(hr.closed_lt w hw).1, Nat.lt_succ_of_lt (hr.closed_lt w hw).2⟩
  below := by
    refine List.forall_mem_cons.2 ⟨Frame.below_opened ?_ (by simp), fun f hf => ?_⟩
    · rintro i ⟨rfl⟩
      exact ⟨hr.next_pos, Nat.lt_succ_self _⟩
    · exact (hr.below f hf).mono (Nat.le_succ _)
  grounded := hr.grounded
  unwound := by
    refine (unwound_of_ne ?_).2 hr.unwound
    rintro negated former ⟨⟩

theorem Sound.behind (hr : r.Sound) (hs : s.Settled) {negated : Bool} {limit : Option Nat}
    {start : Nat} {mode : Mode} :
    Sound ({ r with groups := { r.groups with lookbehind := limit } }.descend
      (.opened (.behind negated r.groups.lookbehind) start mode) s) where
  settled := hs
  next_pos := hr.next_pos
  closed_lt := hr.closed_lt
  below := List.forall_mem_cons.2 ⟨Frame.below_opened (by simp) (by simp), hr.below⟩
  grounded := hr.grounded
  unwound := hr.unwound

theorem Sound.branch (hr : r.Sound) (hs : s.Settled) :
    Sound { r with
      source := s
      frame := { r.frame with
        branches := r.frame.branches ++ [r.frame.sequence], members := [] } } :=
  hr.frame hs rfl rfl hr.below_frame.branch

/-- The lowest frame is no condition, so that its kind stays. -/
theorem Sound.firstBranch {group : Nat} (hr : r.Sound) (hs : s.Settled)
    (hk : r.frame.kind = .whether group none) :
    Sound { r with
      source := s
      frame := { r.frame with
        kind := .whether group (some r.frame.sequence)
        members := [] } } where
  settled := hs
  next_pos := hr.next_pos
  closed_lt := hr.closed_lt
  below := List.forall_mem_cons.2 ⟨hr.below_frame.firstBranch, hr.below_outer⟩
  grounded := by
    have hground := hr.grounded
    cases ho : r.outer with
    | nil =>
      rw [ho] at hground
      exact absurd (hground.1.symm.trans hk) (by simp)
    | cons f outer =>
      rw [ho] at hground
      exact hground
  unwound := by
    have hunwound := (unwound_of_ne (by simp [hk])).1 hr.unwound
    exact (unwound_of_ne (by simp)).2 hunwound

theorem next_groupsAfter (groups : GroupTable) (f : Frame) :
    (groupsAfter groups f).next = groups.next := by
  unfold groupsAfter
  split <;> rfl

theorem names_groupsAfter (groups : GroupTable) (f : Frame) :
    (groupsAfter groups f).names = groups.names := by
  unfold groupsAfter
  split <;> rfl

theorem closed_groupsAfter {groups : GroupTable} {f : Frame} (hf : f.Below groups.next)
    (h : ∀ w ∈ groups.closed, 1 ≤ w.1 ∧ w.1 < groups.next) :
    ∀ w ∈ (groupsAfter groups f).closed, 1 ≤ w.1 ∧ w.1 < groups.next := by
  unfold groupsAfter
  split
  · next i hi => exact List.forall_mem_cons.2 ⟨hf.capture i hi, h⟩
  · exact h
  · exact h

theorem unwound_groupsAfter {groups : GroupTable} {f : Frame} {outer : List Frame}
    (h : Unwound groups.lookbehind (f :: outer)) :
    Unwound (groupsAfter groups f).lookbehind outer := by
  unfold groupsAfter
  unfold Unwound at h
  split <;> split at h <;> simp_all

theorem Sound.closed (hr : r.Sound) (hs : s.Settled) {f : Frame} {outer : List Frame}
    (ho : r.outer = f :: outer) :
    Sound { r with
      source := s
      groups := groupsAfter r.groups r.frame
      frame := f.append (closed r.groups r.frame)
      outer := outer } := by
  have hbelow := hr.below_outer
  have hground := hr.grounded
  have hunwound := unwound_groupsAfter hr.unwound
  rw [ho] at hbelow hground hunwound
  obtain ⟨hf, houter⟩ := List.forall_mem_cons.1 hbelow
  exact {
    settled := hs
    next_pos := by simpa only [next_groupsAfter] using hr.next_pos
    closed_lt := by
      simpa only [next_groupsAfter] using closed_groupsAfter hr.below_frame hr.closed_lt
    below := by
      simp only [next_groupsAfter]
      exact List.forall_mem_cons.2 ⟨hf.append hr.below_frame.closed, houter⟩
    grounded := grounded_of_same (f := f) rfl rfl hground
    unwound := unwound_of_same (f := f) rfl hunwound }

end Reading

end UrlRouting.Expression
