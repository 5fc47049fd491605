import UrlRouting.Proofs.Expression.Numbering

/-! What a step of the reader does where it succeeds. All that is kept from the beginning of an
expression to its end follows from it by cases. -/
namespace UrlRouting.Expression.Reading

variable {r r' : Reading} {s : Source} {t : Token} {c : Char} {start fuel : Nat}

/-- The node that a single construct stands for in a mode. -/
inductive Simple (mode : Mode) : Node → Prop
  | code (n : Nat) (negated : Bool) : Simple mode (.char (.ofCode mode.folding n negated))
  | items (items : List ClassItem) (negated : Bool) :
      Simple mode (.char (.ofItems mode.folding items negated))
  | any : Simple mode (.char .any)
  | exceptNewline : Simple mode (.char .exceptNewline)
  | anchor (a : Anchor) : Simple mode (.anchor a)
  | again (index : Nat) : Simple mode (.again index mode.folding)

/-- What has become of a reading after a step. -/
inductive Does (r : Reading) : Reading → Prop
  | passes (s : Source) : Does r { r with source := s }
  | appends {n : Node} (role : Role) (s : Source) (h : Simple r.frame.mode n) :
      Does r (r.appendNode role n s)
  | repeats {last : Member} {former : List Member} (least : Nat) (most : Option Nat) (greed : Greed)
      (s : Source) (h : r.frame.members = last :: former) : Does r { r with
        frame := { r.frame with
          members := .piece ⟨repeated least most greed last.pieces, .repetition⟩ :: former }
        source := s }
  | opens {groups : GroupTable} {kind : FrameKind} (conditions : List (Nat × Nat)) (start : Nat)
      (mode : Mode) (s : Source) (hnames : r.groups.names <+: groups.names)
      (hkind : ∀ group yes, kind ≠ .whether group (some yes)) : Does r
        ({ r with groups := groups, conditions := conditions }.descend (.opened kind start mode) s)
  | closes {f : Frame} {outer : List Frame} (s : Source) (h : r.outer = f :: outer) :
      Does r { r with
        source := s
        groups := groupsAfter r.groups r.frame
        frame := f.append (closed r.groups r.frame)
        outer := outer }
  | branches (s : Source) : Does r { r with
        source := s
        frame := { r.frame with
          branches := r.frame.branches ++ [r.frame.sequence], members := [] } }
  | firstBranch (group : Nat) (s : Source) : Does r { r with
        source := s
        frame := { r.frame with
          kind := .whether group (some r.frame.sequence), members := [] } }

/-- Another frame is open, and the groups are the same. -/
theorem Does.descends {kind : FrameKind} {mode : Mode}
    (hkind : ∀ group yes, kind ≠ .whether group (some yes)) :
    Does r (r.descend (.opened kind start mode) s) :=
  .opens r.conditions start mode s List.prefix_rfl hkind

/-! ### Constructs -/

theorem does_readEscape (h : r.readEscape c start s = .ok r') : Does r r' := by
  obtain ⟨⟨e, t⟩, _, h⟩ := bind_eq_ok.1 h
  cases e with
  | code n =>
    cases h
    exact .appends _ _ (.code n false)
  | category =>
    cases h
    exact .appends _ _ (.items _ false)
  | anchor a =>
    cases h
    exact .appends _ _ (.anchor a)
  | group index =>
    cases h
    exact .appends _ _ (.again index)

theorem does_repeatLast {least : Nat} {most : Option Nat}
    (h : r.repeatLast least most start s = .ok r') :
    Does r r' := by
  unfold repeatLast at h
  cases hm : r.frame.members with
  | nil =>
    rw [hm] at h
    cases h
  | cons last former =>
    simp only [hm] at h
    split at h
    · cases h
    · cases h
    · obtain ⟨_, _, h⟩ := bind_eq_ok.1 h
      split at h
      · cases h
        exact .repeats _ _ _ _ hm
      · obtain ⟨_, _, h⟩ := bind_eq_ok.1 h
        cases h
        exact .repeats _ _ _ _ hm

theorem does_openCapture {name : Option (List Char)} {nameStart : Nat}
    (h : r.openCapture name start nameStart s = .ok r') : Does r r' := by
  unfold openCapture at h
  dsimp only at h
  split at h
  · cases h
    exact .opens _ _ _ _ List.prefix_rfl (by simp)
  · split at h
    · cases h
    · cases h
      exact .opens _ _ _ _ (List.prefix_append _ _) (by simp)

theorem does_readNamedGroup (h : r.readNamedGroup s = .ok r') : Does r r' := by
  obtain ⟨_, _, h⟩ := bind_eq_ok.1 h
  obtain ⟨_, _, h⟩ := bind_eq_ok.1 h
  split at h
  · cases h
  · obtain ⟨_, h⟩ := guard_eq_ok.1 h
    obtain ⟨_, _, h⟩ := bind_eq_ok.1 h
    cases h
    exact .appends _ _ (.again _)

theorem does_readNamed (h : r.readNamed start s = .ok r') : Does r r' := by
  obtain ⟨_, _, h⟩ := bind_eq_ok.1 h
  dsimp only at h
  split at h
  · obtain ⟨_, _, h⟩ := bind_eq_ok.1 h
    obtain ⟨_, _, h⟩ := bind_eq_ok.1 h
    exact does_openCapture h
  · obtain ⟨_, _, h⟩ := bind_eq_ok.1 h
    split at h
    · exact does_readNamedGroup h
    · split at h
      · cases h
      · obtain ⟨_, _, h⟩ := bind_eq_ok.1 h
        cases h

theorem does_readCondition (h : r.readCondition start s = .ok r') : Does r r' := by
  obtain ⟨⟨name, t⟩, _, h⟩ := bind_eq_ok.1 h
  dsimp only at h
  split at h
  · split at h
    · cases h
    · obtain ⟨_, _, h⟩ := bind_eq_ok.1 h
      obtain ⟨_, _, h⟩ := bind_eq_ok.1 h
      cases h
      exact .opens _ _ _ _ List.prefix_rfl (by simp)
  · obtain ⟨_, _, h⟩ := bind_eq_ok.1 h
    obtain ⟨_, _, h⟩ := bind_eq_ok.1 h
    obtain ⟨_, _, h⟩ := bind_eq_ok.1 h
    cases h
    exact .opens _ _ _ _ List.prefix_rfl (by simp)

theorem does_readLookbehind (h : r.readLookbehind start s = .ok r') : Does r r' := by
  obtain ⟨⟨next, t⟩, _, h⟩ := bind_eq_ok.1 h
  dsimp only at h
  split at h
  · cases h
  · cases h
    exact .opens _ _ _ _ List.prefix_rfl (by simp)
  · cases h
    exact .opens _ _ _ _ List.prefix_rfl (by simp)
  · cases h

theorem does_switched {switches : SwitchGroup} (h : (match switches with
      | .global => refuse .misplacedFlags start
      | .forGroup on off =>
        return r.descend (.opened .switched start (r.frame.mode.switched on off)) s) = .ok r') :
    Does r r' := by
  cases switches with
  | global => cases h
  | forGroup on off =>
    cases h
    exact .descends (by simp)

theorem does_readExtension (h : r.readExtension t start s = .ok r') : Does r r' := by
  unfold readExtension at h
  dsimp only at h
  split at h
  · exact does_readNamed h
  · cases h
    exact .descends (by simp)
  · obtain ⟨_, _, h⟩ := bind_eq_ok.1 h
    cases h
    exact .passes _
  · cases h
    exact .descends (by simp)
  · cases h
    exact .descends (by simp)
  · exact does_readLookbehind h
  · exact does_readCondition h
  · cases h
    exact .descends (by simp)
  · split at h
    · obtain ⟨_, _, h⟩ := bind_eq_ok.1 h
      exact does_switched h
    · split at h
      · obtain ⟨_, _, h⟩ := bind_eq_ok.1 h
        exact does_switched h
      · cases h

theorem does_openGroup (h : r.openGroup start s = .ok r') : Does r r' := by
  obtain ⟨_, _, h⟩ := bind_eq_ok.1 h
  dsimp only at h
  split at h
  · exact does_openCapture h
  · obtain ⟨⟨next, _⟩, _, h⟩ := bind_eq_ok.1 h
    cases next with
    | none => cases h
    | some => exact does_readExtension h

theorem does_closeGroup (h : r.closeGroup = .ok r') : Does r r' := by
  unfold closeGroup at h
  split at h
  · cases h
  · next ho =>
    obtain ⟨_, _, h⟩ := bind_eq_ok.1 h
    cases h
    exact .closes _ ho

theorem does_nextBranch (h : r.nextBranch = .ok r') : Does r r' := by
  unfold nextBranch at h
  split at h
  · cases h
  · obtain ⟨_, _, h⟩ := bind_eq_ok.1 h
    cases h
    exact .firstBranch _ _
  · obtain ⟨_, _, h⟩ := bind_eq_ok.1 h
    cases h
    exact .branches _

theorem simple_test (mode : Mode) (items : List ClassItem) (negated : Bool) :
    Simple mode (.char (CharClass.test mode.folding items negated)) := by
  unfold CharClass.test
  split
  · exact .code _ _
  · exact .items _ _

theorem does_readPlain (h : r.readPlain c start s = .ok r') : Does r r' := by
  unfold readPlain at h
  dsimp only at h
  split at h
  · obtain ⟨⟨test, _⟩, htest, h⟩ := bind_eq_ok.1 h
    obtain ⟨_, _, htest⟩ := bind_eq_ok.1 htest
    obtain ⟨_, _, htest⟩ := bind_eq_ok.1 htest
    cases htest
    cases h
    exact .appends _ _ (simple_test _ _ _)
  · exact does_openGroup h
  · cases h
    refine .appends _ _ ?_
    split
    · exact .any
    · exact .exceptNewline
  · cases h
    exact .appends _ _ (.anchor _)
  · cases h
    exact .appends _ _ (.anchor _)
  · exact does_repeatLast h
  · exact does_repeatLast h
  · exact does_repeatLast h
  · obtain ⟨bounds, _, h⟩ := bind_eq_ok.1 h
    cases bounds with
    | none =>
      cases h
      exact .appends _ _ (.code _ false)
    | some => exact does_repeatLast h
  · cases h
    exact .appends _ _ (.code _ false)

theorem does_step (h : r.step t = .ok r') : Does r r' := by
  unfold step at h
  dsimp only at h
  split at h
  · exact does_nextBranch h
  · split at h
    · exact does_closeGroup h
    · obtain ⟨s, _, h⟩ := bind_eq_ok.1 h
      cases t with
      | dangling => cases h
      | escaped c => exact does_readEscape h
      | plain c =>
        dsimp only at h
        split at h
        · cases h
          exact .passes s
        · split at h
          · obtain ⟨_, _, h⟩ := bind_eq_ok.1 h
            cases h
            exact .passes _
          · exact does_readPlain h

/-! ### What steps keep -/

/-- The modes of the open frames, the innermost first. -/
def modes (r : Reading) : List Mode :=
  r.frame.mode :: r.outer.map Frame.mode

theorem names_does (h : Does r r') : r.groups.names <+: r'.groups.names := by
  cases h with
  | passes | appends | repeats | branches | firstBranch => exact List.prefix_rfl
  | opens _ _ _ _ hnames => exact hnames
  | closes => exact (names_groupsAfter r.groups r.frame).symm ▸ List.prefix_rfl

/-- The mode of the whole expression stays. -/
theorem getLast?_modes_does (h : Does r r') : r'.modes.getLast? = r.modes.getLast? := by
  cases h with
  | passes | appends | repeats | branches | firstBranch => rfl
  | opens => exact List.getLast?_cons_cons
  | closes _ ho =>
    simp only [modes, ho, List.map_cons]
    exact List.getLast?_cons_cons.symm

/-- A name that has been given stays. -/
theorem names_run (h : r.run fuel = .ok r') : r.groups.names <+: r'.groups.names := by
  induction fuel generalizing r with
  | zero =>
    cases h
    exact List.prefix_rfl
  | succ fuel ih =>
    rw [run] at h
    split at h
    · cases h
      exact List.prefix_rfl
    · obtain ⟨q, hq, h⟩ := bind_eq_ok.1 h
      exact (names_does (does_step hq)).trans (ih h)

end UrlRouting.Expression.Reading
