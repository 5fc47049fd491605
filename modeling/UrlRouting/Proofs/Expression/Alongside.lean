import Mathlib.Logic.Relation
import UrlRouting.Proofs.Expression.Constructs
import UrlRouting.Proofs.Expression.EnclosedRun
import UrlRouting.Proofs.Expression.Steps

/-! A text that is read by itself, and the same text within longer ones that can be read as a whole.
Whatever groups there are before the text, the readings come to its end together, and what has been
read there does not depend on what follows. -/
namespace UrlRouting.Expression

open Source Reading

section Tied

variable {α β γ α' β' γ' : Type} {rel : α → γ → Prop} {put : α → γ → List Token → β}
  {rel' : α' → γ' → Prop} {put' : α' → γ' → List Token → β'}

/-- A reading of a text by itself, and one for each text that may follow it. As long as they
succeed, all of the latter read the same thing, which is related to what the former has read. -/
def Tied (rel : α → γ → Prop) (put : α → γ → List Token → β) (here : Parse α)
    (there : List Token → Parse β) : Prop :=
  ∀ after after', Fenced after → Fenced after' → ∀ a b b', here = .ok a → there after = .ok b →
    there after' = .ok b' → ∃ c, rel a c ∧ b = put a c after ∧ b' = put a c after'

theorem tied_ok {a : α} (c : γ) (h : rel a c) :
    Tied rel put (.ok a) fun after => .ok (put a c after) := by
  rintro after after' - - _ _ _ ⟨⟩ ⟨⟩ ⟨⟩
  exact ⟨c, h, rfl, rfl⟩

theorem tied_refuse {fault : Fault} {pos : Nat} {there : List Token → Parse β} :
    Tied rel put (refuse fault pos) there := by
  rintro _ _ - - _ _ _ ⟨⟩

theorem tied_refuse_right {fault : Fault} {pos : List Token → Nat} {here : Parse α} :
    Tied rel put here fun after => refuse fault (pos after) := by
  rintro _ _ - - _ _ _ - ⟨⟩

theorem Alike.tied {P : α → Prop} {put : α → List Token → β} {here : Parse α}
    {there : List Token → Parse β}
    (h : ∀ {after}, Fenced after → Alike (fun a b => P a ∧ b = put a after) here (there after)) :
    Tied (fun a (_ : Unit) => P a) (fun a _ => put a) here there := by
  intro after after' ha ha' a b b' hhere hb hb'
  obtain ⟨_, hthere, hP, rfl⟩ := h ha a hhere
  obtain ⟨_, hthere', _, rfl⟩ := h ha' a hhere
  exact ⟨(), hP, Except.ok.inj (hb.symm.trans hthere), Except.ok.inj (hb'.symm.trans hthere')⟩

theorem Tied.bind {here : Parse α} {there : List Token → Parse β} {f : α → Parse α'}
    {g : List Token → β → Parse β'} (h : Tied rel put here there)
    (hf : ∀ a c, rel a c → Tied rel' put' (f a) fun after => g after (put a c after)) :
    Tied rel' put' (here >>= f) fun after => there after >>= g after := by
  intro after after' ha ha' a' b b' hhere hb hb'
  obtain ⟨a, hhere, hfa⟩ := bind_eq_ok.1 hhere
  obtain ⟨b, hb, hgb⟩ := bind_eq_ok.1 hb
  obtain ⟨b', hb', hgb'⟩ := bind_eq_ok.1 hb'
  obtain ⟨c, hc, rfl, rfl⟩ := h _ _ ha ha' a b b' hhere hb hb'
  exact hf a c hc _ _ ha ha' _ _ _ hfa hgb hgb'

/-- What is found out before may differ, if only what follows does not matter. -/
theorem Tied.apart {here : Parse α} {there : List Token → Parse β} {f : α → Parse α'}
    {g : List Token → β → Parse β'} (hthere : ∀ after, there after = there [])
    (h : ∀ a b, Tied rel' put' (f a) fun after => g after b) :
    Tied rel' put' (here >>= f) fun after => there after >>= g after := by
  intro after after' ha ha' a' c c' hhere hc hc'
  obtain ⟨a, _, hfa⟩ := bind_eq_ok.1 hhere
  obtain ⟨b, hb, hgb⟩ := bind_eq_ok.1 hc
  obtain ⟨b', hb', hgb'⟩ := bind_eq_ok.1 hc'
  obtain rfl := Except.ok.inj
    (hb.symm.trans ((hthere after).trans ((hthere after').symm.trans hb')))
  exact h a b _ _ ha ha' _ _ _ hfa hgb hgb'

theorem Tied.ite {p : Prop} [Decidable p] {here here' : Parse α}
    {there there' : List Token → Parse β}
    (h : p → Tied rel put here there) (h' : ¬p → Tied rel put here' there') :
    Tied rel put (if p then here else here') fun after => if p then there after
      else there' after := by
  split
  · next hp => exact h hp
  · next hp => exact h' hp

theorem Tied.guard {p q : Prop} [Decidable p] [Decidable q] {fault fault' : Fault} {pos : Nat}
    {pos' : List Token → Nat} {f : Unit → Parse α} {g : List Token → Unit → Parse β}
    (h : Tied rel put (f ()) fun after => g after ()) :
    Tied rel put (if p then refuse fault pos >>= f else f ())
      fun after => if q then refuse fault' (pos' after) >>= g after else g after () := by
  intro after after' ha ha' a b b' hhere hb hb'
  exact h _ _ ha ha' _ _ _ (guard_eq_ok.1 hhere).2 (guard_eq_ok.1 hb).2 (guard_eq_ok.1 hb').2

end Tied

variable {α : Type} {s t : Source} {k start : Nat} {after after' : List Token}
  {r r' q fin fin' : Reading} {x : Token} {c : Char} {n : Nat} {start' : List Token → Nat}

/-! ### Escapes -/

namespace Escape

variable {g g' : GroupTable} {asciiOnly : Bool}

/-- Something is read, and then the readings are at the same place again. -/
abbrev Rejoins (k : Nat) (s : Source) (here : Parse (α × Source))
    (there : List Token → Parse (α × Source)) : Prop :=
  Tied (fun x (_ : α) => s.Reaches x.2) (fun x e after => (e, x.2.within k after)) here there

theorem rejoins_of_carries {here : Parse (α × Source)} {there : List Token → Parse (α × Source)}
    (h : ∀ {after}, Fenced after → s.Carries k after here (there after)) :
    Rejoins k s here there := by
  intro after after' ha ha' x y y' hx hy hy'
  obtain ⟨_, hr, rfl, rfl⟩ := Alike.tied h _ _ ha ha' _ _ _ hx hy hy'
  exact ⟨x.1, hr, rfl, rfl⟩

theorem readGroup_rejoins {digits : List Char} (hr : s.Reaches t) : Rejoins k s
    (readGroup g digits start t) fun after => readGroup g' digits (start' after)
    (t.within k after) := by
  intro after after' _ _ x y y' hx hy hy'
  rw [readGroup_eq_ok hx, readGroup_eq_ok hy, readGroup_eq_ok hy']
  exact ⟨_, hr, rfl, rfl⟩

theorem readDigits_rejoins (hs : s.Settled) : Rejoins k s (readDigits g c start s)
    fun after => readDigits g' c (start' after) (s.within k after) := by
  refine .bind (Alike.tied fun ha => takeWhile_carries ha (by decide) (.inl rfl) hs) ?_
  rintro ⟨second, t⟩ - ht
  refine .ite (fun _ => ?_) fun _ => readGroup_rejoins ht
  refine .bind (Alike.tied fun ha => takeWhile_carries ha (by decide) (.inl rfl) ht.settled) ?_
  rintro ⟨third, u⟩ - hu
  refine .ite (fun _ => readGroup_rejoins (ht.trans hu)) fun _ => ?_
  exact .ite (fun _ => tied_refuse) fun _ => tied_ok _ (ht.trans hu)

theorem read_rejoins (hs : s.Settled) : Rejoins k s (read g asciiOnly c start s)
    fun after => read g' asciiOnly c (start' after) (s.within k after) := by
  unfold read
  split
  · exact tied_ok _ (.refl hs)
  · exact tied_ok _ (.refl hs)
  · exact tied_ok _ (.refl hs)
  · refine .ite (fun _ => ?_) fun _ => .ite (fun _ => readDigits_rejoins hs) fun _ =>
      rejoins_of_carries fun ha => readCode_carries hs ha
    refine rejoins_of_carries fun ha => ?_
    exact (takeWhile_carries ha (by decide) (.inl rfl) hs).then fun _ _ hr => carries_ok hr

end Escape

/-! ### Constructs -/

namespace Reading

/-- The same reading, with another text still to be read. -/
def on (q : Reading) (s : Source) : Reading :=
  { q with source := s }

@[simp] theorem source_on : (q.on s).source = s := rfl

@[simp] theorem frame_on : (q.on s).frame = q.frame := rfl

@[simp] theorem modes_on : (q.on s).modes = q.modes := rfl

/-- All readings go on from a place, side by side, unless one of them is refused. Whatever follows,
they differ only in that. -/
def Together (k : Nat) (s : Source) (here : Parse Reading) (there : List Token → Parse Reading) :
    Prop :=
  Tied (fun (r q : Reading) => s.Reaches r.source ∧ q.modes = r.modes)
    (fun (r q : Reading) after => q.on (r.source.within k after)) here there

theorem together_ok {there : List Token → Reading} (hs : s.Reaches r'.source)
    (hmodes : (there []).modes = r'.modes)
    (hthere : ∀ after, there after = (there []).on (r'.source.within k after)) :
    Together k s (.ok r') fun after => .ok (there after) := by
  rintro after after' - - _ _ _ ⟨⟩ ⟨⟩ ⟨⟩
  exact ⟨there [], ⟨hs, hmodes⟩, hthere after, hthere after'⟩

theorem together_refuse {fault : Fault} {pos : Nat} {there : List Token → Parse Reading} :
    Together k s (refuse fault pos) there :=
  tied_refuse

theorem together_refuse_right {fault : Fault} {pos : List Token → Nat} {here : Parse Reading} :
    Together k s here fun after => refuse fault (pos after) :=
  tied_refuse_right

theorem Together.from {here : Parse Reading} {there : List Token → Parse Reading} (hr : s.Reaches t)
    (h : Together k t here there) : Together k s here there := by
  intro after after' ha ha' r q q' hr' hq hq'
  obtain ⟨q₀, ⟨ht, hmodes⟩, hq₀⟩ := h _ _ ha ha' _ _ _ hr' hq hq'
  exact ⟨q₀, ⟨hr.trans ht, hmodes⟩, hq₀⟩

theorem Together.bind {β γ : Type} {rel : α → γ → Prop} {put : α → γ → List Token → β}
    {here : Parse α}
    {there : List Token → Parse β} {f : α → Parse Reading} {g : List Token → β → Parse Reading}
    (h : Tied rel put here there)
    (hf : ∀ a c, rel a c → Together k s (f a) fun after => g after (put a c after)) :
    Together k s (here >>= f) fun after => there after >>= g after :=
  Tied.bind h hf

theorem Together.then {here : Parse (α × Source)} {there : List Token → Parse (α × Source)}
    {f : α × Source → Parse Reading} {g : List Token → α × Source → Parse Reading}
    (h : ∀ {after}, Fenced after → s.Carries k after here (there after))
    (hf : ∀ a t, s.Reaches t → Together k t (f (a, t)) fun after => g after (a, t.within k after)) :
    Together k s (here >>= f) fun after => there after >>= g after :=
  .bind (Alike.tied h) fun x _ ht => .from ht (hf x.1 x.2 ht)

theorem Together.ite {b : Prop} [Decidable b] {here here' : Parse Reading}
    {there there' : List Token → Parse Reading} (h : b → Together k s here there)
    (h' : ¬b → Together k s here' there') : Together k s (if b then here else here')
      fun after => if b then there after else there' after :=
  Tied.ite h h'

/-- What is found out about groups may differ, since other groups are known on the other side. -/
theorem Together.apart {β : Type} {here : Parse α} {there : List Token → Parse β}
    {f : α → Parse Reading}
    {g : List Token → β → Parse Reading} (hthere : ∀ after, there after = there [])
    (h : ∀ a b, Together k s (f a) fun after => g after b) :
    Together k s (here >>= f) fun after => there after >>= g after :=
  Tied.apart hthere h

theorem Together.guard {b d : Prop} [Decidable b] [Decidable d] {fault fault' : Fault} {pos : Nat}
    {pos' : List Token → Nat} {f : Unit → Parse Reading} {g : List Token → Unit → Parse Reading}
    (h : Together k s (f ()) fun after => g after ()) :
    Together k s (if b then refuse fault pos >>= f else f ())
      fun after => if d then refuse fault' (pos' after) >>= g after else g after () :=
  Tied.guard h

theorem Together.take {f : Option Token × Source → Parse Reading}
    {g : List Token → Option Token × Source → Parse Reading} (hs : s.Settled)
    (hnone : ∀ t b, f (none, t) ≠ .ok b) (h : ∀ x t, s.Reaches t →
      Together k t (f (some x, t)) fun after => g after (some x, t.within k after)) :
    Together k s (s.take >>= f) fun after => (s.within k after).take >>= g after := by
  by_cases hne : s.rest = []
  · intro after after' _ _ r' _ _ hr' _ _
    obtain ⟨⟨y, t⟩, hy, hr'⟩ := bind_eq_ok.1 hr'
    obtain rfl := (take_eq_none hy).2 hne
    exact absurd hr' (hnone t r')
  · refine .then (fun ha => take_carries hs ha hne) fun y t ht => ?_
    cases y with
    | none => exact fun _ _ _ _ r' _ _ hr' => absurd hr' (hnone t r')
    | some y => exact h y t ht

section Constructs

variable (hm : q.modes = r.modes)
include hm

theorem frame_mode_eq : q.frame.mode = r.frame.mode :=
  (List.cons.inj hm).1

section Settled

variable (hs : s.Settled)
include hs

theorem together_append {m m' : Member} : Together k s (.ok (r.append m s))
    fun after => .ok (q.append m' (s.within k after)) :=
  together_ok (.refl hs) hm fun _ => rfl

theorem together_descend {kind kind' : FrameKind} {mode mode' : Mode} (hmode : mode' = mode) :
    Together k s (.ok (r.descend (.opened kind start mode) s))
      fun after => .ok (q.descend (.opened kind' n mode') (s.within k after)) :=
  together_ok (.refl hs) (congrArg₂ List.cons hmode hm) fun _ => rfl

theorem together_groups {kind kind' : FrameKind} {groups groups' : GroupTable}
    {conditions conditions' : List (Nat × Nat)} : Together k s
      (.ok ({ r with groups := groups, conditions := conditions }.descend
        (.opened kind start r.frame.mode) s))
      fun after => .ok ({ q with groups := groups', conditions := conditions' }.descend
        (.opened kind' n q.frame.mode) (s.within k after)) :=
  together_ok (.refl hs) (congrArg₂ List.cons (frame_mode_eq (r := r) (q := q) hm) hm) fun _ => rfl

theorem together_openCapture {name : Option (List Char)} {nameStart nameStart' : Nat} :
    Together k s (r.openCapture name start nameStart s)
      fun after => q.openCapture name n nameStart' (s.within k after) := by
  unfold openCapture
  cases name with
  | none => exact together_groups hm hs
  | some cs =>
    dsimp only
    split
    · exact together_refuse
    · split
      · exact together_refuse_right
      · exact together_groups hm hs

theorem together_switched {switches : SwitchGroup} : Together k s
      (match switches with
        | .global => refuse .misplacedFlags start
        | .forGroup on off =>
          pure (r.descend (.opened .switched start (r.frame.mode.switched on off)) s))
      fun after => match switches with
        | .global => refuse .misplacedFlags n
        | .forGroup on off => pure (q.descend
            (.opened .switched n (q.frame.mode.switched on off)) (s.within k after)) := by
  cases switches with
  | global => exact together_refuse
  | forGroup on off => exact together_descend hm hs (by rw [frame_mode_eq hm])

theorem together_readEscape : Together k s (r.readEscape c start s)
    fun after => q.readEscape c n (s.within k after) := by
  unfold readEscape
  rw [frame_mode_eq hm]
  refine .bind (Escape.read_rejoins hs) ?_
  rintro ⟨e, t⟩ e' ht
  refine .from ht ?_
  cases e <;> cases e' <;> exact together_append hm ht.settled

theorem together_readNamedGroup : Together k s (r.readNamedGroup s)
    fun after => q.readNamedGroup (s.within k after) := by
  refine .then (fun ha => takeUntil_carries ha hs) fun name t ht => .apart (fun _ => rfl)
    fun _ _ => ?_
  cases r.groups.names.lookup (nameOf name) with
  | none => exact together_refuse
  | some index =>
    cases q.groups.names.lookup (nameOf name) with
    | none => exact together_refuse_right
    | some index' =>
      refine .guard ?_
      exact .apart (fun _ => rfl) fun _ _ => together_append hm ht.settled

theorem together_readNamed : Together k s (r.readNamed start s)
    fun after => q.readNamed n (s.within k after) := by
  refine .then (fun ha => accept_carries hs ha (by decide)) fun defines t ht =>
    .ite (fun _ => ?_) fun _ => ?_
  · refine .then (fun ha => takeUntil_carries ha ht.settled) fun name u hu => ?_
    refine .apart (fun _ => rfl) fun _ _ => ?_
    exact together_openCapture hm hu.settled
  · refine .then (fun ha => accept_carries ht.settled ha (by decide)) fun refers u hu => ?_
    refine .ite (fun _ => together_readNamedGroup hm hu.settled) fun _ _ _ _ _ r' _ _ h => ?_
    split at h
    · cases h
    · obtain ⟨_, _, h⟩ := bind_eq_ok.1 h
      cases h

theorem together_readCondition : Together k s (r.readCondition start s)
    fun after => q.readCondition n (s.within k after) := by
  refine .then (fun ha => takeUntil_carries ha hs) fun name t ht => .ite (fun _ => ?_) fun _ => ?_
  · dsimp only
    split
    · exact together_refuse
    · split
      · exact together_refuse_right
      · exact .apart (fun _ => rfl) fun _ _ => .apart (fun _ => rfl) fun _ _ =>
          together_groups hm ht.settled
  · refine .apart (fun _ => rfl) fun _ _ => .apart (fun _ => rfl) fun _ _ => ?_
    refine .apart (fun _ => rfl) fun _ _ => ?_
    exact together_groups hm ht.settled

theorem together_readLookbehind : Together k s (r.readLookbehind start s)
    fun after => q.readLookbehind n (s.within k after) := by
  refine .take hs (by simp [refuse, bind, Except.bind]) fun x t ht => ?_
  dsimp only
  split
  · exact together_refuse
  · exact together_groups hm ht.settled
  · exact together_groups hm ht.settled
  · exact together_refuse

theorem together_readExtension : Together k s (r.readExtension x start s)
    fun after => q.readExtension x n (s.within k after) := by
  have hmode := frame_mode_eq hm
  unfold readExtension
  dsimp only
  split
  · exact together_readNamed hm hs
  · exact together_descend hm hs hmode
  · refine .bind (Alike.tied fun ha => skipComment_alike ?_ hs ha) fun t _ ht => ?_
    · simp [Source.within]
    · exact together_ok ht hm fun _ => rfl
  · exact together_descend hm hs hmode
  · exact together_descend hm hs hmode
  · exact together_readLookbehind hm hs
  · exact together_readCondition hm hs
  · exact together_descend hm hs hmode
  · refine .ite (fun _ => ?_) fun _ => ?_
    · refine .then (fun ha => SwitchGroup.readAfterDash_carries hs ha) fun switches t ht => ?_
      exact together_switched hm ht.settled
    · split
      · refine .then (fun ha => SwitchGroup.read_carries hs ha) fun switches t ht => ?_
        exact together_switched hm ht.settled
      · exact together_refuse

theorem together_openGroup : Together k s (r.openGroup start s)
    fun after => q.openGroup n (s.within k after) := by
  refine .then (fun ha => accept_carries hs ha (by decide)) fun extended t ht => ?_
  refine .ite (fun _ => together_openCapture hm ht.settled) fun _ => ?_
  refine .take ht.settled (by simp [refuse]) fun x u hu => ?_
  exact together_readExtension hm hu.settled

/-- The last member is repeated, once what is written after the bounds has been read. -/
theorem together_repeatMember {least : Nat} {most : Option Nat} {last last' : Member}
    {former former' : List Member} : Together k s
      (do
        let (lazy, s) ← s.accept '?'
        let (possessive, s) ← if lazy then .ok (false, s) else s.accept '+'
        let greed : Greed := if lazy then .lazy else if possessive then .possessive else .greedy
        let node := repeated least most greed last.pieces
        return { r with
          frame := { r.frame with members := .piece ⟨node, .repetition⟩ :: former }
          source := s })
      fun after => (do
        let (lazy, s) ← (s.within k after).accept '?'
        let (possessive, s) ← if lazy then .ok (false, s) else s.accept '+'
        let greed : Greed := if lazy then .lazy else if possessive then .possessive else .greedy
        let node := repeated least most greed last'.pieces
        return { q with
          frame := { q.frame with members := .piece ⟨node, .repetition⟩ :: former' }
          source := s }) := by
  refine .then (fun ha => accept_carries hs ha (by decide)) fun lazy t ht => ?_
  refine .ite (fun _ => together_ok (.refl ht.settled) hm fun _ => rfl) fun _ => ?_
  refine .then (fun ha => accept_carries ht.settled ha (by decide)) fun possessive u hu => ?_
  exact together_ok (.refl hu.settled) hm fun _ => rfl

theorem together_repeatLast {least : Nat} {most : Option Nat} :
    Together k s (r.repeatLast least most start s)
      fun after => q.repeatLast least most n (s.within k after) := by
  unfold repeatLast
  cases r.frame.members with
  | nil => exact together_refuse
  | cons last former =>
    cases q.frame.members with
    | nil => exact together_refuse_right
    | cons last' former' =>
      dsimp only
      split
      · exact together_refuse
      · exact together_refuse
      · split
        · exact together_refuse_right
        · exact together_refuse_right
        · exact together_repeatMember hm hs

theorem together_readPlain : Together k s (r.readPlain c start s)
    fun after => q.readPlain c n (s.within k after) := by
  unfold readPlain
  dsimp only
  split
  · refine .then (fun ha => frame_mode_eq hm ▸ CharClass.read_carries hs ha) fun test t ht => ?_
    dsimp only
    exact together_append hm ht.settled
  · exact together_openGroup hm hs
  · exact together_append hm hs
  · exact together_append hm hs
  · exact together_append hm hs
  · exact together_repeatLast hm hs
  · exact together_repeatLast hm hs
  · exact together_repeatLast hm hs
  · refine .bind (Alike.tied fun ha => readBounds_alike hs ha) fun bounds _ ht => ?_
    cases bounds with
    | none => exact together_append hm hs
    | some p =>
      have ht := ht p.1 p.2 rfl
      exact .from ht (together_repeatLast hm ht.settled)
  · exact together_append hm hs

end Settled

end Constructs

/-! ### Steps -/

section Steps

variable (hm : q.modes = r.modes) (hne : r.source.rest ≠ []) (ht : r.source.skip = .ok t)
include hm hne ht

omit hm in
theorem Together.skip {f : Source → Parse Reading} {g : List Token → Source → Parse Reading}
    (h : Together k s (f t) fun after => g after (t.within k after)) :
    Together k s (r.source.skip >>= f) fun after => (r.source.within k after).skip >>= g after := by
  intro after after' ha ha'
  simp only [ht, skip_within ha ht hne, skip_within ha' ht hne]
  exact h after after' ha ha'

variable (hs : t.Settled)
include hs

theorem together_closeGroup :
    Together k t r.closeGroup fun after => (q.on (r.source.within k after)).closeGroup := by
  unfold closeGroup
  dsimp only [on]
  cases ho : r.outer with
  | nil => exact together_refuse
  | cons f outer =>
    cases ho' : q.outer with
    | nil => exact together_refuse_right
    | cons f' outer' =>
      have hmodes := (List.cons.inj hm).2
      rw [ho, ho'] at hmodes
      exact .skip hne ht (together_ok (.refl hs) hmodes fun _ => rfl)

theorem together_nextBranch :
    Together k t r.nextBranch fun after => (q.on (r.source.within k after)).nextBranch := by
  unfold nextBranch
  dsimp only [on]
  split
  · exact together_refuse
  · split
    · exact together_refuse_right
    · exact .skip hne ht (together_ok (.refl hs) hm fun _ => rfl)
    · exact .skip hne ht (together_ok (.refl hs) hm fun _ => rfl)
  · split
    · exact together_refuse_right
    · exact .skip hne ht (together_ok (.refl hs) hm fun _ => rfl)
    · exact .skip hne ht (together_ok (.refl hs) hm fun _ => rfl)

end Steps

/-- The mode of the whole text is not verbose, so that no comment goes on after the text. -/
def Terse (r : Reading) : Prop :=
  ∀ mode, r.modes.getLast? = some mode → mode.verbose = false

theorem Terse.step (h : r.Terse) (hr : r.step x = .ok r') : r'.Terse := by
  unfold Terse
  rw [getLast?_modes_does (does_step hr)]
  exact h

/-- A comment up to the end of its line is skipped alike, if the text goes on after it. -/
theorem skipLine_tied (hs : t.Settled)
    (hgoes : ∀ u, skipLine (t.rest.length + 1) t = .ok u → u.rest ≠ []) :
    Tied (fun u (_ : Unit) => t.Reaches u) (fun u _ after => u.within k after)
      (skipLine (t.rest.length + 1) t)
      fun after => skipLine ((t.within k after).rest.length + 1) (t.within k after) := by
  intro after after' ha ha' u v v' hu hv hv'
  have hlength : ∀ after, t.rest.length + 1 ≤ (t.within k after).rest.length + 1 := by
    simp [Source.within]
  obtain ⟨hr, hthere⟩ := skipLine_within (hlength after) (Nat.lt_succ_self _) hs ha hu (hgoes u hu)
  obtain ⟨_, hthere'⟩ :=
    skipLine_within (hlength after') (Nat.lt_succ_self _) hs ha' hu (hgoes u hu)
  exact ⟨(), hr, Except.ok.inj (hv.symm.trans hthere), Except.ok.inj (hv'.symm.trans hthere')⟩

/-- In verbose mode the lowest frame is not, so that the text goes on after a comment. -/
theorem Terse.outer_ne_nil (h : r.Terse) (hverbose : r.frame.mode.verbose = true) :
    r.outer ≠ [] := by
  intro hout
  have hlow := h r.frame.mode (by simp only [modes, hout]; rfl)
  simp [hlow] at hverbose

theorem together_step (hr : r.source.Settled) (hterse : r.Terse) (hm : q.modes = r.modes)
    (hne : r.source.rest ≠ []) (ht : r.source.skip = .ok t)
    (hend : ∀ r', r.step x = .ok r' → r'.source.rest = [] → r'.outer = []) :
    Together k t (r.step x) fun after => (q.on (r.source.within k after)).step x := by
  have hs := (skip_eq_ok hr ht hne).1.settled
  have hmode := frame_mode_eq hm
  unfold step at hend ⊢
  dsimp only at hend ⊢
  split
  · exact together_nextBranch hm hne ht hs
  split
  · exact together_closeGroup hm hne ht hs
  refine .skip hne ht ?_
  rw [if_neg ‹_›, if_neg ‹_›, ht, ok_bind] at hend
  cases x with
  | dangling => exact together_refuse
  | escaped c => exact together_readEscape hm hs
  | plain c =>
    simp only [frame_on, hmode]
    dsimp only at hend
    split
    · exact together_ok (.refl hs) hm fun _ => rfl
    split
    · next hverbose =>
      rw [if_neg ‹_›, if_pos hverbose] at hend
      refine .bind (skipLine_tied hs fun u hu hnil => ?_) fun u _ hu => together_ok hu hm
        fun _ => rfl
      have hout := hend (r.on u) (by rw [hu]; rfl) hnil
      exact hterse.outer_ne_nil (Bool.and_eq_true_iff.1 hverbose).1 hout
    · exact together_readPlain hm hs

/-! ### Runs -/

/-- Reading on leads to the end, which is as given. -/
def Ends (q fin : Reading) : Prop :=
  ∃ n, q.source.rest.length ≤ n ∧ q.run n = .ok fin

theorem Ends.step (h : q.Ends fin) (hx : q.source.next? = some x) :
    ∃ q', q.step x = .ok q' ∧ (q'.source.rest.length < q.source.rest.length → q'.Ends fin) := by
  obtain ⟨n, hn, hrun⟩ := h
  cases n with
  | zero =>
    have hnil : q.source.rest = [] := List.length_eq_zero_iff.1 (by omega)
    simp [next?, hnil] at hx
  | succ n =>
    rw [run_step hx] at hrun
    obtain ⟨q', hq', hrun⟩ := bind_eq_ok.1 hrun
    exact ⟨q', hq', fun hlt => ⟨n, by omega, hrun⟩⟩

theorem Ends.names (h : q.Ends fin) : q.groups.names <+: fin.groups.names := by
  obtain ⟨_, _, hrun⟩ := h
  exact names_run hrun

theorem Ends.eq (h : q.Ends fin) (hend : q.source.rest = []) : fin = q := by
  obtain ⟨_, _, hrun⟩ := h
  rw [run_of_end hend] at hrun
  exact (Except.ok.inj hrun).symm

/-- Some group switches letters back to be compared as they are. -/
def regardsCase : (fuel : Nat) → Reading → Bool
  | 0, _ => false
  | fuel + 1, r => match r.source.next? with
    | none => false
    | some t => match r.step t with
      | .ok r' => !r'.frame.mode.ignoreCase || regardsCase fuel r'
      | .error _ => false

/-- One reading comes from the other, in steps of which none leads to a mode that regards case. -/
abbrev Comes : Reading → Reading → Prop :=
  Relation.ReflTransGen fun q q' => (∃ x, q.step x = .ok q') ∧ q'.frame.mode.ignoreCase = true

/-- To the end of the text the longer one is read as the text by itself, whatever follows. -/
theorem together_run (hr : r.source.Settled) (hterse : r.Terse) (hm : q.modes = r.modes)
    (hn : r.source.rest.length ≤ n) (hrun : r.run n = .ok r') (hout : r'.outer = [])
    (ha : Fenced after) (ha' : Fenced after') (hq : (q.on (r.source.within k after)).Ends fin)
    (hq' : (q.on (r.source.within k after')).Ends fin') :
    ∃ q' : Reading, r'.source.rest = [] ∧ q'.modes = r'.modes ∧
      (q'.on (r'.source.within k after)).Ends fin ∧
      (q'.on (r'.source.within k after')).Ends fin' ∧ (r.regardsCase n = false →
        (q.on (r.source.within k after)).Comes (q'.on (r'.source.within k after))) := by
  induction n generalizing r q with
  | zero =>
    cases hrun
    exact ⟨q, List.length_eq_zero_iff.1 (by omega), hm, hq, hq', fun _ => .refl⟩
  | succ n ih =>
    cases hx : r.source.next? with
    | none =>
      have hend : r.source.rest = [] := List.head?_eq_none_iff.1 hx
      rw [run_of_end hend] at hrun
      cases hrun
      exact ⟨q, hend, hm, hq, hq', fun _ => .refl⟩
    | some x =>
      have hne : r.source.rest ≠ [] := by
        intro h
        simp [next?, h] at hx
      rw [run_step hx] at hrun
      obtain ⟨r₁, hr₁, hrun⟩ := bind_eq_ok.1 hrun
      obtain ⟨t, ht⟩ := skip_of_step hr₁
      obtain ⟨_, hq₁, hends⟩ := hq.step ((next?_within hne).trans hx)
      obtain ⟨_, hq₁', hends'⟩ := hq'.step ((next?_within hne).trans hx)
      -- Nothing is open at the end of the text, and a comment there would hold up what follows.
      have hfinal : ∀ r₂, r.step x = .ok r₂ → r₂.source.rest = [] → r₂.outer = [] := by
        rintro r₂ hr₂ hnil
        cases hr₁.symm.trans hr₂
        rw [run_of_end hnil] at hrun
        cases hrun
        exact hout
      obtain ⟨q₁, ⟨ht₁, hm₁⟩, rfl, rfl⟩ :=
        together_step hr hterse hm hne ht hfinal _ _ ha ha' _ _ _ hr₁ hq₁ hq₁'
      have hlt : r₁.source.rest.length < r.source.rest.length :=
        Nat.lt_of_le_of_lt ht₁.length_le (skip_eq_ok hr ht hne).2
      obtain ⟨q', hend, hm', hq', hq'', hcomes⟩ :=
        ih ht₁.settled (hterse.step hr₁) hm₁ (by omega) hrun
        (hends (by simpa [Source.within] using hlt)) (hends' (by simpa [Source.within] using hlt))
      refine ⟨q', hend, hm', hq', hq'', fun hcase => ?_⟩
      simp only [regardsCase, hx, hr₁, Bool.or_eq_false_iff, Bool.not_eq_false'] at hcase
      exact .head ⟨⟨x, hq₁⟩, (frame_mode_eq hm₁).symm ▸ hcase.1⟩ (hcomes hcase.2)

end Reading

end UrlRouting.Expression
