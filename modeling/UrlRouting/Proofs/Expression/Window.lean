import Mathlib.Data.List.Basic
import UrlRouting.Proofs.Expression.Onward
import UrlRouting.Proofs.Expression.Renumbering

/-! Matching a part of a text by itself, and matching it where it stands. Before and after the part
there are slashes, or the ends of the text, and the groups have other numbers there. -/
namespace UrlRouting.Expression

variable {f f' g g' : Steps} {u : State} {k : Nat} {keep : State → Bool}

def Mark.renumber (d : Nat) : Mark → Mark
  | opening i => opening (Expression.renumber d i)
  | closing i => closing (Expression.renumber d i)

/-- A part of a text between slashes, with the marks that have been set before it. -/
structure Window where
  text : Subject
  part : Subject
  first : Nat
  /-- How many groups there are in front. -/
  shift : Nat
  base : List (Mark × Nat)
  size_le : first + part.size ≤ text.size
  same : ∀ p < part.size, text[first + p]? = part[p]?
  opens : first = 0 ∨ text[first - 1]? = some '/'
  ends : first + part.size = text.size ∨ text[first + part.size]? = some '/'
  former : ∀ e ∈ base, 1 ≤ e.1.index ∧ e.1.index ≤ shift
  within : ∀ e ∈ base, e.2 ≤ text.size

namespace Window

variable {W : Window}

/-- A state of the part where the part stands. -/
def lift (W : Window) (u : State) : State :=
  ⟨W.first + u.pos, (u.marks.map fun e => (e.1.renumber W.shift, W.first + e.2)) ++ W.base⟩

@[simp] theorem pos_lift : (W.lift u).pos = W.first + u.pos := rfl

@[simp] theorem lift_move : W.lift (u.move k) = (W.lift u).move k := by
  simp [lift, State.move, Nat.add_assoc]

@[simp] theorem lift_mark (m : Mark) :
    W.lift (u.mark m) = (W.lift u).mark (m.renumber W.shift) := rfl

theorem within_lift (hu : u.Within W.part) : (W.lift u).Within W.text := by
  have hsize := W.size_le
  refine ⟨Nat.le_trans (Nat.add_le_add_left hu.pos _) hsize, ?_⟩
  refine List.forall_mem_append.2 ⟨fun e he => ?_, W.within⟩
  obtain ⟨m, hm, rfl⟩ := List.mem_map.1 he
  exact Nat.le_trans (Nat.add_le_add_left (hu.marks m hm) _) hsize

theorem lookup_lift {m : Mark} (hm : ∀ e ∈ W.base, m.renumber W.shift ≠ e.1) :
    (W.lift u).marks.lookup (m.renumber W.shift) = (u.marks.lookup m).map (W.first + ·) := by
  obtain ⟨pos, marks⟩ := u
  simp only [lift]
  induction marks with
  | nil =>
    rw [List.map_nil, List.nil_append, List.lookup_nil, Option.map_none, List.lookup_eq_none_iff]
    intro e he
    simpa using hm e he
  | cons e marks ih =>
    have hinj : (m.renumber W.shift == e.1.renumber W.shift) = (m == e.1) := by
      rw [Bool.eq_iff_iff, beq_iff_eq, beq_iff_eq]
      obtain ⟨e, p⟩ := e
      cases m <;> cases e <;> simp [Mark.renumber]
    rw [List.map_cons, List.cons_append, List.lookup_cons, hinj, List.lookup_cons, ih]
    split <;> rfl

@[simp] theorem span?_lift {i : Nat} : (W.lift u).span? (renumber W.shift i) =
    (u.span? i).map fun s => (W.first + s.1, W.first + s.2) := by
  have hnew : ∀ e ∈ W.base, renumber W.shift i ≠ e.1.index :=
    fun e he => renumber_ne (W.former e he).1 (W.former e he).2
  have ho := lookup_lift (u := u) (m := .opening i) fun e he heq =>
    hnew e he (congrArg Mark.index heq)
  have hc := lookup_lift (u := u) (m := .closing i) fun e he heq =>
    hnew e he (congrArg Mark.index heq)
  simp only [Mark.renumber] at ho hc
  simp only [State.span?, ho, hc]
  cases u.marks.lookup (.opening i) with
  | none => rfl
  | some a =>
    cases u.marks.lookup (.closing i) with
    | none => rfl
    | some b =>
      simp only [Option.map_some, Nat.add_le_add_iff_left]
      split <;> rfl

@[simp] theorem hasMoved_lift {last : Option Nat} :
    (W.lift u).hasMoved (last.map (W.first + ·)) = u.hasMoved last := by
  rw [Bool.eq_iff_iff]
  cases last <;> simp [State.hasMoved]

/-! ### Steps of the part and of the whole -/

/-- The states that count: all those within the part, and with a state all before it. -/
structure Sieve (W : Window) (keep : State → Bool) : Prop where
  within : ∀ u, u.pos ≤ W.part.size → keep (W.lift u) = true
  before : ∀ s t, s.pos ≤ t.pos → keep t = true → keep s = true

/-- Of the states that count, the steps reach the same in the part and in the whole, in one
order. -/
def Follows (W : Window) (keep : State → Bool) (f f' : Steps) : Prop :=
  ∀ u, u.Within W.part → (f (W.lift u)).filter keep = (f' u).map W.lift

/-- States that count and are reached in the whole are reached in the part. -/
def Keeps (W : Window) (keep : State → Bool) (f f' : Steps) : Prop :=
  ∀ u, u.Within W.part → ∀ t ∈ f (W.lift u), keep t = true → ∃ u' ∈ f' u, t = W.lift u'

/-- The steps lead further on, and in the part not out of it. -/
structure Goes (W : Window) (f f' : Steps) : Prop where
  whole : f.Climbs
  part : f'.Along fun s t => s.pos ≤ t.pos ∧ (s.Within W.part → t.Within W.part)

theorem Follows.keeps (h : W.Follows keep f f') : W.Keeps keep f f' := by
  intro u hu t ht hkeep
  have hmem : t ∈ (f (W.lift u)).filter keep := List.mem_filter.2 ⟨ht, hkeep⟩
  rw [h u hu] at hmem
  obtain ⟨u', hu', rfl⟩ := List.mem_map.1 hmem
  exact ⟨u', hu', rfl⟩

theorem flatMap_filter {l : List State} {h : Steps} (hnil : ∀ x ∈ l, keep x = false → h x = []) :
    (l.filter keep).flatMap h = l.flatMap h := by
  induction l with
  | nil => rfl
  | cons x l ih =>
    obtain ⟨hx, hl⟩ := List.forall_mem_cons.1 hnil
    rw [List.filter_cons, List.flatMap_cons]
    split
    · rw [List.flatMap_cons, ih hl]
    · next hk => rw [hx (by simpa using hk), List.nil_append, ih hl]

/-- Steps after steps. -/
theorem Follows.flatMap (hk : W.Sieve keep) (hf : W.Follows keep f f') (hgo : W.Goes f f')
    (hclimb : g.Climbs) (hu : u.Within W.part)
    (hg : ∀ x ∈ f' u, u.pos ≤ x.pos → x.Within W.part →
      (g (W.lift x)).filter keep = (g' x).map W.lift) :
    ((f (W.lift u)).flatMap g).filter keep = ((f' u).flatMap g').map W.lift := by
  have hnil : ∀ x ∈ f (W.lift u), keep x = false → (g x).filter keep = [] := by
    intro x _ hx
    rw [List.filter_eq_nil_iff]
    intro t ht hkeep
    rw [hk.before x t (hclimb ht) hkeep] at hx
    cases hx
  rw [List.filter_flatMap, ← flatMap_filter hnil, hf u hu, List.flatMap_map, List.map_flatMap]
  refine List.flatMap_congr fun x hx => ?_
  obtain ⟨hle, hin⟩ := hgo.part hx
  exact hg x hx hle (hin hu)

theorem Keeps.flatMap (hk : W.Sieve keep) (hf : W.Keeps keep f f') (hgo : W.Goes f f')
    (hclimb : g.Climbs) (hu : u.Within W.part)
    (hg : ∀ x ∈ f' u, u.pos ≤ x.pos → x.Within W.part →
      ∀ t ∈ g (W.lift x), keep t = true → ∃ x' ∈ g' x, t = W.lift x') :
    ∀ t ∈ (f (W.lift u)).flatMap g, keep t = true → ∃ u' ∈ (f' u).flatMap g', t = W.lift u' := by
  intro t ht hkeep
  obtain ⟨s, hs, ht⟩ := List.mem_flatMap.1 ht
  obtain ⟨x, hx, rfl⟩ := hf u hu s hs (hk.before s t (hclimb ht) hkeep)
  obtain ⟨hle, hin⟩ := hgo.part hx
  obtain ⟨x', hx', rfl⟩ := hg x hx hle (hin hu) t ht hkeep
  exact ⟨x', List.mem_flatMap.2 ⟨x, hx, hx'⟩, rfl⟩

/-! ### Turns -/

section Turns

variable {count limit limit' : Nat} {last : Option Nat}

theorem Goes.turnWays (h : W.Goes f f') : W.Goes (turnWays f count) (turnWays f' count) where
  whole := climbs_turnWays h.whole
  part := along_turnWays (fun _ => ⟨Nat.le_refl _, id⟩)
    (fun h h' => ⟨Nat.le_trans h.1 h'.1, fun hs => h'.2 (h.2 hs)⟩) h.part

theorem Follows.turnWays (hk : W.Sieve keep) (hf : W.Follows keep f f') (hgo : W.Goes f f') :
    W.Follows keep (turnWays f count) (turnWays f' count) := by
  induction count with
  | zero =>
    intro u hu
    simp [Expression.turnWays, hk.within u hu.pos]
  | succ count ih =>
    intro u hu
    exact hf.flatMap hk hgo (climbs_turnWays hgo.whole) hu fun x _ _ hx => ih x hx

theorem Keeps.turnWays (hk : W.Sieve keep) (hf : W.Keeps keep f f') (hgo : W.Goes f f') :
    W.Keeps keep (turnWays f count) (turnWays f' count) := by
  induction count with
  | zero =>
    intro u hu t ht _
    exact ⟨u, by simp [Expression.turnWays], List.mem_singleton.1 ht⟩
  | succ count ih =>
    intro u hu
    exact hf.flatMap hk hgo (climbs_turnWays hgo.whole) hu fun x _ _ hx => ih x hx

/-- Two limits leave room for the same turns: they are equal, or greater than what is left of the
part, or no turn can begin. -/
def Room (W : Window) (limit limit' : Nat) (last : Option Nat) (u : State) : Prop :=
  limit = limit' ∨ (W.part.size - u.pos < limit ∧ W.part.size - u.pos < limit') ∨
    u.hasMoved last = false

theorem optionalWays_of_rest {eager : Bool} {s : State} (h : s.hasMoved last = false) :
    optionalWays eager f limit last s = [s] := by
  cases limit <;> cases eager <;> simp [optionalWays, h]

/-- After a turn there is still room. -/
theorem Room.next {x : State} (h : W.Room (limit + 1) (limit' + 1) last u)
    (hmoved : u.hasMoved last = true) (hle : u.pos ≤ x.pos) (hin : x.pos ≤ W.part.size) :
    W.Room limit limit' (some u.pos) x := by
  rcases h with h | ⟨h, h'⟩ | h
  · exact .inl (Nat.succ.inj h)
  · rcases Nat.eq_or_lt_of_le hle with heq | hlt
    · exact .inr (.inr (by simp [State.hasMoved, heq]))
    · exact .inr (.inl ⟨by omega, by omega⟩)
  · rw [hmoved] at h
    cases h

theorem Room.cases (h : W.Room limit limit' last u) (hmoved : u.hasMoved last = true) :
    (limit = 0 ∧ limit' = 0) ∨ ∃ l l', limit = l + 1 ∧ limit' = l' + 1 := by
  rcases h with h | ⟨h, h'⟩ | h
  · cases limit with
    | zero => exact .inl ⟨rfl, h.symm⟩
    | succ l => exact .inr ⟨l, l, rfl, h.symm⟩
  · exact .inr ⟨limit - 1, limit' - 1, by omega, by omega⟩
  · rw [hmoved] at h
    cases h

theorem Room.optionalWays_zero {eager : Bool} (h : W.Room 0 limit' last u) :
    optionalWays eager f' limit' last u = [u] := by
  cases hmoved : u.hasMoved last with
  | false => exact optionalWays_of_rest hmoved
  | true =>
    rcases h.cases hmoved with ⟨_, rfl⟩ | ⟨l, l', hl, _⟩
    · rfl
    · cases hl

theorem Follows.optionalWays {eager : Bool} (hk : W.Sieve keep) (hf : W.Follows keep f f')
    (hgo : W.Goes f f') (hu : u.Within W.part) (hroom : W.Room limit limit' last u) :
    (optionalWays eager f limit (last.map (W.first + ·)) (W.lift u)).filter keep =
      (optionalWays eager f' limit' last u).map W.lift := by
  induction limit generalizing limit' last u with
  | zero =>
    rw [hroom.optionalWays_zero]
    simp [Expression.optionalWays, hk.within u hu.pos]
  | succ limit ih =>
    cases hmoved : u.hasMoved last with
    | false =>
      rw [optionalWays_of_rest hmoved, optionalWays_of_rest (hasMoved_lift.trans hmoved)]
      simp [hk.within u hu.pos]
    | true =>
      rcases hroom.cases hmoved with ⟨h, _⟩ | ⟨l, l', hl, rfl⟩
      · cases h
      · cases hl
        have hturn := hf.flatMap hk hgo (climbs_optionalWays hgo.whole) hu
          fun x _ hle hin => ih hin (hroom.next hmoved hle hin.pos)
        simp only [Option.map_some] at hturn
        cases eager <;>
          simp [Expression.optionalWays, hmoved, hk.within u hu.pos, hturn]

theorem self_mem_optionalWays {eager : Bool} {s : State} :
    s ∈ optionalWays eager f limit last s := by
  cases limit <;> cases eager <;> simp [optionalWays]

theorem Keeps.optionalWays {eager : Bool} (hk : W.Sieve keep) (hf : W.Keeps keep f f')
    (hgo : W.Goes f f') (hu : u.Within W.part) (hroom : W.Room limit limit' last u) :
    ∀ t ∈ optionalWays eager f limit (last.map (W.first + ·)) (W.lift u), keep t = true →
      ∃ u' ∈ optionalWays eager f' limit' last u, t = W.lift u' := by
  induction limit generalizing limit' last u with
  | zero =>
    intro t ht _
    exact ⟨u, self_mem_optionalWays, List.mem_singleton.1 ht⟩
  | succ limit ih =>
    intro t ht hkeep
    rcases mem_optionalWays ht with rfl | ⟨hmoved, hmore⟩
    · exact ⟨u, self_mem_optionalWays, rfl⟩
    · rw [hasMoved_lift] at hmoved
      rcases hroom.cases hmoved with ⟨h, _⟩ | ⟨l, l', hl, rfl⟩
      · cases h
      · cases hl
        obtain ⟨u', hu', rfl⟩ := hf.flatMap hk hgo (climbs_optionalWays hgo.whole) hu
          (fun x _ hle hin => ih hin (hroom.next hmoved hle hin.pos)) t
            (List.mem_flatMap.2 hmore) hkeep
        refine ⟨u', ?_, rfl⟩
        cases eager <;> simp only [Expression.optionalWays, hmoved] <;>
          simp [List.mem_flatMap.1 hu']

/-- The first steps that are made in the whole, if they count, are the first in the part. -/
theorem Follows.run_some (hf : W.Follows keep f f') (hu : u.Within W.part) {t : State}
    (h : f.run some (W.lift u) = some t) (hkeep : keep t = true) :
    ∃ u', f'.run some u = some u' ∧ t = W.lift u' := by
  rw [Expression.run_some, List.head?_eq_some_iff] at h
  obtain ⟨rest, h⟩ := h
  have hfirst := hf u hu
  rw [h, List.filter_cons_of_pos hkeep] at hfirst
  cases hf' : f' u with
  | nil =>
    rw [hf'] at hfirst
    cases hfirst
  | cons u' rest' =>
    rw [hf'] at hfirst
    refine ⟨u', ?_, (List.cons.inj hfirst).1⟩
    rw [Expression.run_some, hf']
    rfl

theorem Follows.run_none (hf : W.Follows keep f f') (hu : u.Within W.part)
    (h : f.run some (W.lift u) = none) : f'.run some u = none := by
  rw [Expression.run_some, List.head?_eq_none_iff] at h ⊢
  have hnone := hf u hu
  rw [h] at hnone
  exact List.map_eq_nil_iff.1 hnone.symm

theorem goes_run (hgo : W.Goes f f') {u' : State} (h : f'.run some u = some u') :
    u.pos ≤ u'.pos ∧ (u.Within W.part → u'.Within W.part) :=
  hgo.part (mem_of_run_some h)

theorem Goes.possessiveExactly (hgo : W.Goes f f') (hu : u.Within W.part) {t : State}
    (h : possessiveExactly f'.run count u = some t) : t.Within W.part := by
  refine along_possessiveExactly (R := fun s t => s.Within W.part → t.Within W.part) (fun _ => id)
    (fun h h' hs => h' (h hs)) (fun _ _ ht => (hgo.part ht).2) h hu

theorem Follows.possessiveExactly (hk : W.Sieve keep) (hf : W.Follows keep f f')
    (hgo : W.Goes f f') (hu : u.Within W.part) {t : State}
    (h : possessiveExactly f.run count (W.lift u) = some t) (hkeep : keep t = true) :
    ∃ u', possessiveExactly f'.run count u = some u' ∧ t = W.lift u' := by
  induction count generalizing u with
  | zero =>
    cases h
    exact ⟨u, rfl, rfl⟩
  | succ count ih =>
    obtain ⟨s, hs, ht⟩ := Option.bind_eq_some_iff.1 h
    have hle := climbs_possessiveExactly hgo.whole ht
    obtain ⟨x, hx, rfl⟩ := hf.run_some hu hs (hk.before _ _ hle hkeep)
    obtain ⟨u', hu', rfl⟩ := ih ((goes_run hgo hx).2 hu) ht
    exact ⟨u', Option.bind_eq_some_iff.2 ⟨x, hx, hu'⟩, rfl⟩

theorem possessiveTurns_of_rest {s : State} (h : s.hasMoved last = false) :
    possessiveTurns f.run limit last s = s := by
  cases limit <;> simp [possessiveTurns, h]

theorem Follows.possessiveTurns (hk : W.Sieve keep) (hf : W.Follows keep f f')
    (hgo : W.Goes f f') (hu : u.Within W.part) (hroom : W.Room limit limit' last u)
    (hkeep : keep (possessiveTurns f.run limit (last.map (W.first + ·)) (W.lift u)) = true) :
    possessiveTurns f.run limit (last.map (W.first + ·)) (W.lift u) =
      W.lift (possessiveTurns f'.run limit' last u) := by
  induction limit generalizing limit' last u with
  | zero =>
    have hrest : Expression.possessiveTurns f'.run limit' last u = u := by
      cases hmoved : u.hasMoved last with
      | false => exact possessiveTurns_of_rest hmoved
      | true =>
        rcases hroom.cases hmoved with ⟨_, rfl⟩ | ⟨l, l', hl, _⟩
        · rfl
        · cases hl
    rw [hrest]
    rfl
  | succ limit ih =>
    cases hmoved : u.hasMoved last with
    | false =>
      rw [possessiveTurns_of_rest hmoved, possessiveTurns_of_rest (hasMoved_lift.trans hmoved)]
    | true =>
      rcases hroom.cases hmoved with ⟨h, _⟩ | ⟨l, l', hl, rfl⟩
      · cases h
      · cases hl
        simp only [Expression.possessiveTurns, hasMoved_lift, hmoved, if_true] at hkeep ⊢
        cases hs : f.run some (W.lift u) with
        | none => rw [hf.run_none hu hs]
        | some s =>
          rw [hs] at hkeep
          have hlater := climbs_possessiveTurns hgo.whole limit (some (W.lift u).pos) s
          obtain ⟨x, hx, rfl⟩ := hf.run_some hu hs (hk.before _ _ hlater hkeep)
          obtain ⟨hup, hin⟩ := goes_run hgo hx
          rw [hx]
          exact ih (hin hu) (hroom.next hmoved hup (hin hu).pos) hkeep

theorem room_turnLimit (least : Nat) (most : Option Nat) (hu : u.Within W.part) :
    W.Room (turnLimit W.text least most (W.lift u)) (turnLimit W.part least most u) none u := by
  have hsize := W.size_le
  have hpos := hu.pos
  cases most with
  | none => exact .inr (.inl ⟨by simp [turnLimit]; omega, by simp [turnLimit]⟩)
  | some n =>
    by_cases hfew : n - least ≤ W.part.size - u.pos + 1
    · refine .inl ?_
      simp only [turnLimit, pos_lift]
      omega
    · refine .inr (.inl ⟨?_, ?_⟩)
      · simp only [turnLimit, pos_lift]
        omega
      · simp only [turnLimit]
        omega

theorem Follows.loopWays {least : Nat} {most : Option Nat} {greed : Greed} (hk : W.Sieve keep)
    (hf : W.Follows keep f f') (hgo : W.Goes f f') (hgreed : greed ≠ .possessive) :
    W.Follows keep (loopWays W.text least most greed f) (loopWays W.part least most greed f') := by
  have hoptional : ∀ eager u, u.Within W.part →
      ((Expression.turnWays f least (W.lift u)).flatMap fun t =>
        Expression.optionalWays eager f (turnLimit W.text least most t) none t).filter keep =
      ((Expression.turnWays f' least u).flatMap fun t =>
        Expression.optionalWays eager f' (turnLimit W.part least most t) none t).map W.lift := by
    intro eager u hu
    exact (hf.turnWays hk hgo).flatMap hk hgo.turnWays
      (fun _ _ ht => climbs_optionalWays hgo.whole ht)
      hu fun x _ _ hx => hf.optionalWays hk hgo hx (room_turnLimit _ _ hx)
  intro u hu
  cases greed with
  | greedy => exact hoptional true u hu
  | lazy => exact hoptional false u hu
  | possessive => exact absurd rfl hgreed

theorem Keeps.loopWays {least : Nat} {most : Option Nat} {greed : Greed} (hk : W.Sieve keep)
    (hf : W.Keeps keep f f') (hgo : W.Goes f f') (hgreed : greed ≠ .possessive) :
    W.Keeps keep (loopWays W.text least most greed f) (loopWays W.part least most greed f') := by
  have hoptional : ∀ eager u, u.Within W.part →
      ∀ t ∈ (Expression.turnWays f least (W.lift u)).flatMap fun t =>
        Expression.optionalWays eager f (turnLimit W.text least most t) none t, keep t = true →
      ∃ u' ∈ (Expression.turnWays f' least u).flatMap fun t =>
        Expression.optionalWays eager f' (turnLimit W.part least most t) none t, t = W.lift u' := by
    intro eager u hu
    exact (hf.turnWays hk hgo).flatMap hk hgo.turnWays
      (fun _ _ ht => climbs_optionalWays hgo.whole ht)
      hu fun x _ _ hx => hf.optionalWays hk hgo hx (room_turnLimit _ _ hx)
  intro u hu
  cases greed with
  | greedy => exact hoptional true u hu
  | lazy => exact hoptional false u hu
  | possessive => exact absurd rfl hgreed

/-- Turns that are not given back are kept where single turns agree. -/
theorem Follows.keeps_possessive {least : Nat} {most : Option Nat} (hk : W.Sieve keep)
    (hf : W.Follows keep f f') (hgo : W.Goes f f') :
    W.Keeps keep (Expression.loopWays W.text least most .possessive f)
      (Expression.loopWays W.part least most .possessive f') := by
  intro u hu t ht hkeep
  simp only [Expression.loopWays] at ht ⊢
  cases hs : Expression.possessiveExactly f.run least (W.lift u) with
  | none => simp [hs] at ht
  | some s =>
    rw [hs] at ht
    obtain rfl := List.mem_singleton.1 ht
    have hlater := climbs_possessiveTurns hgo.whole (turnLimit W.text least most s) none s
    obtain ⟨x, hx, rfl⟩ := hf.possessiveExactly hk hgo hu hs (hk.before _ _ hlater hkeep)
    have hin := hgo.possessiveExactly hu hx
    rw [hx]
    exact ⟨_, List.mem_singleton_self _, hf.possessiveTurns hk hgo hin (room_turnLimit _ _ hin)
      hkeep⟩

end Turns

/-! ### Exact agreement -/

theorem sieve_true : W.Sieve fun _ => true :=
  ⟨fun _ _ => rfl, fun _ _ _ _ => rfl⟩

/-- The steps reach the same states in the part and in the whole. -/
def Agrees (W : Window) (f f' : Steps) : Prop :=
  W.Follows (fun _ => true) f f'

theorem Agrees.eq (h : W.Agrees f f') (hu : u.Within W.part) :
    f (W.lift u) = (f' u).map W.lift := by
  rw [← h u hu]
  simp

theorem Agrees.follows (hk : W.Sieve keep) (h : W.Agrees f f') (hgo : W.Goes f f') :
    W.Follows keep f f' := by
  intro u hu
  rw [h.eq hu, List.filter_eq_self]
  intro t ht
  obtain ⟨u', hu', rfl⟩ := List.mem_map.1 ht
  exact hk.within u' ((hgo.part hu').2 hu).pos

theorem Agrees.run_some (h : W.Agrees f f') (hu : u.Within W.part) :
    f.run some (W.lift u) = (f'.run some u).map W.lift := by
  rw [Expression.run_some, Expression.run_some, h.eq hu, List.head?_map]

theorem Agrees.possessiveExactly {count : Nat} (h : W.Agrees f f') (hgo : W.Goes f f')
    (hu : u.Within W.part) : possessiveExactly f.run count (W.lift u) =
      (possessiveExactly f'.run count u).map W.lift := by
  induction count generalizing u with
  | zero => rfl
  | succ count ih =>
    simp only [Expression.possessiveExactly, h.run_some hu]
    cases hx : f'.run some u with
    | none => rfl
    | some x => exact ih ((goes_run hgo hx).2 hu)

theorem Agrees.loopWays {least : Nat} {most : Option Nat} {greed : Greed} (h : W.Agrees f f')
    (hgo : W.Goes f f') :
    W.Agrees (loopWays W.text least most greed f) (loopWays W.part least most greed f') := by
  cases greed with
  | greedy => exact Follows.loopWays sieve_true h hgo (by simp)
  | lazy => exact Follows.loopWays sieve_true h hgo (by simp)
  | possessive =>
    intro u hu
    simp only [Expression.loopWays, h.possessiveExactly hgo hu, List.filter_true]
    cases hx : Expression.possessiveExactly f'.run least u with
    | none => rfl
    | some x =>
      have hin := hgo.possessiveExactly hu hx
      have hturns := Follows.possessiveTurns sieve_true h hgo hin
        (room_turnLimit least most hin) rfl
      simpa using hturns

end Window

end UrlRouting.Expression
