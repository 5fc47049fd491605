import UrlRouting.Proofs.Expression.Matching

/-! All the ways in which an expression matches from a state on, in the order in which they are
tried. Matching takes the first one that leads to the goal. -/
namespace UrlRouting.Expression

/-- The states that are reached from a state. -/
abbrev Steps := State → List State

variable {text : Subject} {goal : Goal} {s t : State} {f : Steps} {n : Node}

/-- What matching asks for along steps: the first state from which the goal is reached. -/
def Steps.run (f : Steps) : Goal → Goal :=
  fun goal s => (f s).findSome? goal

/-- The numbers of characters that are tried, from `least` on. -/
def counts (least extra : Nat) : Greed → List Nat
  | .greedy => (List.range' least (extra + 1)).reverse
  | .lazy => List.range' least (extra + 1)
  | .possessive => [least + extra]

def manyWays (text : Subject) (least : Nat) (most : Option Nat) (greed : Greed) (test : CharTest) :
    Steps := fun s =>
  let room := text.size - s.pos
  let count := runLength text test (min room (most.getD room)) s.pos
  if count < least then [] else (counts least (count - least) greed).map s.move

def turnWays (f : Steps) : (count : Nat) → Steps
  | 0, s => [s]
  | count + 1, s => (f s).flatMap (turnWays f count)

/-- Optional turns, `limit` at most: more turns are tried first if `eager`, or else last. -/
def optionalWays (eager : Bool) (f : Steps) : (limit : Nat) → (last : Option Nat) → Steps
  | 0, _, s => [s]
  | limit + 1, last, s =>
    let more :=
      if s.hasMoved last then (f s).flatMap (optionalWays eager f limit (some s.pos)) else []
    if eager then more ++ [s] else s :: more

def loopWays (text : Subject) (least : Nat) (most : Option Nat) (greed : Greed) (f : Steps) :
    Steps := fun s =>
  let optional eager t := optionalWays eager f (turnLimit text least most t) none t
  match greed with
  | .greedy => (turnWays f least s).flatMap (optional true)
  | .lazy => (turnWays f least s).flatMap (optional false)
  | .possessive => match possessiveExactly f.run least s with
    | some t => [possessiveTurns f.run (turnLimit text least most t) none t]
    | none => []

/-- Whether steps can be made, and the state to go on from if they have to be. -/
def probe (negated : Bool) (s : State) : Option State → List State
  | some t => if negated then [] else [{ t with pos := s.pos }]
  | none => if negated then [s] else []

def Node.ways (text : Subject) : Node → Steps
  | .empty, s => [s]
  | .char test, s => match text[s.pos]? with
    | some c => if test.accepts c then [s.move 1] else []
    | none => []
  | .anchor a, s => if a.holds text s.pos then [s] else []
  | .again index f, s => match s.span? index with
    | some (first, last) =>
      if sameText text f (last - first) first s.pos then [s.move (last - first)] else []
    | none => []
  | .seq a b, s => (a.ways text s).flatMap (b.ways text)
  | .alt a b, s => a.ways text s ++ b.ways text s
  | .group index body, s =>
    (body.ways text (s.mark (.opening index))).map fun t => t.mark (.closing index)
  | .many least most greed test, s => manyWays text least most greed test s
  | .loop least most greed body, s => loopWays text least most greed (body.ways text) s
  | .atomic body, s => (body.ways text s).head?.toList
  | .ahead negated body, s => probe negated s (body.ways text s).head?
  | .behind negated width body, s => probe negated s <|
    if width.least ≤ s.pos then (body.ways text { s with pos := s.pos - width.least }).head?
    else none
  | .whether index yes no, s =>
    if (s.span? index).isSome then yes.ways text s else no.ways text s

/-! ### Matching takes the first way -/

theorem findSome?_flatMap {α β γ : Type} {l : List α} {f : α → List β} {g : β → Option γ} :
    (l.flatMap f).findSome? g = l.findSome? fun x => (f x).findSome? g := by
  induction l with
  | nil => rfl
  | cons x l ih =>
    rw [List.flatMap_cons, List.findSome?_append, ih, List.findSome?_cons]
    cases (f x).findSome? g <;> rfl

theorem run_some : f.run some s = (f s).head? := by
  rw [Steps.run]
  cases f s <;> rfl

theorem counts_greedy_succ (least extra : Nat) :
    counts least (extra + 1) .greedy = (least + extra + 1) :: counts least extra .greedy := by
  simp only [counts]
  rw [List.range'_concat, List.reverse_append]
  simp [Nat.add_assoc]

theorem longestFirst_eq {least extra : Nat} :
    longestFirst goal s least extra = ((counts least extra .greedy).map s.move).findSome? goal := by
  induction extra with
  | zero =>
    simp only [longestFirst, counts]
    cases h : goal (s.move least) <;> simp [h]
  | succ extra ih =>
    rw [longestFirst, ih, counts_greedy_succ, List.map_cons, List.findSome?_cons]
    cases goal (s.move (least + extra + 1)) <;> rfl

theorem shortestFirst_eq {count extra : Nat} :
    shortestFirst goal s count extra = ((counts count extra .lazy).map s.move).findSome? goal := by
  induction extra generalizing count with
  | zero =>
    simp only [shortestFirst, counts]
    cases h : goal (s.move count) <;> simp [h]
  | succ extra ih =>
    have hcounts : counts count (extra + 1) .lazy = count :: counts (count + 1) extra .lazy :=
      List.range'_succ
    rw [shortestFirst, ih, hcounts, List.map_cons, List.findSome?_cons]
    cases goal (s.move count) <;> rfl

theorem runMany_eq {least : Nat} {most : Option Nat} {greed : Greed} {test : CharTest} :
    runMany text least most greed test goal s =
      (manyWays text least most greed test s).findSome? goal := by
  simp only [runMany, manyWays]
  split
  · rfl
  · next hle =>
    cases greed with
    | greedy => exact longestFirst_eq
    | lazy => exact shortestFirst_eq
    | possessive =>
      simp only [counts]
      rw [Nat.add_sub_cancel' (by omega)]
      cases h : goal (s.move _) <;> simp [h]

theorem turns_run {count : Nat} :
    turns f.run count goal s = (turnWays f count s).findSome? goal := by
  induction count generalizing s with
  | zero => cases h : goal s <;> simp [turns, turnWays, h]
  | succ count ih =>
    have hrest : turns f.run count goal = fun t => (turnWays f count t).findSome? goal :=
      funext fun _ => ih
    rw [turns, turnWays, findSome?_flatMap, hrest]
    rfl

theorem greedyTurns_run {limit : Nat} {last : Option Nat} :
    greedyTurns f.run goal limit last s = (optionalWays true f limit last s).findSome? goal := by
  induction limit generalizing last s with
  | zero => cases h : goal s <;> simp [greedyTurns, optionalWays, h]
  | succ limit ih =>
    have hrest : greedyTurns f.run goal limit (some s.pos) =
        fun t => (optionalWays true f limit (some s.pos) t).findSome? goal := funext fun _ => ih
    simp only [greedyTurns, optionalWays, hrest, if_true, List.findSome?_append]
    split
    · rw [findSome?_flatMap]
      change (match (f s).findSome? _ with | some t => some t | none => goal s) = _
      cases (f s).findSome? fun t => (optionalWays true f limit (some s.pos) t).findSome? goal with
      | some t => rfl
      | none => cases h : goal s <;> simp [h]
    · cases h : goal s <;> simp [h]

theorem lazyTurns_run {limit : Nat} {last : Option Nat} :
    lazyTurns f.run goal limit last s = (optionalWays false f limit last s).findSome? goal := by
  induction limit generalizing last s with
  | zero => cases h : goal s <;> simp [lazyTurns, optionalWays, h]
  | succ limit ih =>
    have hrest : lazyTurns f.run goal limit (some s.pos) =
        fun t => (optionalWays false f limit (some s.pos) t).findSome? goal := funext fun _ => ih
    simp only [lazyTurns, optionalWays, hrest, Bool.false_eq_true, if_false, List.findSome?_cons]
    cases goal s with
    | some t => rfl
    | none =>
      dsimp only
      split
      · rw [findSome?_flatMap]
        rfl
      · rfl

theorem runLoop_run {least : Nat} {most : Option Nat} {greed : Greed} :
    runLoop text least most greed f.run goal s =
      (loopWays text least most greed f s).findSome? goal := by
  cases greed with
  | greedy =>
    simp only [runLoop, loopWays, turns_run, findSome?_flatMap, greedyTurns_run]
  | lazy =>
    simp only [runLoop, loopWays, turns_run, findSome?_flatMap, lazyTurns_run]
  | possessive =>
    simp only [runLoop, loopWays]
    cases possessiveExactly f.run least s with
    | none => rfl
    | some t =>
      cases h : goal (possessiveTurns f.run (turnLimit text least most t) none t) <;> simp [h]

theorem findSome?_probe {negated : Bool} {found : Option State} :
    (match found with
      | some t => if negated then none else goal { t with pos := s.pos }
      | none => if negated then goal s else none) = (probe negated s found).findSome? goal := by
  cases found with
  | some t =>
    cases negated with
    | true => rfl
    | false => cases h : goal { t with pos := s.pos } <;> simp [probe, h]
  | none =>
    cases negated with
    | true => cases h : goal s <;> simp [probe, h]
    | false => rfl

theorem run_eq (n : Node) : n.run text = (n.ways text).run := by
  induction n with
  | empty =>
    funext goal s
    cases h : goal s <;> simp [Node.run, Node.ways, Steps.run, h]
  | char test =>
    funext goal s
    simp only [Node.run, Node.ways, Steps.run]
    cases text[s.pos]? with
    | none => rfl
    | some c =>
      dsimp only
      split
      · cases h : goal (s.move 1) <;> simp [h]
      · rfl
  | anchor a =>
    funext goal s
    simp only [Node.run, Node.ways, Steps.run]
    split
    · cases h : goal s <;> simp [h]
    · rfl
  | again i f =>
    funext goal s
    simp only [Node.run, Node.ways, Steps.run]
    cases s.span? i with
    | none => rfl
    | some span =>
      dsimp only
      split
      · cases h : goal (s.move (span.2 - span.1)) <;> simp [h]
      · rfl
  | seq a b iha ihb =>
    funext goal s
    simp only [Node.run, Node.ways, iha, ihb, Steps.run, findSome?_flatMap]
    rfl
  | alt a b iha ihb =>
    funext goal s
    simp only [Node.run, Node.ways, iha, ihb, Steps.run, List.findSome?_append]
    cases (a.ways text s).findSome? goal <;> rfl
  | group i body ih =>
    funext goal s
    simp only [Node.run, Node.ways, ih, Steps.run, List.findSome?_map]
    rfl
  | many least most greed test =>
    funext goal s
    exact runMany_eq
  | loop least most greed body ih =>
    funext goal s
    simp only [Node.run, ih]
    exact runLoop_run
  | atomic body ih =>
    funext goal s
    simp only [Node.run, Node.ways, ih, run_some]
    change (body.ways text s).head?.bind goal = (body.ways text s).head?.toList.findSome? goal
    cases (body.ways text s).head? with
    | none => rfl
    | some t => cases h : goal t <;> simp [h]
  | ahead negated body ih =>
    funext goal s
    simp only [Node.run, Node.ways, ih, run_some]
    exact findSome?_probe
  | behind negated width body ih =>
    funext goal s
    simp only [Node.run, Node.ways, ih, run_some]
    exact findSome?_probe
  | whether i yes no ihy ihn =>
    funext goal s
    simp only [Node.run, Node.ways, ihy, ihn, Steps.run]
    split <;> rfl

/-- What is found lies on one of the ways. -/
theorem exists_way (h : n.run text goal s = some t) : ∃ u ∈ n.ways text s, goal u = some t := by
  rw [run_eq, Steps.run] at h
  exact List.exists_of_findSome?_eq_some h

/-- The match of a whole text is a way that leads to its end. -/
theorem mem_ways_of_fullMatch (h : n.fullMatch text = some t) :
    t ∈ n.ways text .start ∧ t.pos = text.size := by
  obtain ⟨u, hu, hend⟩ := exists_way h
  split at hend
  · next hpos =>
    cases hend
    exact ⟨hu, by simpa using hpos⟩
  · cases hend

/-- Where a way leads to the goal, something is found. -/
theorem isSome_run {u : State} (hu : u ∈ n.ways text s) (hgoal : (goal u).isSome) :
    (n.run text goal s).isSome := by
  rw [run_eq, Steps.run, List.findSome?_isSome_iff]
  exact ⟨u, hu, hgoal⟩

/-! ### Sequences and choices -/

theorem mem_ways_append {ns ms : List Node} : t ∈ (Node.ofList (ns ++ ms)).ways text s ↔
    ∃ u ∈ (Node.ofList ns).ways text s, t ∈ (Node.ofList ms).ways text u := by
  induction ns generalizing s with
  | nil => exact ⟨fun h => ⟨s, List.mem_singleton_self s, h⟩,
      fun ⟨u, hu, h⟩ => List.mem_singleton.1 hu ▸ h⟩
  | cons n ns ih =>
    constructor
    · intro h
      obtain ⟨v, hv, h⟩ := List.mem_flatMap.1 h
      obtain ⟨u, hu, h⟩ := ih.1 h
      exact ⟨u, List.mem_flatMap.2 ⟨v, hv, hu⟩, h⟩
    · rintro ⟨u, hu, h⟩
      obtain ⟨v, hv, hu⟩ := List.mem_flatMap.1 hu
      exact List.mem_flatMap.2 ⟨v, hv, ih.2 ⟨u, hu, h⟩⟩

theorem mem_ways_anyOf {ns : List Node} (hne : ns ≠ []) :
    t ∈ (Node.anyOf ns).ways text s ↔ ∃ n ∈ ns, t ∈ n.ways text s := by
  induction ns with
  | nil => exact absurd rfl hne
  | cons n ns ih =>
    cases ns with
    | nil => simp [Node.anyOf]
    | cons m ns =>
      have hcons : (Node.anyOf (n :: m :: ns)).ways text s =
          n.ways text s ++ (Node.anyOf (m :: ns)).ways text s := rfl
      rw [hcons, List.mem_append, ih (by simp)]
      simp

end UrlRouting.Expression
