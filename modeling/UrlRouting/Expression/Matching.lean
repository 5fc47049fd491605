import UrlRouting.Expression.CharTest

/-! Matching by backtracking. An expression turns what has to match after it into what has to match
from its own beginning; the first way that leads to the end wins. Groups keep where they were
last entered and left. -/
namespace UrlRouting.Expression

/-- The two ends of a group. -/
inductive Mark
  | opening (group : Nat)
  | closing (group : Nat)
  deriving DecidableEq, Repr

/-- A position in the text and the marks set on the way there, the latest first. -/
structure State where
  pos : Nat
  marks : List (Mark × Nat)
  deriving DecidableEq, Repr

namespace State

def start : State := ⟨0, []⟩

def mark (s : State) (m : Mark) : State :=
  { s with marks := (m, s.pos) :: s.marks }

def move (s : State) (count : Nat) : State :=
  { s with pos := s.pos + count }

/-- The text of a group: from where it was last entered to where it was last left. While a group
is matched anew, the end may lie before the beginning, and then there is no text. -/
def span? (s : State) (group : Nat) : Option (Nat × Nat) :=
  match s.marks.lookup (.opening group), s.marks.lookup (.closing group) with
  | some first, some last => if first ≤ last then some (first, last) else none
  | _, _ => none

end State

/-- What has to match from a state on, with the final state if it does. -/
abbrev Goal := State → Option State

abbrev Subject := Array Char

namespace Anchor

def isWordAt (text : Subject) (asciiOnly : Bool) (pos : Nat) : Bool :=
  match text[pos]? with
  | some c => Category.word.holds asciiOnly c.toNat
  | none => false

def wordBefore (text : Subject) (asciiOnly : Bool) : Nat → Bool
  | 0 => false
  | pos + 1 => isWordAt text asciiOnly pos

/-- In an empty text a place is neither at the edge of a word nor away from one. -/
def holds (text : Subject) (pos : Nat) : Anchor → Bool
  | textStart => pos == 0
  | lineStart => pos == 0 || text[pos - 1]? == some '\n'
  | lastLineEnd => pos == text.size || (pos + 1 == text.size && text[pos]? == some '\n')
  | lineEnd => pos == text.size || text[pos]? == some '\n'
  | textEnd => pos == text.size
  | wordEdge asciiOnly =>
    !text.isEmpty && wordBefore text asciiOnly pos != isWordAt text asciiOnly pos
  | noWordEdge asciiOnly =>
    !text.isEmpty && wordBefore text asciiOnly pos == isWordAt text asciiOnly pos

end Anchor

/-- How many characters from `pos` on pass a test, counting no further than `limit`. -/
def runLength (text : Subject) (test : CharTest) : (limit pos : Nat) → Nat
  | 0, _ => 0
  | limit + 1, pos => match text[pos]? with
    | some c => if test.accepts c then runLength text test limit (pos + 1) + 1 else 0
    | none => 0

/-- Tries `least + extra` characters first, then ever fewer down to `least`. -/
def longestFirst (goal : Goal) (s : State) (least : Nat) : (extra : Nat) → Option State
  | 0 => goal (s.move least)
  | extra + 1 => match goal (s.move (least + extra + 1)) with
    | some t => some t
    | none => longestFirst goal s least extra

/-- Tries `count` characters first, then ever more, `extra` at most. -/
def shortestFirst (goal : Goal) (s : State) : (count extra : Nat) → Option State
  | count, 0 => goal (s.move count)
  | count, extra + 1 => match goal (s.move count) with
    | some t => some t
    | none => shortestFirst goal s (count + 1) extra

def runMany (text : Subject) (least : Nat) (most : Option Nat) (greed : Greed) (test : CharTest)
    (goal : Goal) (s : State) : Option State :=
  let room := text.size - s.pos
  let count := runLength text test (min room (most.getD room)) s.pos
  if count < least then none
  else match greed with
    | .greedy => longestFirst goal s least (count - least)
    | .lazy => shortestFirst goal s least (count - least)
    | .possessive => goal (s.move count)

/-- Exactly `count` turns. -/
def turns (body : Goal → Goal) : (count : Nat) → Goal → Goal
  | 0, goal => goal
  | count + 1, goal => body (turns body count goal)

/-- Another turn has moved since the last one began. -/
def State.hasMoved (s : State) (last : Option Nat) : Bool :=
  last != some s.pos

/-- As many turns as possible first, `limit` at most. No turn begins where the last one began. -/
def greedyTurns (body : Goal → Goal) (goal : Goal) : (limit : Nat) → (last : Option Nat) → Goal
  | 0, _, s => goal s
  | limit + 1, last, s =>
    if s.hasMoved last then
      match body (greedyTurns body goal limit (some s.pos)) s with
      | some t => some t
      | none => goal s
    else goal s

/-- As few turns as possible first. -/
def lazyTurns (body : Goal → Goal) (goal : Goal) : (limit : Nat) → (last : Option Nat) → Goal
  | 0, _, s => goal s
  | limit + 1, last, s => match goal s with
    | some t => some t
    | none =>
      if s.hasMoved last then body (lazyTurns body goal limit (some s.pos)) s else none

/-- The state after as many turns as possible, each matched in its first way only. -/
def possessiveTurns (body : Goal → Goal) : (limit : Nat) → (last : Option Nat) → State → State
  | 0, _, s => s
  | limit + 1, last, s =>
    if s.hasMoved last then
      match body some s with
      | some t => possessiveTurns body limit (some s.pos) t
      | none => s
    else s

/-- Turns that are each matched in their first way only. -/
def possessiveExactly (body : Goal → Goal) : (count : Nat) → Goal
  | 0, s => some s
  | count + 1, s => (body some s).bind (possessiveExactly body count)

/-- How many optional turns can begin from a state on: each begins further on than the one before,
so the room that is left bounds them. -/
def turnLimit (text : Subject) (least : Nat) (most : Option Nat) (s : State) : Nat :=
  let room := text.size - s.pos + 1
  match most with
  | some n => min (n - least) room
  | none => room

def runLoop (text : Subject) (least : Nat) (most : Option Nat) (greed : Greed)
    (body : Goal → Goal) (goal : Goal) : Goal :=
  match greed with
  | .greedy =>
    turns body least fun s => greedyTurns body goal (turnLimit text least most s) none s
  | .lazy =>
    turns body least fun s => lazyTurns body goal (turnLimit text least most s) none s
  | .possessive => fun s => match possessiveExactly body least s with
    | some t => goal (possessiveTurns body (turnLimit text least most t) none t)
    | none => none

/-- The characters from `first` on are those from `pos` on. -/
def sameText (text : Subject) (f : Folding) : (count first pos : Nat) → Bool
  | 0, _, _ => true
  | count + 1, first, pos => match text[first]?, text[pos]? with
    | some c, some d =>
      f.apply c.toNat == f.apply d.toNat && sameText text f count (first + 1) (pos + 1)
    | _, _ => false

/-- What an expression asks of the place where it begins, given what is asked after it. -/
def Node.run (text : Subject) : Node → Goal → Goal
  | .empty, goal => goal
  | .char test, goal => fun s => match text[s.pos]? with
    | some c => if test.accepts c then goal (s.move 1) else none
    | none => none
  | .anchor a, goal => fun s => if a.holds text s.pos then goal s else none
  | .again index f, goal => fun s => match s.span? index with
    | some (first, last) =>
      if sameText text f (last - first) first s.pos then goal (s.move (last - first)) else none
    | none => none
  | .seq a b, goal => a.run text (b.run text goal)
  | .alt a b, goal => fun s => match a.run text goal s with
    | some t => some t
    | none => b.run text goal s
  | .group index body, goal => fun s =>
    body.run text (fun t => goal (t.mark (.closing index))) (s.mark (.opening index))
  | .many least most greed test, goal => runMany text least most greed test goal
  | .loop least most greed body, goal => runLoop text least most greed (body.run text) goal
  | .atomic body, goal => fun s => (body.run text some s).bind goal
  | .ahead negated body, goal => fun s => match body.run text some s with
    | some t => if negated then none else goal { t with pos := s.pos }
    | none => if negated then goal s else none
  | .behind negated width body, goal => fun s =>
    let found :=
      if width.least ≤ s.pos then body.run text some { s with pos := s.pos - width.least } else none
    match found with
    | some t => if negated then none else goal { t with pos := s.pos }
    | none => if negated then goal s else none
  | .whether index yes no, goal => fun s =>
    if (s.span? index).isSome then yes.run text goal s else no.run text goal s

/-- The expression matches the text as a whole. -/
def Node.fullMatch (node : Node) (text : Subject) : Option State :=
  node.run text (fun s => if s.pos == text.size then some s else none) .start

end UrlRouting.Expression
