import UrlRouting.Proofs.Expression.Constructs
import UrlRouting.Proofs.Expression.Numbering
import UrlRouting.Proofs.Expression.Renumbering

/-! Reading a text inside a group. The reader goes through the text as it does when the text stands
alone, with the open groups below its own frames and with other numbers for its groups. -/
namespace UrlRouting.Expression

/-- The place of a text inside a group: what has been read before it, and the closing parenthesis
that follows it. -/
structure Enclosure where
  /-- The number of characters before the text. -/
  before : Nat
  after : List Token
  closes : after.head? = some (.plain ')')
  groups : GroupTable
  next_pos : 1 ≤ groups.next
  closed_lt : ∀ w ∈ groups.closed, 1 ≤ w.1 ∧ w.1 < groups.next
  no_lookbehind : groups.lookbehind = none
  /-- The kind of the group around the text. -/
  kind : FrameKind
  no_condition : ∀ group yes, kind ≠ .whether group yes
  start : Nat
  outer : List Frame

namespace Reading

/-- The token is an escape for a group, by the number of that group. -/
def isNumbered (r : Reading) (t : Token) : Bool :=
  match t, r.source.skip with
  | .escaped c, .ok s =>
    match Escape.read r.groups r.frame.mode.asciiOnly c r.source.pos s with
    | .ok (.group _, _) => true
    | _ => false
  | _, _ => false

end Reading

namespace Enclosure

variable (e : Enclosure)

theorem fenced : Source.Fenced e.after :=
  ⟨')', by decide, e.closes⟩

/-- The number of groups in front. -/
def shift : Nat := e.groups.next - 1

def kindOf : FrameKind → FrameKind
  | .capture index => .capture (renumber e.shift index)
  | .behind negated outer => .behind negated (outer.map (renumber e.shift))
  | .whether group yes =>
    .whether (renumber e.shift group) (yes.map (List.map (Piece.renumber e.shift)))
  | kind => kind

def member : Member → Member
  | .piece p => .piece (p.renumber e.shift)
  | .bundle ps => .bundle (ps.map (Piece.renumber e.shift))

/-- The frame of the text itself becomes that of the group around it. -/
def frame (isLowest : Bool) (f : Frame) : Frame where
  kind := if isLowest then e.kind else e.kindOf f.kind
  start := if isLowest then e.start else f.start + e.before
  mode := f.mode
  branches := f.branches.map (List.map (Piece.renumber e.shift))
  members := f.members.map e.member

def frames : List Frame → List Frame
  | [] => e.outer
  | f :: outer => e.frame outer.isEmpty f :: frames outer

def names (own : List (String × Nat)) : List (String × Nat) :=
  e.groups.names ++ own.map fun n => (n.1, renumber e.shift n.2)

def table (g : GroupTable) : GroupTable where
  next := g.next + e.shift
  names := e.names g.names
  closed := Node.renumberWidths e.shift g.closed ++ e.groups.closed
  lookbehind := g.lookbehind.map (renumber e.shift)

def source (s : Source) : Source :=
  s.within e.before e.after

end Enclosure

/-- A reading of the text as it goes on inside the group. -/
def Reading.within (e : Enclosure) (conditions : List (Nat × Nat)) (r : Reading) : Reading where
  source := e.source r.source
  groups := e.table r.groups
  conditions := conditions
  frame := e.frame r.outer.isEmpty r.frame
  outer := e.frames r.outer

namespace Enclosure

variable {e : Enclosure} {r r' : Reading} {s t : Source} {conditions : List (Nat × Nat)}

/-- No name of a group in front is given to a group of the text. -/
def Avoids (e : Enclosure) (r : Reading) : Prop :=
  ∀ n ∈ r.groups.names, e.groups.names.lookup n.1 = none

theorem closed_le (e : Enclosure) : ∀ w ∈ e.groups.closed, 1 ≤ w.1 ∧ w.1 ≤ e.shift := by
  intro w hw
  have := e.closed_lt w hw
  simp only [shift]
  omega

theorem width_renumber (g : GroupTable) (n : Node) :
    (n.renumber e.shift).width (e.table g).closed = n.width g.closed :=
  Node.width_renumber e.closed_le n

theorem isClosed_table (g : GroupTable) (index : Nat) :
    (e.table g).isClosed (renumber e.shift index) = g.isClosed index := by
  simp [GroupTable.isClosed, table, Node.lookup_renumberWidths e.closed_le]

theorem lookup_map_renumber (own : List (String × Nat)) (name : String) :
    (own.map fun n => (n.1, renumber e.shift n.2)).lookup name =
      (own.lookup name).map (renumber e.shift) := by
  induction own with
  | nil => rfl
  | cons n own ih =>
    obtain ⟨other, i⟩ := n
    cases h : name == other <;> simp [List.lookup_cons, h, ih]

theorem lookup_names (own : List (String × Nat)) {name : String}
    (h : e.groups.names.lookup name = none) :
    (e.names own).lookup name = (own.lookup name).map (renumber e.shift) := by
  rw [names, List.lookup_append, h, lookup_map_renumber]
  rfl

theorem lookup_names_of_mem {own : List (String × Nat)} {name : String} {index : Nat}
    (ha : ∀ n ∈ own, e.groups.names.lookup n.1 = none) (h : own.lookup name = some index) :
    (e.names own).lookup name = some (renumber e.shift index) := by
  rw [lookup_names own, h]
  · rfl
  · obtain ⟨xs, ys, rfl, _⟩ := List.lookup_eq_some_iff.1 h
    exact ha (name, index) (by simp)

theorem checkLookbehind_table (g : GroupTable) (index pos pos' : Nat)
    (h : g.checkLookbehind index pos = .ok ()) :
    (e.table g).checkLookbehind (renumber e.shift index) pos' = .ok () := by
  unfold GroupTable.checkLookbehind at h ⊢
  cases hl : g.lookbehind with
  | none => simp [table, hl, pure, Except.pure]
  | some limit =>
    have hl' : (e.table g).lookbehind = some (renumber e.shift limit) := by simp [table, hl]
    simp only [hl, hl', isClosed_table, renumber_le_iff] at h ⊢
    split at h
    · cases h
    · rw [if_neg ‹_›]
      split at h
      · cases h
      · rw [if_neg ‹_›]
        rfl

theorem pieces_member (m : Member) :
    (e.member m).pieces = m.pieces.map (Piece.renumber e.shift) := by
  cases m <;> rfl

theorem sequence_frame (isLowest : Bool) (f : Frame) :
    (e.frame isLowest f).sequence = f.sequence.map (Piece.renumber e.shift) := by
  simp only [Frame.sequence, frame, ← List.map_reverse, List.flatMap_map, List.map_flatMap,
    pieces_member]

theorem pieces_frame (isLowest : Bool) (f : Frame) :
    (e.frame isLowest f).pieces = f.pieces.map (Piece.renumber e.shift) := by
  rw [Frame.pieces, Frame.pieces, ← alternatives_renumber, sequence_frame]
  simp [frame]

theorem body_frame (isLowest : Bool) (f : Frame) :
    (e.frame isLowest f).body = f.body.renumber e.shift := by
  rw [Frame.body, Frame.body, pieces_frame, Piece.map_node_renumber, Node.ofList_map_renumber]

end Enclosure

end UrlRouting.Expression
