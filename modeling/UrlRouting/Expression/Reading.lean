import UrlRouting.Expression.CharClass
import UrlRouting.Expression.Piece
import UrlRouting.Text.Identifier
import UrlRouting.Text.Integer

/-! Reading an expression, one construct at a time. What is open — the expression itself and the
groups around the place that has been reached — lies on a stack of frames. -/
namespace UrlRouting.Expression

/-- A member of the sequence that is being read. -/
inductive Member
  | piece (p : Piece)
  /-- A group that only holds its pieces together for a repetition after it. -/
  | bundle (pieces : List Piece)

namespace Member

def pieces : Member → List Piece
  | piece p => [p]
  | bundle ps => ps

end Member

/-- What a frame becomes when it is closed. -/
inductive FrameKind
  | whole
  | plain
  /-- A group with switches of its own. -/
  | switched
  | capture (index : Nat)
  | atomic
  | ahead (negated : Bool)
  | behind (negated : Bool) (outerLookbehind : Option Nat)
  /-- `yes` is the first branch, once it is complete. -/
  | whether (group : Nat) (yes : Option (List Piece))

structure Frame where
  kind : FrameKind
  /-- The position of the opening parenthesis. -/
  start : Nat
  mode : Mode
  branches : List (List Piece)
  /-- The members of the present branch, the last one first. -/
  members : List Member

namespace Frame

def opened (kind : FrameKind) (start : Nat) (mode : Mode) : Frame :=
  ⟨kind, start, mode, [], []⟩

/-- The present branch. -/
def sequence (f : Frame) : List Piece :=
  f.members.reverse.flatMap Member.pieces

def append (f : Frame) (m : Member) : Frame :=
  { f with members := m :: f.members }

/-- All that the frame holds, as one sequence. -/
def pieces (f : Frame) : List Piece :=
  alternatives f.mode.folding (f.branches ++ [f.sequence])

def body (f : Frame) : Node :=
  .ofList (f.pieces.map Piece.node)

end Frame

structure Reading where
  source : Source
  groups : GroupTable
  /-- Groups that conditions name by number, and where. -/
  conditions : List (Nat × Nat)
  frame : Frame
  outer : List Frame

namespace Reading

def start (ignoreCase : Bool) (source : Source) : Reading :=
  ⟨source, .empty, [], .opened .whole 0 (.initial ignoreCase), []⟩

def append (r : Reading) (m : Member) (s : Source) : Reading :=
  { r with frame := r.frame.append m, source := s }

def appendNode (r : Reading) (role : Role) (n : Node) (s : Source) : Reading :=
  r.append (.piece ⟨n, role⟩) s

def appendCode (r : Reading) (n : Nat) (s : Source) : Reading :=
  r.appendNode .atom (.char (.ofCode r.frame.mode.folding n false)) s

/-- A new frame within the present one. -/
def descend (r : Reading) (f : Frame) (s : Source) : Reading :=
  { r with frame := f, outer := r.frame :: r.outer, source := s }

def readEscape (r : Reading) (c : Char) (start : Nat) (s : Source) : Parse Reading := do
  let mode := r.frame.mode
  let (e, s) ← Escape.read r.groups mode.asciiOnly c start s
  match e with
  | .code n => return r.appendCode n s
  | .category which negated =>
    let items := [.category which mode.asciiOnly negated]
    return r.appendNode .atom (.char (.ofItems mode.folding items false)) s
  | .anchor a => return r.appendNode .anchor (.anchor a) s
  | .group index => return r.appendNode .atom (.again index mode.folding) s

/-! ### Repetitions -/

/-- The largest number of turns that cannot be asked for. -/
def turnLimit : Nat := 4294967295

def readBound (digits : List Char) : Parse Nat :=
  if Text.integerDigitLimit < digits.length then .error (.numberTooLong digits.length)
  else if turnLimit ≤ Escape.numberIn 10 digits then .error .repetitionTooLarge
  else .ok (Escape.numberIn 10 digits)

/-- Reads the bounds of a repetition after its opening brace. Anything else after a brace makes it
an ordinary character. -/
def readBounds (s : Source) : Parse (Option ((Nat × Option Nat) × Source)) := do
  if s.next? = some (.plain '\x7d') then return none
  let (least, after) ← s.takeWhile Char.isDigit s.rest.length
  let (comma, after) ← after.accept ','
  let (most, after) ←
    if comma then after.takeWhile Char.isDigit after.rest.length else .ok (least, after)
  let (closed, after) ← after.accept '\x7d'
  if !closed then return none
  let low ← if least.isEmpty then .ok 0 else readBound least
  if most.isEmpty then return some ((low, none), after)
  let high ← readBound most
  if high < low then refuse .reversedBounds s.pos
  return some ((low, some high), after)

/-- The repetition of a sequence. -/
def repeated (least : Nat) (most : Option Nat) (greed : Greed) (body : List Piece) : Node :=
  match body.map Piece.node with
  | [.char t] => .many least most greed t
  | nodes => .loop least most greed (.ofList nodes)

/-- Repeats the last member, `start` being where the repetition is written. -/
def repeatLast (r : Reading) (least : Nat) (most : Option Nat) (start : Nat) (s : Source) :
    Parse Reading := do
  match r.frame.members with
  | [] => refuse .nothingToRepeat start
  | last :: before =>
    match last with
    | .piece ⟨_, .anchor⟩ => refuse .nothingToRepeat start
    | .piece ⟨_, .repetition⟩ => refuse .multipleRepeat start
    | _ =>
      let (lazy, s) ← s.accept '?'
      let (possessive, s) ← if lazy then .ok (false, s) else s.accept '+'
      let greed : Greed := if lazy then .lazy else if possessive then .possessive else .greedy
      let node := repeated least most greed last.pieces
      return { r with
        frame := { r.frame with members := .piece ⟨node, .repetition⟩ :: before }
        source := s }

/-! ### Groups -/

def nameOf (name : List Char) : String :=
  String.ofList name

def checkName (name : List Char) (start : Nat) : Parse Unit :=
  if Text.isIdentifier name then .ok () else refuse (.badGroupName (nameOf name)) start

/-- Opens a group that is remembered. -/
def openCapture (r : Reading) (name : Option (List Char)) (start nameStart : Nat) (s : Source) :
    Parse Reading := do
  let g := r.groups
  let names ← match name with
    | none => .ok g.names
    | some cs => match g.names.lookup (nameOf cs) with
      | some former => refuse (.redefinedGroup (nameOf cs) g.next former) nameStart
      | none => .ok (g.names ++ [(nameOf cs, g.next)])
  let r := { r with groups := { g with next := g.next + 1, names := names } }
  return r.descend (.opened (.capture g.next) start r.frame.mode) s

/-- Reads the text of a named group once more. -/
def readNamedGroup (r : Reading) (s : Source) : Parse Reading := do
  let nameStart := s.pos
  let (name, s) ← s.takeUntil ')' "group name"
  checkName name nameStart
  match r.groups.names.lookup (nameOf name) with
  | none => refuse (.unknownGroupName (nameOf name)) nameStart
  | some index =>
    if !r.groups.isClosed index then refuse .openGroup nameStart
    r.groups.checkLookbehind index s.pos
    return r.appendNode .atom (.again index r.frame.mode.folding) s

/-- Reads on after `(?P`. -/
def readNamed (r : Reading) (start : Nat) (s : Source) : Parse Reading := do
  let (defines, s) ← s.accept '<'
  if defines then
    let nameStart := s.pos
    let (name, s) ← s.takeUntil '>' "group name"
    checkName name nameStart
    r.openCapture (some name) start nameStart s
  else
    let (refers, s) ← s.accept '='
    if refers then r.readNamedGroup s
    else match s.next? with
    | none => refuse .unexpectedEnd s.pos
    | some t => do
      let _ ← s.skip
      refuse (.unknownExtension ("P" ++ String.ofList t.text)) (start + 1)

/-- Skips a comment up to its closing parenthesis. -/
def skipComment (start : Nat) : (fuel : Nat) → Source → Parse Source
  | 0, _ => refuse .unterminatedComment start
  | fuel + 1, s => do
    match ← s.take with
    | (none, _) => refuse .unterminatedComment start
    | (some t, s) => if t.isPlain ')' then return s else skipComment start fuel s

/-- Reads the number of a group that a condition names. -/
def conditionNumber (name : List Char) (nameStart : Nat) : Parse Nat :=
  match Text.readInteger name with
  | .error _ => refuse (.badGroupName (nameOf name)) nameStart
  | .ok n =>
    if n < 0 then refuse (.badGroupName (nameOf name)) nameStart
    else if n = 0 then refuse .badGroupNumber nameStart
    else if 1073741823 ≤ n then refuse (.noSuchGroup n.toNat) nameStart
    else .ok n.toNat

/-- Reads the group that a condition asks about, by name or by number. A number may be that of a
later group. -/
def readCondition (r : Reading) (start : Nat) (s : Source) : Parse Reading := do
  let nameStart := s.pos
  let (name, s) ← s.takeUntil ')' "group name"
  let (index, conditions) ←
    if Text.isIdentifier name then
      match r.groups.names.lookup (nameOf name) with
      | none => refuse (.unknownGroupName (nameOf name)) nameStart
      | some index => .ok (index, r.conditions)
    else do
      let index ← conditionNumber name nameStart
      .ok (index,
        if r.conditions.any (·.1 == index) then r.conditions
        else r.conditions ++ [(index, nameStart)])
  r.groups.checkLookbehind index s.pos
  let r := { r with conditions }
  return r.descend (.opened (.whether index none) start r.frame.mode) s

/-- Reads on after `(?<`. -/
def readLookbehind (r : Reading) (start : Nat) (s : Source) : Parse Reading := do
  let (next, after) ← s.take
  let negated ← match next with
    | none => refuse .unexpectedEnd s.pos
    | some (.plain '=') => .ok false
    | some (.plain '!') => .ok true
    | some t => refuse (.unknownExtension ("<" ++ String.ofList t.text)) (start + 1)
  let limit := r.groups.lookbehind
  let groups := { r.groups with lookbehind := some (limit.getD r.groups.next) }
  let r := { r with groups }
  return r.descend (.opened (.behind negated limit) start r.frame.mode) after

/-- Reads on after `(?` and the token `t`. -/
def readExtension (r : Reading) (t : Token) (start : Nat) (s : Source) : Parse Reading :=
  let mode := r.frame.mode
  match t with
  | .plain 'P' => r.readNamed start s
  | .plain ':' => return r.descend (.opened .plain start mode) s
  | .plain '#' => return { r with source := ← skipComment start (s.rest.length + 1) s }
  | .plain '=' => return r.descend (.opened (.ahead false) start mode) s
  | .plain '!' => return r.descend (.opened (.ahead true) start mode) s
  | .plain '<' => r.readLookbehind start s
  | .plain '(' => r.readCondition start s
  | .plain '>' => return r.descend (.opened .atomic start mode) s
  | _ => do
    let (switches, s) ←
      if t.isPlain '-' then SwitchGroup.readAfterDash s []
      else match Switch.ofToken? t with
      | some f => SwitchGroup.read f s
      | none => refuse (.unknownExtension (String.ofList t.text)) (start + 1)
    match switches with
    | .global => refuse .misplacedFlags start
    | .forGroup on off =>
      return r.descend (.opened .switched start (mode.switched on off)) s

/-- Reads on after an opening parenthesis. -/
def openGroup (r : Reading) (start : Nat) (s : Source) : Parse Reading := do
  let (extended, s) ← s.accept '?'
  if !extended then r.openCapture none start start s
  else match ← s.take with
  | (none, _) => refuse .unexpectedEnd s.pos
  | (some t, s) => r.readExtension t start s

/-- The member that a closed frame becomes. -/
def closed (groups : GroupTable) (f : Frame) : Member :=
  let enclosed (n : Node) : Member := .piece ⟨n, .enclosed⟩
  match f.kind with
  | .whole | .plain => .bundle f.pieces
  | .switched => enclosed f.body
  | .capture index => enclosed (.group index f.body)
  | .atomic => enclosed (.atomic f.body)
  | .ahead negated => enclosed (.ahead negated f.body)
  | .behind negated _ => enclosed (.behind negated (f.body.width groups.closed) f.body)
  | .whether group none => enclosed (.whether group f.body .empty)
  | .whether group (some yes) =>
    enclosed (.whether group (.ofList (yes.map Piece.node)) f.body)

/-- The groups after a frame is closed. -/
def groupsAfter (groups : GroupTable) (f : Frame) : GroupTable :=
  match f.kind with
  | .capture index =>
    { groups with closed := (index, f.body.width groups.closed) :: groups.closed }
  | .behind _ outerLookbehind => { groups with lookbehind := outerLookbehind }
  | _ => groups

/-- Closes the present frame at a closing parenthesis. -/
def closeGroup (r : Reading) : Parse Reading :=
  match r.outer with
  | [] => refuse .unbalancedParenthesis r.source.pos
  | f :: outer => do
    let s ← r.source.skip
    return { r with
      source := s
      groups := groupsAfter r.groups r.frame
      frame := f.append (closed r.groups r.frame)
      outer := outer }

/-- Begins the next branch at a bar. A condition has two at most. -/
def nextBranch (r : Reading) : Parse Reading :=
  match r.frame.kind with
  | .whether _ (some _) => refuse .tooManyBranches r.source.pos
  | .whether group none => do
    let frame := { r.frame with kind := .whether group (some r.frame.sequence), members := [] }
    return { r with source := ← r.source.skip, frame }
  | _ => do
    let frame := { r.frame with branches := r.frame.branches ++ [r.frame.sequence], members := [] }
    return { r with source := ← r.source.skip, frame }

/-! ### Characters -/

def isVerboseBlank (c : Char) : Bool :=
  c = ' ' || (0x09 ≤ c.toNat && c.toNat ≤ 0x0D)

/-- Skips a comment up to the end of its line. -/
def skipLine : (fuel : Nat) → Source → Parse Source
  | 0, s => .ok s
  | fuel + 1, s => do
    match ← s.take with
    | (none, s) => return s
    | (some t, s) => if t.isPlain '\n' then return s else skipLine fuel s

/-- Reads on after the character `c` at `start`. -/
def readPlain (r : Reading) (c : Char) (start : Nat) (s : Source) : Parse Reading :=
  let mode := r.frame.mode
  match c with
  | '[' => do
    let (test, s) ← CharClass.read mode start s
    return r.appendNode .atom (.char test) s
  | '(' => r.openGroup start s
  | '.' => return r.appendNode .atom (.char (if mode.dotAll then .any else .exceptNewline)) s
  | '^' =>
    return r.appendNode .anchor (.anchor (if mode.multiline then .lineStart else .textStart)) s
  | '$' =>
    return r.appendNode .anchor (.anchor (if mode.multiline then .lineEnd else .lastLineEnd)) s
  | '?' => r.repeatLast 0 (some 1) start s
  | '*' => r.repeatLast 0 none start s
  | '+' => r.repeatLast 1 none start s
  | '\x7b' => do
    match ← readBounds s with
    | some ((least, most), s) => r.repeatLast least most start s
    | none => return r.appendCode c.toNat s
  | _ => return r.appendCode c.toNat s

/-- Reads the construct that begins with the token `t`. -/
def step (r : Reading) (t : Token) : Parse Reading :=
  let start := r.source.pos
  if t.isPlain '|' then r.nextBranch
  else if t.isPlain ')' then r.closeGroup
  else do
    let s ← r.source.skip
    match t with
    | .dangling => refuse .danglingEscape start
    | .escaped c => r.readEscape c start s
    | .plain c =>
      if r.frame.mode.verbose && isVerboseBlank c then return { r with source := s }
      else if r.frame.mode.verbose && c = '#' then
        return { r with source := ← skipLine (s.rest.length + 1) s }
      else r.readPlain c start s

/-- Reads to the end. Each step uses up a token at least, so that their number bounds the steps. -/
def run : (fuel : Nat) → Reading → Parse Reading
  | 0, r => .ok r
  | fuel + 1, r => match r.source.next? with
    | none => .ok r
    | some t => r.step t >>= run fuel

/-- The first fault among the look-behinds of an expression: each has to have one width. -/
def lookbehindFault? : Node → Option Fault
  | .empty | .char _ | .anchor _ | .again .. | .many .. => none
  | .seq a b | .alt a b | .whether _ a b => match lookbehindFault? a with
    | some fault => some fault
    | none => lookbehindFault? b
  | .group _ body | .loop _ _ _ body | .atomic body | .ahead _ body => lookbehindFault? body
  | .behind _ width body =>
    if turnLimit < width.least then some .lookbehindTooWide
    else if !width.isFixed then some .variableLookbehind
    else lookbehindFault? body

/-- The expression, when all of it has been read. -/
def finish (r : Reading) : Parse Node := do
  if !r.outer.isEmpty then refuse .unterminatedGroup r.frame.start
  match r.conditions.find? fun c => r.groups.next ≤ c.1 with
  | some (index, pos) => refuse (.noSuchGroup index) pos
  | none => match lookbehindFault? r.frame.body with
    | some fault => .error (.malformed fault none)
    | none => return r.frame.body

end Reading

end UrlRouting.Expression
