import UrlRouting.Expression.Syntax
import UrlRouting.Expression.Token
import UrlRouting.Text.CharacterKind

/-! The modes in which parts of an expression are read, and the switches that change them: `(?i:…)`
turns one on for a group, `(?-i:…)` turns it off. -/
namespace UrlRouting.Expression

structure Mode where
  ignoreCase : Bool
  asciiOnly : Bool
  multiline : Bool
  dotAll : Bool
  verbose : Bool
  deriving DecidableEq, Repr

inductive Switch
  | ignoreCase | locale | multiline | dotAll | verbose | asciiOnly | template | unicode
  deriving DecidableEq, Repr

namespace Switch

def ofToken? : Token → Option Switch
  | .plain 'i' => some ignoreCase
  | .plain 'L' => some locale
  | .plain 'm' => some multiline
  | .plain 's' => some dotAll
  | .plain 'x' => some verbose
  | .plain 'a' => some asciiOnly
  | .plain 't' => some template
  | .plain 'u' => some unicode
  | _ => none

/-- The switches of which one at most may be on: each names an alphabet. -/
def isAlphabet : Switch → Bool
  | locale | asciiOnly | unicode => true
  | _ => false

/-- The switch concerns a whole expression and so cannot be set for a group. -/
def isGlobal : Switch → Bool
  | template => true
  | _ => false

end Switch

namespace Mode

/-- The mode in which an expression begins. -/
def initial (ignoreCase : Bool) : Mode :=
  ⟨ignoreCase, false, false, false, false⟩

def folding (m : Mode) : Folding :=
  if m.ignoreCase then if m.asciiOnly then .ascii else .full else .exact

def set (m : Mode) (value : Bool) : Switch → Mode
  | .ignoreCase => { m with ignoreCase := value }
  | .multiline => { m with multiline := value }
  | .dotAll => { m with dotAll := value }
  | .verbose => { m with verbose := value }
  | .asciiOnly => { m with asciiOnly := value }
  | .unicode => { m with asciiOnly := false }
  | .locale | .template => m

def switched (m : Mode) (on off : List Switch) : Mode :=
  off.foldl (·.set false ·) (on.foldl (·.set true ·) m)

end Mode

/-- What a group that begins with switches says: with the closing parenthesis next, they are meant
for the whole expression. -/
inductive SwitchGroup
  | global
  | forGroup (on off : List Switch)

namespace SwitchGroup

/-- The fault of a token that should have been a switch. -/
def faultAt (t : Token) (otherwise : Fault) : Fault :=
  match t with
  | .plain c => if Text.isLetter c.toNat then .unknownFlag else otherwise
  | _ => otherwise

/-- Reads the switches to turn on, the last of which has just been read, and what ends them. -/
def readOn : (fuel : Nat) → Source → Switch → List Switch → Parse (List Switch × Char × Source)
  | 0, s, _, _ => refuse .missingFlagEnd s.pos
  | fuel + 1, s, last, before => do
    if last = .locale then refuse .localeFlag s.pos
    let on := before ++ [last]
    if last.isAlphabet && on.any (fun f => f.isAlphabet && f != last) then
      refuse .incompatibleFlags s.pos
    let (next, after) ← s.take
    match next with
    | none => refuse .missingFlagEnd s.pos
    | some (.plain ')') => return (on, ')', after)
    | some (.plain '-') => return (on, '-', after)
    | some (.plain ':') => return (on, ':', after)
    | some t => match Switch.ofToken? t with
      | some f => readOn fuel after f on
      | none => refuse (faultAt t .missingFlagEnd) s.pos

/-- Reads the switches to turn off, the last of which has just been read, up to the colon. -/
def readOff : (fuel : Nat) → Source → Switch → List Switch → Parse (List Switch × Source)
  | 0, s, _, _ => refuse .missingColon s.pos
  | fuel + 1, s, last, before => do
    if last.isAlphabet then refuse .textFlagOff s.pos
    let off := before ++ [last]
    let (next, after) ← s.take
    match next with
    | none => refuse .missingColon s.pos
    | some (.plain ':') => return (off, after)
    | some t => match Switch.ofToken? t with
      | some f => readOff fuel after f off
      | none => refuse (faultAt t .missingColon) s.pos

/-- Reads the switches to turn off, from the dash before them on. -/
def readAfterDash (s : Source) (on : List Switch) : Parse (SwitchGroup × Source) := do
  let (next, after) ← s.take
  match next with
  | none => refuse .missingFlag s.pos
  | some t => match Switch.ofToken? t with
    | none => refuse (faultAt t .missingFlag) s.pos
    | some f =>
      let (off, s) ← readOff (after.rest.length + 1) after f []
      if off.any (·.isGlobal) then refuse .globalFlagOff (s.pos - 1)
      if on.any off.contains then refuse .flagOnAndOff (s.pos - 1)
      return (forGroup on off, s)

/-- Reads the switches of a group, of which the first has just been read. -/
def read (first : Switch) (s : Source) : Parse (SwitchGroup × Source) := do
  let (on, terminator, s) ← readOn (s.rest.length + 1) s first []
  if terminator = ')' then return (global, s)
  if on.any (·.isGlobal) then refuse .globalFlagOn (s.pos - 1)
  if terminator = '-' then readAfterDash s on else return (forGroup on [], s)

end SwitchGroup

end UrlRouting.Expression
