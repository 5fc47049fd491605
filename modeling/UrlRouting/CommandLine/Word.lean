import UrlRouting.CommandLine.Option
import UrlRouting.Text.CharacterKind
import UrlRouting.Text.Pieces

/-! The words of a command line and what each of them is. -/
namespace UrlRouting.CommandLine

/-- The use of an option: `long` if it was spelled with two dashes. An argument within the word
follows it directly or after an equals sign. -/
structure OptionUse where
  kind : OptionKind
  long : Bool
  afterEquals : Bool
  argument : Option (List Char)
  deriving DecidableEq, Repr

inductive Word
  | argument (text : String)
  | option (text : String) (use : OptionUse)
  | unknown (text : String)
  /-- Two dashes: no option comes after them. -/
  | separator
  deriving DecidableEq, Repr

namespace Word

def text : Word → String
  | argument s => s
  | option s _ => s
  | unknown s => s
  | separator => "--"

def isOption : Word → Bool
  | option .. | unknown _ => true
  | argument _ | separator => false

def isSeparator : Word → Bool
  | separator => true
  | _ => false

def isLong (spelling : String) : Bool :=
  spelling.startsWith "--"

/-- A negative number is an argument. One newline may follow it. -/
def isNegativeNumber (word : List Char) : Bool :=
  match word with
  | '-' :: rest =>
    let digits := if rest.getLast? == some '\n' then rest.dropLast else rest
    let isDecimal (c : Char) : Bool := Text.isDecimal c.toNat
    match Text.cutFirst? '.' digits with
    | none => !digits.isEmpty && digits.all isDecimal
    | some (whole, fraction) =>
      whole.all isDecimal && !fraction.isEmpty && fraction.all isDecimal
  | _ => false

/-- The options that an abbreviation with two dashes can stand for. -/
def candidates (abbreviation : String) : List (String × OptionKind) :=
  OptionKind.table.filter fun o => o.1.startsWith abbreviation

/-- An option that is written in one word with its argument, or abbreviated. -/
def ofAbbreviated (word : String) : Except Misuse Word :=
  let cs := word.toList
  let (before, after) := match Text.cutFirst? '=' cs with
    | some (before, after) => (String.ofList before, some after)
    | none => (word, none)
  match OptionKind.table.lookup before, after with
  | some kind, some given =>
    .ok (option word ⟨kind, isLong before, true, some given⟩)
  | _, _ =>
    let otherwise :=
      if isNegativeNumber cs || cs.contains ' ' then argument word else unknown word
    if isLong word then
      match candidates before with
      | [] => .ok otherwise
      | [(_, kind)] => .ok (option word ⟨kind, true, after.isSome, after⟩)
      | several => .error (.ambiguous word (several.map (·.1)))
    else match OptionKind.table.lookup (String.ofList (cs.take 2)) with
      | some kind => .ok (option word ⟨kind, false, false, some (cs.drop 2)⟩)
      | none => .ok otherwise

def ofText (word : String) : Except Misuse Word :=
  match word.toList with
  | '-' :: _ :: _ => match OptionKind.table.lookup word with
    | some kind => .ok (option word ⟨kind, isLong word, false, none⟩)
    | none => ofAbbreviated word
  | _ => .ok (argument word)

/-- What the words of a command line are. -/
def ofTexts : List String → Except Misuse (List Word)
  | [] => .ok []
  | s :: rest =>
    if s = "--" then .ok (separator :: rest.map argument)
    else do return (← ofText s) :: (← ofTexts rest)

end Word

end UrlRouting.CommandLine
