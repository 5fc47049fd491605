import UrlRouting.Text.Quoted

/-! Why an expression is refused, and how that is said. -/
namespace UrlRouting.Expression

inductive Fault
  | danglingEscape
  | badEscape (text : String)
  | incompleteEscape (text : String)
  | octalTooLarge (text : String)
  | missingBrace
  | unknownCharacterName (name : String)
  | missingName (what : String)
  | unterminatedName (terminator : Char)
  | badGroupName (name : String)
  | unknownGroupName (name : String)
  | redefinedGroup (name : String) (index former : Nat)
  | badGroupNumber
  | noSuchGroup (index : Nat)
  | openGroup
  | groupOfSameLookbehind
  | unterminatedClass
  | badRange (first last : String)
  | nothingToRepeat
  | multipleRepeat
  | reversedBounds
  | unterminatedGroup
  | unterminatedComment
  | unbalancedParenthesis
  | unexpectedEnd
  | unknownExtension (text : String)
  | tooManyBranches
  | misplacedFlags
  | localeFlag
  | incompatibleFlags
  | missingFlagEnd
  | unknownFlag
  | missingFlag
  | missingColon
  | globalFlagOn
  | globalFlagOff
  | textFlagOff
  | flagOnAndOff
  | variableLookbehind
  | lookbehindTooWide
  deriving DecidableEq, Repr

/-- Why a text is no expression. A fault is found at a place of the text, if not about its whole. -/
inductive Rejection
  | malformed (fault : Fault) (position : Option Nat)
  | repetitionTooLarge
  | numberTooLong (digits : Nat)
  deriving DecidableEq, Repr

namespace Fault

def message : Fault → String
  | danglingEscape => "bad escape (end of pattern)"
  | badEscape text => "bad escape " ++ text
  | incompleteEscape text => "incomplete escape " ++ text
  | octalTooLarge text => "octal escape value " ++ text ++ " outside of range 0-0o377"
  | missingBrace => "missing \x7b"
  | unknownCharacterName name => "undefined character name " ++ Text.quoted name
  | missingName what => "missing " ++ what
  | unterminatedName terminator => "missing " ++ toString terminator ++ ", unterminated name"
  | badGroupName name => "bad character in group name " ++ Text.quoted name
  | unknownGroupName name => "unknown group name " ++ Text.quoted name
  | redefinedGroup name index former =>
    "redefinition of group name " ++ Text.quoted name ++ " as group " ++ toString index
      ++ "; was group " ++ toString former
  | badGroupNumber => "bad group number"
  | noSuchGroup index => "invalid group reference " ++ toString index
  | openGroup => "cannot refer to an open group"
  | groupOfSameLookbehind => "cannot refer to group defined in the same lookbehind subpattern"
  | unterminatedClass => "unterminated character set"
  | badRange first last => "bad character range " ++ first ++ "-" ++ last
  | nothingToRepeat => "nothing to repeat"
  | multipleRepeat => "multiple repeat"
  | reversedBounds => "min repeat greater than max repeat"
  | unterminatedGroup => "missing ), unterminated subpattern"
  | unterminatedComment => "missing ), unterminated comment"
  | unbalancedParenthesis => "unbalanced parenthesis"
  | unexpectedEnd => "unexpected end of pattern"
  | unknownExtension text => "unknown extension ?" ++ text
  | tooManyBranches => "conditional backref with more than two branches"
  | misplacedFlags => "global flags not at the start of the expression"
  | localeFlag => "bad inline flags: cannot use 'L' flag with a str pattern"
  | incompatibleFlags => "bad inline flags: flags 'a', 'u' and 'L' are incompatible"
  | missingFlagEnd => "missing -, : or )"
  | unknownFlag => "unknown flag"
  | missingFlag => "missing flag"
  | missingColon => "missing :"
  | globalFlagOn => "bad inline flags: cannot turn on global flag"
  | globalFlagOff => "bad inline flags: cannot turn off global flag"
  | textFlagOff => "bad inline flags: cannot turn off flags 'a', 'u' and 'L'"
  | flagOnAndOff => "bad inline flags: flag turned on and off"
  | variableLookbehind => "look-behind requires fixed-width pattern"
  | lookbehindTooWide => "looks too much behind"

end Fault

/-- Line and column of a position, both counted from one. -/
def lineAndColumn (text : List Char) (position : Nat) : Nat × Nat :=
  let before := text.take position
  (before.count '\n' + 1, (before.reverse.takeWhile (· != '\n')).length + 1)

/-- The wording of a fault. Line and column are given only if the text has several lines. -/
def malformedMessage (text : String) (fault : Fault) : Option Nat → String
  | none => fault.message
  | some position =>
    let place := " at position " ++ toString position
    if text.toList.contains '\n' then
      let (line, column) := lineAndColumn text.toList position
      fault.message ++ place ++ " (line " ++ toString line ++ ", column " ++ toString column ++ ")"
    else fault.message ++ place

end UrlRouting.Expression
