import UrlRouting.Text.Quoted

/-! The options of the command line, and what can be wrong with its arguments. -/
namespace UrlRouting.CommandLine

inductive OptionKind
  | help | method | reverse | verbose
  deriving DecidableEq, Repr

/-- How many arguments an option takes: none, one, or one and more. -/
inductive Arity
  | none | one | several
  deriving DecidableEq, Repr

namespace OptionKind

def all : List OptionKind :=
  [help, method, reverse, verbose]

def arity : OptionKind → Arity
  | help | verbose => .none
  | method => .one
  | reverse => .several

def spellings : OptionKind → List String
  | help => ["-h", "--help"]
  | method => ["--method", "-m"]
  | reverse => ["--reverse", "-r"]
  | verbose => ["--verbose", "-v"]

/-- All spellings, each with its option. -/
def table : List (String × OptionKind) :=
  all.flatMap fun k => k.spellings.map fun s => (s, k)

def title (k : OptionKind) : String :=
  "/".intercalate k.spellings

/-- What stands for the arguments in a usage text. -/
def argument : OptionKind → String
  | help | verbose => ""
  | method => " METHOD"
  | reverse => " KEY=VALUE [KEY=VALUE ...]"

end OptionKind

inductive Misuse
  | ambiguous (word : String) (candidates : List String)
  | expectedOne (option : OptionKind)
  | expectedSeveral (option : OptionKind)
  | ignoredArgument (option : OptionKind) (argument : String)
  | missingApplication
  | unrecognized (words : List String)
  deriving DecidableEq, Repr

namespace Misuse

def ofArgument (option : OptionKind) (what : String) : String :=
  "argument " ++ option.title ++ ": " ++ what

def message : Misuse → String
  | ambiguous word candidates =>
    "ambiguous option: " ++ word ++ " could match " ++ ", ".intercalate candidates
  | expectedOne option => ofArgument option "expected one argument"
  | expectedSeveral option => ofArgument option "expected at least one argument"
  | ignoredArgument option argument =>
    ofArgument option ("ignored explicit argument " ++ Text.quoted argument)
  | missingApplication => "the following arguments are required: application"
  | unrecognized words => "unrecognized arguments: " ++ " ".intercalate words

end Misuse

end UrlRouting.CommandLine
