import UrlRouting.Router.Step
import UrlRouting.Text.Integer

/-! Finding a table of routes by its dotted name among modules and their attributes. -/
namespace UrlRouting.CommandLine

/-- What a module has under a name. -/
inductive Attribute
  | router (t : Router)
  | other

/-- A module with its dotted name. Only a package has modules within it. -/
structure Module where
  name : List Char
  isPackage : Bool
  attributes : List (List Char × Attribute)

/-- Why a name leads to no table of routes. -/
inductive SpecifierFault
  | withoutDot (specifier : List Char)
  | noModule (name : List Char)
  /-- The part of the name before the last dot is no package. -/
  | notPackage (name parent : List Char)
  | noAttribute (module member : List Char)
  | notRouter (specifier : List Char)
  deriving DecidableEq, Repr

/-- What is no fault of the request as such but cannot be gone on with. -/
inductive Breakdown
  | emptyModuleName
  | relativeModuleName (name : List Char)
  | notInteger (text : List Char)
  | integerTooLong (digits : Nat)
  | routing (e : RoutingError)

namespace SpecifierFault

def message : SpecifierFault → String
  | withoutDot specifier =>
    "Router specifier must contain at least one '.', got '" ++ String.ofList specifier ++ "'."
  | noModule name =>
    "No module named " ++ Text.quoted (String.ofList name) ++ " on Python search path."
  | notPackage name parent =>
    "No module named " ++ Text.quoted (String.ofList name) ++ "; "
      ++ Text.quoted (String.ofList parent) ++ " is not a package on Python search path."
  | noAttribute module member =>
    "Module '" ++ String.ofList module ++ "' does not have an attribute '"
      ++ String.ofList member ++ "'."
  | notRouter specifier => String.ofList specifier ++ " is not an instance of 'signpost.Router'."

end SpecifierFault

namespace Breakdown

/-- How much of a quoted text is shown. -/
def shownLength : Nat := 200

def message : Breakdown → String
  | emptyModuleName => "Empty module name"
  | relativeModuleName name =>
    "the 'package' argument is required to perform a relative import for "
      ++ Text.quoted (String.ofList name)
  | notInteger text =>
    "invalid literal for int() with base 10: "
      ++ String.ofList ((Text.quoted (String.ofList text)).toList.take shownLength)
  | integerTooLong digits => (RoutingError.numberTooLong digits).message
  | routing e => e.message

end Breakdown

namespace Module

/-- The names of a module and of the packages around it, the outermost first. -/
def chain (name : List Char) : List (List Char) :=
  (List.range (Text.pieces '.' name).length).map fun n =>
    Text.joinPieces '.' ((Text.pieces '.' name).take (n + 1))

def find? (modules : List Module) (name : List Char) : Option Module :=
  modules.find? fun m => m.name == name

/-- Follows a chain of names inwards. Each but the first has to be known within a package. -/
def follow (modules : List Module) : (parent : Option Module) → List (List Char) →
    Except SpecifierFault (Option Module)
  | parent, [] => .ok parent
  | parent, name :: rest => match find? modules name, parent with
    | some m, _ => follow modules (some m) rest
    | none, some p => .error (if p.isPackage then .noModule name else .notPackage name p.name)
    | none, none => .error (.noModule name)

/-- The module with a name that has been found to be usable. -/
def locate (modules : List Module) (name : List Char) : Except SpecifierFault Module := do
  match ← follow modules none (chain name) with
  | some m => return m
  | none => .error (.noModule name)

/-- The table of routes under a name in a module. -/
def router (m : Module) (specifier member : List Char) : Except SpecifierFault Router :=
  match m.attributes.lookup member with
  | none => .error (.noAttribute m.name member)
  | some .other => .error (.notRouter specifier)
  | some (.router t) => .ok t

/-- The table of routes that a specifier names: a module, a dot, and a name in the module. -/
def resolve (modules : List Module) (specifier : List Char) :
    Except Breakdown (Except SpecifierFault Router) :=
  match Text.cutLast? '.' specifier with
  | none => .ok (.error (.withoutDot specifier))
  | some (name, member) =>
    if name.isEmpty then .error .emptyModuleName
    else if name.head? = some '.' then .error (.relativeModuleName name)
    else .ok do (← locate modules name).router specifier member

end Module

end UrlRouting.CommandLine
