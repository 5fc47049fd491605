import UrlRouting.Text.CharacterKind
import UrlRouting.Text.LetterCase
import UrlRouting.Text.Pieces
import UrlRouting.Value.Text

/-! Methods read from names, and sets of methods from values of all kinds. -/
namespace UrlRouting

namespace Method

def ofName? (name : List Char) : Option Method :=
  Method.all.find? fun m => m.name.toList == name

/-- The capital spelling of a name, if it is plain ASCII. -/
def capitals? (name : List Char) : Option (List Char) :=
  (name.mapM Text.asciiCapitals?).map List.flatten

/-- The method with a name. Blanks around it and the case of its letters do not matter. -/
def read? (name : List Char) : Option Method :=
  (capitals? (Text.trim (fun c => Text.isBlank c.toNat) name)).bind ofName?

def ofValue : Value → Except RoutingError Method
  | .str name => match read? name.toList with
    | some m => .ok m
    | none => .error (.unsupportedMethod name)
  | v => .error (.methodNotText v.kind)

end Method

namespace MethodSet

/-- The set that a member of a list of methods stands for. -/
def ofMember : Value → Except RoutingError MethodSet
  | .methods mask => .ok mask
  | v => (Method.ofValue v).map Method.mask

/-- The methods of a list, of which there has to be one at least. -/
def ofMembers (members : List Value) : Except RoutingError MethodSet := do
  let set ← members.foldlM (fun set v => (set ||| ·) <$> ofMember v) 0
  if set = 0 then .error .noMethods else return set

/-- The names that a text lists, separated by commas. -/
def listed (s : String) : List Value :=
  (Text.pieces ',' s.toList).map fun p => .str (String.ofList p)

/-- A whole number is a set if it has bits of declared methods only, and one at least. -/
def ofMask (value : Value) (n : Int) : Except RoutingError MethodSet :=
  if 0 < n && n ≤ (any : Nat) then .ok n.toNat
  else do .error (.unsupportedMask (← value.write))

/-- The set that a value stands for. Nothing stands for no choice at all. -/
def ofValue : Value → Except RoutingError (Option MethodSet)
  | .none => .ok none
  | .methods mask => .ok (some mask)
  | .str s => some <$> ofMembers (listed s)
  | v => match v.asInt? with
    | some n => some <$> ofMask v n
    | none => match v.items? with
      | some members => some <$> ofMembers members
      | none => .error (.notIterable v.kind)

/-- The two sets have a method in common. -/
def meets (a b : MethodSet) : Bool :=
  a &&& b != 0

end MethodSet

end UrlRouting
