import UrlRouting.Route.Values

/-! The listing of a matched route: its pattern, its values and its arguments, of which the
positional ones are numbered. -/
namespace UrlRouting.CommandLine

/-- An entry of a listing: a name with its value. Arguments are marked. -/
inductive Item
  | entry (name value : Value)
  | positional (index : Nat) (value : Value)
  | named (name value : Value)

namespace Item

/-- The line of an item, whose name is written as in a path and whose value in the listing form. -/
def line : Item → Except RoutingError String
  | entry name value => return "  " ++ (← name.write) ++ " = " ++ (← value.writeQuoted)
  | positional index value => return "  *" ++ toString index ++ " = " ++ (← value.writeQuoted)
  | named name value => return "  *" ++ (← name.write) ++ " = " ++ (← value.writeQuoted)

/-- The items of arguments, the positional ones numbered from `index` on. -/
def ofArgs : (index : Nat) → List WildcardArg → List Item
  | _, [] => []
  | index, a :: rest =>
    if a.isPositional then positional index a.value :: ofArgs (index + 1) rest
    else named a.name a.value :: ofArgs index rest

def ofRoute (r : Route) : List Item :=
  r.dispatch.map (fun e => entry e.1 e.2) ++ ofArgs 0 r.args

end Item

/-- Lines that have been written, and what has stopped the writing before its end. -/
@[ext] structure Listing where
  lines : List String
  fault : Option RoutingError

/-- Writes lines up to the first one that cannot be written. -/
def Listing.write : List (Except RoutingError String) → Listing
  | [] => ⟨[], none⟩
  | .ok line :: rest => { write rest with lines := line :: (write rest).lines }
  | .error err :: _ => ⟨[], some err⟩

def listing (r : Route) : Listing :=
  .write (.ok r.pattern :: (Item.ofRoute r).map Item.line)

end UrlRouting.CommandLine
