import UrlRouting.Method.Basic
import UrlRouting.Number.Binary64

/-! Values of any kind, as they are dispatched on and filled into a path, and when two of them
count as equal. -/
namespace UrlRouting

inductive Value
  | none
  | bool (b : Bool)
  | int (n : Int)
  | float (x : Binary64)
  | str (s : String)
  | bytes (b : List UInt8)
  | list (items : List Value)
  | tuple (items : List Value)
  | dict (entries : List (Value × Value))
  | methods (mask : Nat)
  | handler (name : String)
  deriving Inhabited

/-- The kinds of values. -/
inductive Kind
  | none | bool | int | float | str | bytes | list | tuple | dict | methods | handler
  deriving DecidableEq, Repr

namespace Kind

/-- The name under which error messages speak of a kind. -/
def name : Kind → String
  | none => "NoneType"
  | bool => "bool"
  | int => "int"
  | float => "float"
  | str => "str"
  | bytes => "bytes"
  | list => "list"
  | tuple => "tuple"
  | dict => "dict"
  | methods => "Method"
  | handler => "Handler"

end Kind

namespace Value

def kind : Value → Kind
  | none => .none
  | bool _ => .bool
  | int _ => .int
  | float _ => .float
  | str _ => .str
  | bytes _ => .bytes
  | list _ => .list
  | tuple _ => .tuple
  | dict _ => .dict
  | methods _ => .methods
  | handler _ => .handler

/-- The whole number that a value is: truth values and method sets are numbers too. -/
def asInt? : Value → Option Int
  | bool b => some (if b then 1 else 0)
  | int n => some n
  | methods mask => some mask
  | _ => Option.none

def isNothing : Value → Bool
  | none => true
  | _ => false

/-- Values count as true unless they are nothing, false, zero or empty. -/
def truthy : Value → Bool
  | none => false
  | bool b => b
  | int n => n != 0
  | float x => !x.isZero
  | str s => !s.isEmpty
  | bytes b => !b.isEmpty
  | list items => !items.isEmpty
  | tuple items => !items.isEmpty
  | dict entries => !entries.isEmpty
  | methods mask => mask != 0
  | handler _ => true

/-- Equality of values that are no collections: numbers of all kinds compare by value. -/
def scalarEqual : Value → Value → Bool
  | none, none => true
  | float x, float y => x.equal y
  | float x, b => match b.asInt? with
    | some n => x.equalsInt n
    | Option.none => false
  | a, float y => match a.asInt? with
    | some n => y.equalsInt n
    | Option.none => false
  | str s, str t => s == t
  | bytes b, bytes c => b == c
  | handler f, handler g => f == g
  | a, b => match a.asInt?, b.asInt? with
    | some m, some n => m == n
    | _, _ => false

mutual

/-- The equality of keys and of the members of collections. It is reflexive, since a value that is
no number at least agrees with itself. -/
def agrees : Value → Value → Bool
  | list as, list bs => agreesAll as bs
  | tuple as, tuple bs => agreesAll as bs
  | dict as, dict bs => as.length == bs.length && agreesWithin as bs
  | float (.nan a), float (.nan b) => a == b
  | a, b => scalarEqual a b

def agreesAll : List Value → List Value → Bool
  | [], [] => true
  | a :: as, b :: bs => agrees a b && agreesAll as bs
  | _, _ => false

/-- Every entry has its counterpart, wherever that stands. -/
def agreesWithin : List (Value × Value) → List (Value × Value) → Bool
  | [], _ => true
  | (k, v) :: rest, bs => bs.any (fun e => agrees k e.1 && agrees v e.2) && agreesWithin rest bs

end

def isNan : Value → Bool
  | float x => x.isNan
  | _ => false

/-- Plain equality: as for keys, except that a value that is no number equals nothing. -/
def equal (a b : Value) : Bool :=
  !a.isNan && agrees a b

/-- Of one kind and equal. -/
def identical (a b : Value) : Bool :=
  a.kind == b.kind && equal a b

/-- The members of a value that can be gone through one by one: the characters of a text, the bytes
of a byte string, the keys of a mapping. -/
def items? : Value → Option (List Value)
  | str s => some (s.toList.map fun c => str c.toString)
  | bytes b => some (b.map fun x => int x.toNat)
  | list items => some items
  | tuple items => some items
  | dict entries => some (entries.map (·.1))
  | methods mask => some ((MethodSet.members mask).map fun m => methods m.mask)
  | _ => Option.none

/-- The kind of the first collection in a value that may change, and so is no key. -/
def unhashable? : Value → Option Kind
  | list _ => some .list
  | dict _ => some .dict
  | tuple items => firstUnhashable items
  | _ => Option.none
where
  firstUnhashable : List Value → Option Kind
    | [] => Option.none
    | v :: rest => match unhashable? v with
      | some k => some k
      | Option.none => firstUnhashable rest

end Value

end UrlRouting
