/-! The request methods and sets of them, written as masks of bits. -/
namespace UrlRouting

inductive Method
  | get | head | post | put | delete | patch | options | trace | connect
  deriving DecidableEq, Repr

namespace Method

def all : List Method :=
  [get, head, post, put, delete, patch, options, trace, connect]

def name : Method → String
  | get => "GET"
  | head => "HEAD"
  | post => "POST"
  | put => "PUT"
  | delete => "DELETE"
  | patch => "PATCH"
  | options => "OPTIONS"
  | trace => "TRACE"
  | connect => "CONNECT"

def mask : Method → Nat
  | get => 1
  | head => 2
  | post => 4
  | put => 8
  | delete => 16
  | patch => 32
  | options => 64
  | trace => 128
  | connect => 256

end Method

/-- A set of methods. A mask may have bits of no declared method. -/
abbrev MethodSet := Nat

namespace MethodSet

def ofList (methods : List Method) : MethodSet :=
  methods.foldl (fun set m => set ||| m.mask) 0

/-- Every declared method. -/
def any : MethodSet := ofList Method.all

/-- What a route answers to unless told otherwise. -/
def usual : MethodSet := ofList [.get, .post, .put, .delete]

def members (set : MethodSet) : List Method :=
  Method.all.filter fun m => set &&& m.mask != 0

/-- The set with its names and its mask. Bits of no declared method are named by their number, but
only next to a name. -/
def describe (set : MethodSet) : String :=
  let names := (members set).map Method.name
  let unknown := set ^^^ (set &&& any)
  let label :=
    if names.isEmpty then ""
    else "." ++ "|".intercalate (if unknown == 0 then names else names ++ [toString unknown])
  "<Method" ++ label ++ ": " ++ toString set ++ ">"

/-- The set for a whole number: a negative one counts down from the next power of two that is
above all declared methods. -/
def ofInt (n : Int) : MethodSet :=
  if 0 ≤ n then n.toNat
  else if -(any + 1 : Nat) ≤ n then (any + 1 + n).toNat
  else (Nat.pow 2 (n.natAbs.log2 + 1) + n).toNat

end MethodSet

end UrlRouting
