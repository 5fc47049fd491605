import UrlRouting.Text.Pieces
import UrlRouting.Value.Text

/-! Arguments in the tail of a path: `/foo/bar:baz` has the positional argument `foo` and the
argument `baz` named `bar`. -/
namespace UrlRouting

structure WildcardArg where
  /-- Nothing, for a positional argument. -/
  name : Value
  value : Value

namespace WildcardArg

def isPositional (a : WildcardArg) : Bool :=
  match a.name with
  | .none => true
  | _ => false

def positional (value : Value) : WildcardArg :=
  ⟨.none, value⟩

/-- Puts an argument in the place of the first one with an equal name, or else at the end. -/
def replaceOrAppend (a : WildcardArg) : List WildcardArg → List WildcardArg
  | [] => [a]
  | b :: rest => if b.name.equal a.name then a :: rest else b :: replaceOrAppend a rest

/-- Adds an argument. A positional one always goes to the end, and a named one replaces the
argument of its name. -/
def merge (args : List WildcardArg) (a : WildcardArg) : List WildcardArg :=
  if a.isPositional then args ++ [a] else replaceOrAppend a args

def mergeAll (args news : List WildcardArg) : List WildcardArg :=
  news.foldl merge args

/-- The argument that a piece of a tail stands for: up to its first colon is the name. -/
def ofPiece (piece : List Char) : WildcardArg :=
  match Text.cutFirst? ':' piece with
  | some (name, value) => ⟨.str (String.ofList name), .str (String.ofList value)⟩
  | none => positional (.str (String.ofList piece))

/-- Reads a tail. Empty pieces count for nothing. -/
def parse (tail : List Char) : List WildcardArg :=
  let pieces := Text.pieces '/' (Text.trim (· == '/') tail)
  mergeAll [] ((pieces.filter (!·.isEmpty)).map ofPiece)

def parseValue : Value → Except RoutingError (List WildcardArg)
  | .str tail => .ok (parse tail.toList)
  | .bytes _ => .error .tailOfBytes
  | v => .error (.noAttribute v.kind "strip")

/-- The piece of a tail for an argument. -/
def piece (a : WildcardArg) : List Char :=
  if a.isPositional then a.value.text.toList else a.name.text.toList ++ ':' :: a.value.text.toList

def joined (args : List WildcardArg) : List Char :=
  Text.joinPieces '/' (args.map piece)

def isWritable (a : WildcardArg) : Bool :=
  a.name.isWritable && a.value.isWritable

/-- Writes arguments as a tail. -/
def format (args : List WildcardArg) : Except RoutingError (List Char) :=
  if args.all isWritable then .ok (joined args) else .error .numberUnwritable

end WildcardArg

namespace Value

/-- Whole numbers, and texts of ASCII digits such as `0`, name arguments by position. -/
def isPositional (key : Value) : Bool :=
  match key with
  | str s => !s.isEmpty && s.toList.all Char.isDigit
  | k => k.asInt?.isSome

end Value

end UrlRouting
