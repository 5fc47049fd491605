import UrlRouting.RoutingError

/-! How values are written: as they stand in a path, and quoted as in a listing of values. A number
of more digits than may be read may not be written either. -/
namespace UrlRouting.Value

mutual

/-- The listing form: texts are quoted, collections show their members in this form. -/
def quoted : Value → String
  | none => "None"
  | bool b => if b then "True" else "False"
  | int n => toString n
  | float x => x.text
  | str s => Text.quoted s
  | bytes b => Text.quotedBytes b
  | list items => "[" ++ ", ".intercalate (quotedItems items) ++ "]"
  | tuple [v] => "(" ++ quoted v ++ ",)"
  | tuple items => "(" ++ ", ".intercalate (quotedItems items) ++ ")"
  | dict entries => "\x7b" ++ ", ".intercalate (quotedEntries entries) ++ "\x7d"
  | methods mask => MethodSet.describe mask
  | handler name => "<handler " ++ name ++ ">"

def quotedItems : List Value → List String
  | [] => []
  | v :: rest => quoted v :: quotedItems rest

def quotedEntries : List (Value × Value) → List String
  | [] => []
  | (k, v) :: rest => (quoted k ++ ": " ++ quoted v) :: quotedEntries rest

end

/-- The form in which a value stands in a path: a text is itself and a set of methods its mask. -/
def text : Value → String
  | str s => s
  | methods mask => toString mask
  | v => quoted v

def isShort (n : Nat) : Bool :=
  n < Nat.pow 10 Text.integerDigitLimit

mutual

/-- All numbers in a value are short enough to be written. -/
def isWritable : Value → Bool
  | int n => isShort n.natAbs
  | methods mask => isShort mask
  | list items => areWritable items
  | tuple items => areWritable items
  | dict entries => areEntriesWritable entries
  | _ => true

def areWritable : List Value → Bool
  | [] => true
  | v :: rest => isWritable v && areWritable rest

def areEntriesWritable : List (Value × Value) → Bool
  | [] => true
  | (k, v) :: rest => isWritable k && isWritable v && areEntriesWritable rest

end

/-- Writes a value as it stands in a path. -/
def write (v : Value) : Except RoutingError String :=
  if v.isWritable then .ok v.text else .error .numberUnwritable

/-- Writes a value in the listing form. -/
def writeQuoted (v : Value) : Except RoutingError String :=
  if v.isWritable then .ok v.quoted else .error .numberUnwritable

end UrlRouting.Value
