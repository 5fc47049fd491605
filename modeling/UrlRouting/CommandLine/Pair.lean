import UrlRouting.CommandLine.Module

/-! Pairs such as `id=42`, and the mapping that several of them form. -/
namespace UrlRouting.CommandLine

/-- A text that consists of digits, perhaps after dashes, is taken for a whole number. -/
def looksNumeric (s : List Char) : Bool :=
  let digits := s.dropWhile (· == '-')
  !digits.isEmpty && digits.all fun c => Text.isDigit c.toNat

def parseValue (s : List Char) : Except Breakdown Value :=
  if looksNumeric s then
    match Text.readInteger s with
    | .ok n => .ok (.int n)
    | .error .notANumber => .error (.notInteger s)
    | .error (.tooManyDigits count) => .error (.integerTooLong count)
  else .ok (.str (String.ofList s))

/-- Key and value of a pair. The key may not be empty. -/
def cutPair? (pair : List Char) : Option (List Char × List Char) :=
  match Text.cutFirst? '=' pair with
  | some (key, value) => if key.isEmpty then none else some (key, value)
  | none => none

/-- What pairs come to. -/
inductive Pairs
  | values (m : Mapping)
  | malformed (pair : List Char)

/-- Adds pairs to a mapping, up to the first that is none. -/
def addPairs : Mapping → List (List Char) → Except Breakdown Pairs
  | m, [] => .ok (.values m)
  | m, pair :: rest => match cutPair? pair with
    | none => .ok (.malformed pair)
    | some (key, value) => do
      let value ← parseValue value
      let key ← parseValue key
      addPairs (m.insert key value) rest

def parsePairs (pairs : List (List Char)) : Except Breakdown Pairs :=
  addPairs [] pairs

def malformedLine (pair : List Char) : String :=
  "Expected KEY=VALUE, got '" ++ String.ofList pair ++ "'."

end UrlRouting.CommandLine
