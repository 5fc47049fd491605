import UrlRouting.Text.CharacterKind

/-! Whole numbers written in decimal digits of any script: blanks around, a sign in front and
single underscores between the digits are allowed. -/
namespace UrlRouting.Text

/-- Why a text is no whole number. -/
inductive IntegerFault
  | notANumber
  | tooManyDigits (count : Nat)
  deriving DecidableEq, Repr

/-- Longer numbers are refused, since reading one takes time quadratic in its length. -/
def integerDigitLimit : Nat := 4300

/-- Blanks as numbers allow them: the information separators are not among them. -/
def isNumberBlank (c : Char) : Bool :=
  if c.toNat < 0x80 then isAsciiBlank c.toNat else isBlank c.toNat

/-- The digits up to the first other character, and the rest. `isOpen` says that an underscore was
just read, which has to be followed by a digit. -/
def takeDigits : (isOpen : Bool) → List Char → Option (List Nat × List Char)
  | isOpen, [] => if isOpen then none else some ([], [])
  | isOpen, c :: rest =>
    if c = '_' then
      if isOpen then none else takeDigits true rest
    else match decimalValue? c.toNat with
      | some d => (takeDigits false rest).map fun p => (d :: p.1, p.2)
      | none => if isOpen then none else some ([], c :: rest)

def ofDigits (digits : List Nat) : Nat :=
  digits.foldl (fun n d => 10 * n + d) 0

def readNatural (s : List Char) : Except IntegerFault Nat :=
  if s.head? = some '_' then .error .notANumber
  else match takeDigits false s with
    | none => .error .notANumber
    | some (digits, rest) =>
      if digits.length > integerDigitLimit then .error (.tooManyDigits digits.length)
      else if digits.isEmpty || !rest.all isNumberBlank then .error .notANumber
      else .ok (ofDigits digits)

def readInteger (s : List Char) : Except IntegerFault Int :=
  match s.dropWhile isNumberBlank with
  | '-' :: rest => (readNatural rest).map fun n : Nat => -(n : Int)
  | '+' :: rest => (readNatural rest).map fun n : Nat => (n : Int)
  | rest => (readNatural rest).map fun n : Nat => (n : Int)

end UrlRouting.Text
