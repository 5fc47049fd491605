/-! Floating-point numbers of 53 binary digits: exact values, rounding of decimals, and the
shortest decimal that reads back. -/
namespace UrlRouting

/-- A finite number is `mantissa * 2 ^ exponent`, the mantissa having 53 binary digits or the
exponent being the least one. A number that is no number carries a tag: two such values with one
tag are one value. -/
inductive Binary64
  | nan (tag : Nat)
  | infinity (negative : Bool)
  | finite (negative : Bool) (mantissa : Nat) (exponent : Int)
  deriving DecidableEq, Repr

namespace Binary64

def leastExponent : Int := -1074

def greatestExponent : Int := 971

def isNan : Binary64 → Bool
  | nan _ => true
  | _ => false

def isZero : Binary64 → Bool
  | finite _ m _ => m == 0
  | _ => false

/-- Numeric equality: the two zeros are equal and nothing equals a value that is no number. -/
def equal : Binary64 → Binary64 → Bool
  | nan _, _ => false
  | _, nan _ => false
  | infinity a, infinity b => a == b
  | finite a m e, finite b n f => (m == 0 && n == 0) || (a == b && m == n && e == f)
  | _, _ => false

/-- The number is the whole number `n`. -/
def equalsInt (x : Binary64) (n : Int) : Bool :=
  match x with
  | finite negative m e =>
    let size := n.natAbs
    (m == 0 && size == 0) ||
      (negative == decide (n < 0) &&
        if 0 ≤ e then m * Nat.pow 2 e.toNat == size else m == size * Nat.pow 2 (-e).toNat)
  | _ => false

/-- The nearest whole number to `num / den`, a half going to the even one. -/
def roundQuotient (num den : Nat) : Nat :=
  let q := num / den
  let twice := 2 * (num % den)
  if twice < den || (twice == den && q % 2 == 0) then q else q + 1

/-- The number nearest to `num / den`. -/
def ofQuotient (negative : Bool) (num den : Nat) : Binary64 :=
  if num == 0 then finite negative 0 leastExponent
  else
    let quotientAt (e : Int) : Nat × Nat :=
      if 0 ≤ e then (num, den * Nat.pow 2 e.toNat) else (num * Nat.pow 2 (-e).toNat, den)
    let low := max leastExponent ((num.log2 : Int) - den.log2 - 53)
    let (n, d) := quotientAt low
    let e := if n / d < Nat.pow 2 53 then low else low + 1
    let (n, d) := quotientAt e
    let m := roundQuotient n d
    let (m, e) := if m == Nat.pow 2 53 then (Nat.pow 2 52, e + 1) else (m, e)
    if e > greatestExponent then infinity negative else finite negative m e

/-- The number nearest to `digits * 10 ^ power`. -/
def ofDecimal (negative : Bool) (digits : Nat) (power : Int) : Binary64 :=
  if 0 ≤ power then ofQuotient negative (digits * Nat.pow 10 power.toNat) 1
  else ofQuotient negative digits (Nat.pow 10 (-power).toNat)

/-- The exponent of the leading decimal digit of `num / den`, which is positive. -/
def leadingPower (num den : Nat) : Int :=
  if den ≤ num then ((Nat.toDigits 10 (num / den)).length : Int) - 1
  else -((Nat.toDigits 10 ((den + num - 1) / num - 1)).length : Int)

/-- The reals that round to `mantissa * 2 ^ exponent`, in quarters of its last binary digit. -/
structure Basin where
  value : Nat
  low : Nat
  high : Nat
  closed : Bool
  exponent : Int

def basin (mantissa : Nat) (exponent : Int) : Basin where
  value := 4 * mantissa
  low := if mantissa == Nat.pow 2 52 && exponent > leastExponent then 4 * mantissa - 1
    else 4 * mantissa - 2
  high := 4 * mantissa + 2
  closed := mantissa % 2 == 0
  exponent := exponent - 2

namespace Basin

/-- `units * 2 ^ exponent` and `digits * 10 ^ power` over one denominator. -/
def compared (b : Basin) (units digits : Nat) (power : Int) : Nat × Nat :=
  (units * Nat.pow 2 b.exponent.toNat * Nat.pow 10 (-power).toNat,
    digits * Nat.pow 10 power.toNat * Nat.pow 2 (-b.exponent).toNat)

def holds (b : Basin) (digits : Nat) (power : Int) : Bool :=
  let (low, x) := b.compared b.low digits power
  let (high, _) := b.compared b.high digits power
  if b.closed then low ≤ x && x ≤ high else low < x && x < high

/-- How far a decimal is from the value, over a denominator that depends on `power` only. -/
def distance (b : Basin) (digits : Nat) (power : Int) : Nat :=
  let (v, x) := b.compared b.value digits power
  (v - x) + (x - v)

/-- The value's neighbour with the last digit at `power` that rounds to it; of two, the nearer. -/
def neighbour? (b : Basin) (power : Int) : Option (Nat × Int) :=
  let (v, unit) := b.compared b.value 1 power
  let below := v / unit
  match b.holds below power, b.holds (below + 1) power with
  | true, true =>
    let down := b.distance below power
    let up := b.distance (below + 1) power
    if down < up || (down == up && below % 2 == 0) then some (below, power)
    else some (below + 1, power)
  | true, false => some (below, power)
  | false, true => some (below + 1, power)
  | false, false => none

end Basin

/-- The decimal with the fewest digits that reads back as a positive number. Seventeen digits are
always enough. -/
def shortest (mantissa : Nat) (exponent : Int) : Nat × Int :=
  let b := basin mantissa exponent
  let top := leadingPower (mantissa * Nat.pow 2 exponent.toNat) (Nat.pow 2 (-exponent).toNat)
  ((List.range 17).findSome? fun (n : Nat) => b.neighbour? (top - n)).getD (mantissa, exponent)

/-- How numbers are written: positional notation for leading digits from `10 ^ lowestPositional`
up to, but not including, `10 ^ positionalEnd`. -/
structure DecimalStyle where
  lowestPositional : Int
  positionalEnd : Int
  exponentDigits : Nat

/-- Numbers from 0.0001 up to 10^16 are written positionally, others with an exponent of two
digits or more. -/
def textStyle : DecimalStyle := ⟨-4, 16, 2⟩

def padLeft (width : Nat) (s : List Char) : List Char :=
  List.replicate (width - s.length) '0' ++ s

def writeDecimal (style : DecimalStyle) (digits : Nat) (power : Int) : List Char :=
  let shown := ((Nat.toDigits 10 digits).reverse.dropWhile (· == '0')).reverse
  let dropped := (Nat.toDigits 10 digits).length - shown.length
  let power := power + dropped
  let lead := power + shown.length - 1
  if style.lowestPositional ≤ lead && lead < style.positionalEnd then
    if lead < 0 then '0' :: '.' :: List.replicate (-lead - 1).toNat '0' ++ shown
    else if 0 ≤ power then shown ++ List.replicate power.toNat '0' ++ ['.', '0']
    else shown.take (lead + 1).toNat ++ '.' :: shown.drop (lead + 1).toNat
  else
    let size := padLeft style.exponentDigits (Nat.toDigits 10 lead.natAbs)
    let fraction := if shown.length ≤ 1 then [] else '.' :: shown.drop 1
    shown.take 1 ++ fraction ++ 'e' :: (if lead < 0 then '-' else '+') :: size

def text : Binary64 → String
  | nan _ => "nan"
  | infinity negative => if negative then "-inf" else "inf"
  | finite negative m e =>
    let sign := if negative then "-" else ""
    if m == 0 then sign ++ "0.0"
    else
      let (digits, power) := shortest m e
      sign ++ String.ofList (writeDecimal textStyle digits power)

/-- Reads digits, an optional fraction and an optional exponent. -/
def readUnsigned? (negative : Bool) (s : List Char) : Option Binary64 :=
  let value (ds : List Char) : Nat := ds.foldl (fun n c => 10 * n + (c.toNat - 0x30)) 0
  let whole := s.takeWhile Char.isDigit
  let rest := s.dropWhile Char.isDigit
  let (fraction, rest) := match rest with
    | '.' :: more => (more.takeWhile Char.isDigit, more.dropWhile Char.isDigit)
    | _ => ([], rest)
  if whole.isEmpty && fraction.isEmpty then none
  else
    let digits := value (whole ++ fraction)
    let build (power : Int) := ofDecimal negative digits (power - fraction.length)
    match rest with
    | [] => some (build 0)
    | e :: more =>
      if e != 'e' && e != 'E' then none
      else
        let (down, ds) := match more with
          | '-' :: ds => (true, ds)
          | '+' :: ds => (false, ds)
          | _ => (false, more)
        if ds.isEmpty || !ds.all Char.isDigit then none
        else some (build (if down then -(value ds : Int) else value ds))

/-- Reads a number as `text` writes it. A value that is no number gets the given tag. -/
def read? (tag : Nat) (s : List Char) : Option Binary64 :=
  let (negative, rest) := match s with
    | '-' :: rest => (true, rest)
    | '+' :: rest => (false, rest)
    | _ => (false, s)
  match String.ofList rest with
  | "nan" => some (nan tag)
  | "inf" | "infinity" => some (infinity negative)
  | _ => readUnsigned? negative rest

end Binary64

end UrlRouting
