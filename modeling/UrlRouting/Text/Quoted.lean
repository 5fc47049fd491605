import UrlRouting.Text.Visible

/-! Quoted texts and byte strings: single quotes, unless the content has single quotes and no
double ones; what cannot be shown is written by its number. -/
namespace UrlRouting.Text

def hexDigit (n : Nat) : Char :=
  if n < 10 then Char.ofNat (0x30 + n) else Char.ofNat (0x57 + n)

/-- The last `width` hexadecimal digits of a number. -/
def hexDigits : (width : Nat) → Nat → List Char
  | 0, _ => []
  | width + 1, n => hexDigits width (n / 16) ++ [hexDigit (n % 16)]

/-- The quotation mark for a content. -/
def quoteFor (codes : List Nat) : Nat :=
  if codes.contains 0x27 && !codes.contains 0x22 then 0x22 else 0x27

/-- What is written alike in texts and in byte strings. -/
def quotedControl? (quote code : Nat) : Option (List Char) :=
  if code == quote || code == 0x5C then some ['\\', Char.ofNat code]
  else match code with
    | 0x09 => some ['\\', 't']
    | 0x0A => some ['\\', 'n']
    | 0x0D => some ['\\', 'r']
    | _ => none

def quotedChar (quote : Nat) (c : Char) : List Char :=
  let code := c.toNat
  match quotedControl? quote code with
  | some cs => cs
  | none =>
    if isVisible code then [c]
    else if code < 0x100 then '\\' :: 'x' :: hexDigits 2 code
    else if code < 0x10000 then '\\' :: 'u' :: hexDigits 4 code
    else '\\' :: 'U' :: hexDigits 8 code

def quotedByte (quote : Nat) (b : UInt8) : List Char :=
  let code := b.toNat
  match quotedControl? quote code with
  | some cs => cs
  | none =>
    if 0x20 ≤ code && code < 0x7F then [Char.ofNat code] else '\\' :: 'x' :: hexDigits 2 code

def quoted (s : String) : String :=
  let cs := s.toList
  let quote := quoteFor (cs.map Char.toNat)
  let mark := Char.ofNat quote
  String.ofList (mark :: cs.flatMap (quotedChar quote) ++ [mark])

def quotedBytes (bytes : List UInt8) : String :=
  let quote := quoteFor (bytes.map UInt8.toNat)
  let mark := Char.ofNat quote
  String.ofList ('b' :: mark :: bytes.flatMap (quotedByte quote) ++ [mark])

end UrlRouting.Text
