/-
Reading numbers from text. A number may stand between blanks and carry a sign;
it is written with digits of any script, with single underscores between digits,
with or without a point and an exponent, or as `inf`, `infinity` or `nan` in any
case of letters. The double nearest to what is written is read, ties to even.
-/
import Reckon.Text

namespace Reckon.Decimal

open Text (isDigit)

/-- The natural number that decimal digits write. -/
def digitsValue (cs : List Char) : Nat := cs.foldl (fun n c => 10 * n + (c.toNat - '0'.toNat)) 0

/-- The double nearest to `± coefficient · 10 ^ exponent`. Beyond the range of doubles the answer is
known without the power of ten. -/
def nearest (negative : Bool) (coefficient : Nat) (exponent : Int) : Float :=
  let magnitude :=
    if coefficient = 0 || exponent < -400 - coefficient.log2 then 0.0
    else if exponent > 400 then 1.0 / 0.0
    else if exponent < 0 then Float.ofScientific coefficient true exponent.natAbs
    else Float.ofScientific coefficient false exponent.natAbs
  if negative then -magnitude else magnitude

/-- A sign, if there is one, and what follows it; true is minus. -/
def takeSign : List Char → Bool × List Char
  | '-' :: cs => (true, cs)
  | '+' :: cs => (false, cs)
  | cs => (false, cs)

/-- A text without its underscores, each of which must stand between two digits. -/
def dropUnderscores : List Char → Option (List Char)
  | [] => some []
  | '_' :: _ => none
  | c :: '_' :: d :: cs =>
    if isDigit c && isDigit d then (dropUnderscores (d :: cs)).map (c :: ·) else none
  | c :: cs => (dropUnderscores cs).map (c :: ·)

/-- The exponent after the letter `e`: digits with an optional sign. -/
def exponent? (cs : List Char) : Option Int :=
  let (negative, digits) := takeSign cs
  if digits.isEmpty || !digits.all isDigit then none
  else if negative then some (-(digitsValue digits : Int))
  else some (digitsValue digits)

/-- Digits with at most one point among them, at least one digit, and an optional exponent. -/
def unsigned? (negative : Bool) (cs : List Char) : Option Float :=
  let whole := cs.takeWhile isDigit
  let (fraction, rest) :=
    match cs.dropWhile isDigit with
    | '.' :: r => (r.takeWhile isDigit, r.dropWhile isDigit)
    | r => ([], r)
  if whole.isEmpty && fraction.isEmpty then none
  else
    let coefficient := digitsValue (whole ++ fraction)
    match rest with
    | [] => some (nearest negative coefficient (-fraction.length))
    | e :: r =>
      if e = 'e' || e = 'E' then
        (exponent? r).map fun p => nearest negative coefficient (p - fraction.length)
      else none

/-- A number without blanks around it. -/
def bare? (cs : List Char) : Option Float :=
  let (negative, body) := takeSign cs
  let word := String.ofList (body.map Char.toLower)
  if word = "inf" || word = "infinity" then
    some (if negative then -(1.0 / 0.0) else 1.0 / 0.0)
  else if word = "nan" then some (0.0 / 0.0)
  else unsigned? negative body

/-- A character as it counts in a number: blanks beyond ASCII are spaces, and digits of any script
are the digits `0` to `9`. -/
def plainChar (c : Char) : Char :=
  if c.toNat < 128 then c
  else if Text.isBlank c then ' '
  else match Text.digitValue? c with
    | some d => Char.ofNat ('0'.toNat + d)
    | none => c

/-- The blanks of ASCII that may stand around a number. -/
def isMargin (c : Char) : Bool := c = ' ' || (9 ≤ c.toNat && c.toNat ≤ 13)

/-- The double that a text writes. -/
def read? (s : String) : Option Float :=
  (dropUnderscores (Text.trim isMargin (s.toList.map plainChar))).bind bare?

end Reckon.Decimal
