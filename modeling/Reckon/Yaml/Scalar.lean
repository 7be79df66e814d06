/-
What a scalar without quotes means in YAML 1.1: null, a truth value, an integer
in one of several bases, a real, a date, or else the text itself.
-/
import Reckon.Datum
import Reckon.Decimal.Reading

namespace Reckon.Yaml

open Text (isDigit)

def nullWords : List String := ["", "~", "null", "Null", "NULL"]

def trueWords : List String := [
  "yes", "Yes", "YES", "true", "True", "TRUE", "on", "On", "ON"]

def falseWords : List String := [
  "no", "No", "NO", "false", "False", "FALSE", "off", "Off", "OFF"]

/-- Digits of a base, with any underscores among them dropped. -/
def digitsIn (base : Nat) (cs : List Char) : Option Nat :=
  let digits := cs.filter (· != '_')
  let value (c : Char) : Nat :=
    if isDigit c then c.toNat - '0'.toNat
    else if 'a' ≤ c && c ≤ 'f' then c.toNat - 'a'.toNat + 10
    else if 'A' ≤ c && c ≤ 'F' then c.toNat - 'A'.toNat + 10
    else base
  if digits.isEmpty || digits.any (base ≤ value ·) then none
  else some (digits.foldl (fun n c => base * n + value c) 0)

/-- The parts of a text between colons. -/
def splitColons : List Char → List (List Char)
  | [] => [[]]
  | c :: cs =>
    match splitColons cs with
    | [] => [[c]]
    | part :: rest => if c = ':' then [] :: part :: rest else (c :: part) :: rest

/-- A part of a number in base sixty: one or two digits below sixty. -/
def isSixtieth (cs : List Char) : Bool :=
  match cs with
  | [a] => isDigit a
  | [a, b] => '0' ≤ a && a ≤ '5' && isDigit b
  | _ => false

/-- The value of parts in base sixty. -/
def sixtyValue (parts : List Nat) : Nat := parts.foldl (fun n p => 60 * n + p) 0

/-- An integer in base sixty, such as `1:30`. -/
def sixtyInteger? (cs : List Char) : Option Nat :=
  match splitColons cs with
  | first :: second :: rest =>
    if first.head? == some '0' || !(second :: rest).all isSixtieth then none
    else do
      let first ← if first.head?.any isDigit then digitsIn 10 first else none
      return sixtyValue (first :: (second :: rest).map Decimal.digitsValue)
  | _ => none

/-- An integer without its sign: binary, octal with a leading zero, hexadecimal, decimal, or in base
sixty. -/
def natural? (cs : List Char) : Option Nat :=
  match cs with
  | ['0'] => some 0
  | '0' :: 'b' :: digits => digitsIn 2 digits
  | '0' :: 'x' :: digits => digitsIn 16 digits
  | '0' :: _ => digitsIn 8 cs
  | c :: _ =>
    if !isDigit c then none
    else (digitsIn 10 cs).or (sixtyInteger? cs)
  | [] => none

def integer? (cs : List Char) : Option Int :=
  let (negative, body) := Decimal.takeSign cs
  (natural? body).map fun n => if negative then -n else n

/-- The exponent of a real: a letter, a sign that must be there, and digits. -/
def realExponent? (cs : List Char) : Option Int :=
  match cs with
  | [] => some 0
  | e :: sign :: digits =>
    if (e == 'e' || e == 'E') && (sign == '-' || sign == '+') && !digits.isEmpty &&
        digits.all isDigit then
      let n : Int := Decimal.digitsValue digits
      some (if sign == '-' then -n else n)
    else none
  | _ => none

/-- A digit, or an underscore among digits. -/
def isRealDigit (c : Char) : Bool := isDigit c || c == '_'

/-- A real with a point among its digits; without digits before the point it has no sign. -/
def pointReal? (negative signed : Bool) (cs : List Char) : Option Float :=
  let whole := cs.takeWhile isRealDigit
  match cs.dropWhile isRealDigit with
  | '.' :: rest =>
    let fraction := rest.takeWhile isRealDigit
    let startsWell :=
      if whole.isEmpty then !signed && fraction.head?.any isDigit else whole.head?.any isDigit
    if !startsWell then none
    else do
      let power ← realExponent? (rest.dropWhile isRealDigit)
      let places := fraction.filter isDigit
      let coefficient := Decimal.digitsValue ((whole ++ fraction).filter isDigit)
      return Decimal.nearest negative coefficient (power - places.length)
  | _ => none

/-- A real in base sixty, such as `1:30.5`: its last part may have a fraction. -/
def sixtyReal? (negative : Bool) (cs : List Char) : Option Float :=
  let front := cs.takeWhile (· != '.')
  match cs.dropWhile (· != '.'), splitColons front with
  | '.' :: fraction, first :: second :: rest =>
    if !fraction.all isRealDigit || !first.head?.any isDigit ||
        !(second :: rest).all isSixtieth then none
    else do
      let first ← digitsIn 10 first
      let whole := sixtyValue (first :: (second :: rest).map Decimal.digitsValue)
      let places := fraction.filter isDigit
      let coefficient := whole * Nat.pow 10 places.length + Decimal.digitsValue places
      return Decimal.nearest negative coefficient (-places.length)
  | _, _ => none

def real? (cs : List Char) : Option Float :=
  let (negative, body) := Decimal.takeSign cs
  let signed := body.length != cs.length
  let word := String.ofList body
  if [".inf", ".Inf", ".INF"].contains word then
    some (if negative then -(1.0 / 0.0) else 1.0 / 0.0)
  else if !signed && [".nan", ".NaN", ".NAN"].contains word then some (0.0 / 0.0)
  else (pointReal? negative signed body).or (sixtyReal? negative body)

/-- Four digits, two digits and two digits, with hyphens between them. -/
def isDate (cs : List Char) : Bool :=
  match cs with
  | [a, b, c, d, '-', e, f, '-', g, h] => [a, b, c, d, e, f, g, h].all isDigit
  | _ => false

/-- What a scalar without quotes means; the marks for a merge and for a default value mean nothing
by themselves. -/
def plainDatum? (s : String) : Option Datum :=
  let cs := s.toList
  if nullWords.contains s then some .null
  else if trueWords.contains s then some (.bool true)
  else if falseWords.contains s then some (.bool false)
  else if s == "=" || s == "<<" then none
  else match integer? cs with
    | some i => some (.int i)
    | none =>
      match real? cs with
      | some x => some (.real x)
      | none => if isDate cs then some (.foreign "date") else some (.text s)

end Reckon.Yaml
