/-
The text of a double: the shortest digits that read back, laid out positionally
or with an exponent. All decisions of the layout stand in one record.
-/
import Reckon.Binary64
import Reckon.Decimal.Shortest

namespace Reckon.Decimal

/-- How digits are laid out. -/
structure Layout where
  /-- The least exponent of the first digit that is written positionally. -/
  positionalFrom : Int
  /-- The first exponent above that is no longer written positionally. -/
  positionalBelow : Int
  /-- The least number of digits of a written exponent; its sign is always written. -/
  exponentWidth : Nat
  infinity : String
  nan : String

/-- Numbers from `0.0001` on and below `1e+16` are positional and have a fraction; others have one
digit before the point and an exponent of at least two digits. -/
def plain : Layout where
  positionalFrom := -4
  positionalBelow := 16
  exponentWidth := 2
  infinity := "inf"
  nan := "nan"

/-- Digits with a point in or beside them; `place` counts the digits before the point. -/
def positional (digits : List Char) (place : Int) : List Char :=
  if place ≤ 0 then '0' :: '.' :: List.replicate (-place).toNat '0' ++ digits
  else
    let whole := digits.take place.toNat
    let fraction := digits.drop place.toNat
    whole ++ List.replicate (place.toNat - whole.length) '0' ++
      '.' :: if fraction.isEmpty then ['0'] else fraction

/-- One digit, a point before any further digits, and the exponent. -/
def scientific (width : Nat) (digits : List Char) (exponent : Int) : List Char :=
  let fraction := digits.drop 1
  let power := Nat.toDigits 10 exponent.natAbs
  digits.take 1 ++ (if fraction.isEmpty then [] else '.' :: fraction) ++
    'e' :: (if exponent < 0 then '-' else '+') ::
      List.replicate (width - power.length) '0' ++ power

/-- The digits of a decimal in a layout. -/
def Layout.digits (l : Layout) (d : Decimal) : List Char :=
  let digits := Nat.toDigits 10 d.coefficient
  let leading := d.exponent + digits.length - 1
  if l.positionalFrom ≤ leading && leading < l.positionalBelow then
    positional digits (leading + 1)
  else scientific l.exponentWidth digits leading

/-- A double in a layout. Zero keeps its sign, NaN has none. -/
def Layout.write (l : Layout) (x : Float) : String :=
  match Binary64.value x with
  | .nan => l.nan
  | .infinite negative => (if negative then "-" else "") ++ l.infinity
  | .finite d =>
    let shortened := if d.significand = 0 then ⟨0, 0⟩ else shortest d.significand d.exponent
    (if d.negative then "-" else "") ++ String.ofList (l.digits shortened)

end Reckon.Decimal

/-- The text of a double throughout the library. -/
def Reckon.numberText (x : Float) : String := Reckon.Decimal.plain.write x
