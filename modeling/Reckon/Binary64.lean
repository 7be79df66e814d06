/-
Doubles as exact numbers: a sign, a significand and the exponent of its unit,
read from the bits and written back to them. On top of that the truncated
remainder, which is exact, so it is computed on naturals.
-/
namespace Reckon.Binary64

/-- The number `± significand · 2 ^ exponent`. -/
structure Dyadic where
  negative : Bool
  significand : Nat
  exponent : Int
  deriving Repr, DecidableEq

/-- What a double stands for. -/
inductive Value where
  | nan
  | infinite (negative : Bool)
  | finite (d : Dyadic)
  deriving Repr, DecidableEq

/-- The value of a double, from its sign bit, its exponent field and its fraction field. -/
def value (x : Float) : Value :=
  let bits : Nat := x.toBits.toNat
  let negative := bits / Nat.pow 2 63 == 1
  let field : Nat := bits / Nat.pow 2 52 % Nat.pow 2 11
  let fraction : Nat := bits % Nat.pow 2 52
  if field = 2047 then if fraction = 0 then .infinite negative else .nan
  else if field = 0 then .finite ⟨negative, fraction, -1074⟩
  else .finite ⟨negative, fraction + Nat.pow 2 52, (field : Int) - 1075⟩

/-- The double of a number that some double stands for: the significand is below `2 ^ 53`, and is
shifted up to 53 bits as far as the exponent range allows. -/
def ofDyadic (d : Dyadic) : Float :=
  let sign := if d.negative then Nat.pow 2 63 else 0
  let shift := min (52 - d.significand.log2) (d.exponent + 1074).toNat
  let significand := d.significand * Nat.pow 2 shift
  let field := if significand < Nat.pow 2 52 then 0 else (d.exponent - shift + 1075).toNat
  Float.ofBits (UInt64.ofNat (sign + field * Nat.pow 2 52 + significand % Nat.pow 2 52))

/-- The integer that a finite double is, if it is one. -/
def Dyadic.toInt? (d : Dyadic) : Option Int :=
  let signed : Int := if d.negative then -d.significand else d.significand
  let unit : Int := Nat.pow 2 d.exponent.natAbs
  if 0 ≤ d.exponent then some (signed * unit)
  else if signed % unit = 0 then some (signed / unit)
  else none

/-- The remainder of two finite doubles over their common unit. It has the sign of the dividend,
and its significand stays below that of the operand with the smaller unit. -/
def Dyadic.remainder (a b : Dyadic) : Dyadic :=
  let unit := min a.exponent b.exponent
  let dividend := a.significand * Nat.pow 2 (a.exponent - unit).toNat
  let divisor := b.significand * Nat.pow 2 (b.exponent - unit).toNat
  ⟨a.negative, dividend % divisor, unit⟩

/-- The remainder of a division truncated toward zero. There is none for an infinite dividend or a
zero divisor; NaN goes through. -/
def remainder? (x y : Float) : Option Float :=
  match value x, value y with
  | .nan, _ => some x
  | _, .nan => some y
  | .infinite _, _ => none
  | .finite _, .infinite _ => some x
  | .finite a, .finite b => if b.significand = 0 then none else some (ofDyadic (a.remainder b))

end Reckon.Binary64
