/-
The reducers of arithmetic. Those of the infix operators fold any number of
operands from the left, so they still have a value when one of two operands was
dropped.
-/
import Reckon.Binary64
import Reckon.Operation

namespace Reckon.Arithmetic

/-- Folds a step over the operands from the left, starting with the first. -/
def fold (step : Float → Float → Except Failure Float) : List Float → Except Failure Float
  | [] => .error (.fault ⟨.type, "reduce() of empty iterable with no initial value"⟩)
  | x :: xs => xs.foldlM step x

/-- The first operand. -/
def first : List Float → Except Failure Float
  | [] => .error (.fault .indexOutOfRange)
  | x :: _ => .ok x

/-- The operand that no later one beats. A comparison with NaN beats nothing. -/
def best (beats : Float → Float → Bool) (what : String) : List Float → Except Failure Float
  | [] => .error (.fault ⟨.value, s!"{what}() arg is an empty sequence"⟩)
  | x :: xs => .ok (xs.foldl (fun held y => if beats y held then y else held) x)

def sum : List Float → Except Failure Float := fold fun total x => .ok (total + x)

def difference : List Float → Except Failure Float := fold fun rest x => .ok (rest - x)

def product : List Float → Except Failure Float := fold fun product x => .ok (product * x)

def quotient : List Float → Except Failure Float := fold fun quotient divisor =>
  if divisor == 0.0 then .error (.fault ⟨.zeroDivision, "Division by zero"⟩)
  else .ok (quotient / divisor)

/-- The remainder has the sign of the dividend. -/
def remainder : List Float → Except Failure Float := fold fun dividend divisor =>
  if divisor == 0.0 then .error (.fault ⟨.zeroDivision, "Modulo by zero"⟩)
  else match Binary64.remainder? dividend divisor with
    | some r => .ok r
    | none => .error (.fault ⟨.value, "math domain error"⟩)

def negation (values : List Float) : Except Failure Float := do
  let x ← first values
  return -x

def absolute (values : List Float) : Except Failure Float := do
  let x ← first values
  return x.abs

def minimum : List Float → Except Failure Float := best (fun y held => y < held) "min"

def maximum : List Float → Except Failure Float := best (fun y held => held < y) "max"

def average (values : List Float) : Except Failure Float := do
  let total ← sum values
  return total / Float.ofNat values.length

/-- A function on numbers as a reducer. -/
def reducer (f : List Float → Except Failure Float) : Reducer := fun values => do
  let x ← f values
  return .real x

end Reckon.Arithmetic

/-- The minus sign before an operand. No registry holds it: the grammar alone knows it. -/
def Reckon.Operation.negation : Reckon.Operation where
  name := "-"
  isFunction := false
  reducer := Reckon.Arithmetic.reducer Reckon.Arithmetic.negation
  minArgs := 1
  maxArgs := some 1
