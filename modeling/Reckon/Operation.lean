/-
Operations: a symbol such as `+` or a name such as `ABS`, with a reducer over a
list of numbers and the counts of operands it takes. A reducer is any function;
it may return a value of any kind, and it may fail.
-/
import Reckon.Datum
import Reckon.Diagnostic

namespace Reckon

/-- What an operation does with the numbers it is given. -/
abbrev Reducer := List Float → Except Failure Datum

/-- A named operation. Functions are written `NAME(…)`, other operations between or before their
operands. -/
structure Operation where
  name : String
  isFunction : Bool
  reducer : Reducer
  /-- How tightly an operator binds; higher is tighter. -/
  precedence : Int := 0
  minArgs : Int := 1
  /-- The greatest count of operands; without one there is no bound. -/
  maxArgs : Option Int := none

namespace Operation

/-- An operator with a single operand. -/
def isUnary (o : Operation) : Bool := !o.isFunction && o.maxArgs == some 1

/-- Whether the operation takes this many operands. -/
def accepts (o : Operation) (count : Int) : Bool :=
  o.minArgs ≤ count && match o.maxArgs with
    | none => true
    | some most => count ≤ most

/-- The counts of operands that the operation takes, for error messages. -/
def operandCount (o : Operation) : OperandCount :=
  match o.maxArgs with
  | none => .atLeast o.minArgs
  | some most => if most = o.minArgs then .exactly o.minArgs else .between o.minArgs most

def apply (o : Operation) (values : List Float) : Except Failure Datum := o.reducer values

end Operation

end Reckon
