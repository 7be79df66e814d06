/-
What happens to a missing operand, that is, to a variable that is given as null.
-/
import Reckon.Datum

namespace Reckon

/-- The ways to treat missing operands. -/
inductive NullPolicy where
  /-- Missing operands are left out; an operation with none left fails. -/
  | dropNull
  /-- Missing operands are zero. -/
  | nullAsZero
  /-- A missing operand is an error. -/
  | throwOnNull
  deriving DecidableEq, Repr

namespace NullPolicy

def name : NullPolicy → String
  | dropNull => "drop_null"
  | nullAsZero => "null_as_zero"
  | throwOnNull => "throw_error"

/-- The policy of a name. -/
def ofName? (s : String) : Option NullPolicy :=
  if s = "drop_null" then some dropNull
  else if s = "null_as_zero" then some nullAsZero
  else if s = "throw_error" then some throwOnNull
  else none

/-- The policy that a value names; null names none. -/
def ofDatum? : Datum → Option NullPolicy
  | .text s => ofName? s
  | _ => none

theorem ofName?_name (p : NullPolicy) : ofName? p.name = some p := by cases p <;> rfl

end NullPolicy

end Reckon
