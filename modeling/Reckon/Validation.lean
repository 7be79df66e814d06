/-
Checking data that comes from outside. A check gives the value that a datum
stands for, or the problem with it; all problems of a record are collected, each
with the path to the datum that has it.
-/
import Reckon.Binary64
import Reckon.Datum
import Reckon.Decimal.Reading
import Reckon.Limits
import Reckon.Text

namespace Reckon

/-- The records that are checked. -/
inductive Subject where
  | settings
  | request
  deriving DecidableEq, Repr

/-- The name under which a record's problems are reported. -/
def Subject.title : Subject → String
  | .settings => "CalculatorConfig"
  | .request => "CalculationRequest"

/-- What is wrong with a datum. -/
inductive ValidationProblem where
  | missing
  | unexpected
  | notRecord (subject : Subject)
  | notMapping
  | notText
  | notBoolean
  | unreadableBoolean
  | notInteger
  | unreadableInteger
  | fractional
  | notFinite
  | oversized
  | notNumber
  | notAbove (bound : Int)
  | above (bound : Int)
  | notPolicy
  deriving DecidableEq, Repr

namespace ValidationProblem

/-- The short name of a problem. -/
def code : ValidationProblem → String
  | missing => "missing"
  | unexpected => "extra_forbidden"
  | notRecord _ => "model_type"
  | notMapping => "dict_type"
  | notText => "string_type"
  | notBoolean => "bool_type"
  | unreadableBoolean => "bool_parsing"
  | notInteger => "int_type"
  | unreadableInteger => "int_parsing"
  | fractional => "int_from_float"
  | notFinite => "finite_number"
  | oversized => "int_parsing_size"
  | notNumber => "float_type"
  | notAbove _ => "greater_than"
  | above _ => "less_than_equal"
  | notPolicy => "enum"

def message : ValidationProblem → String
  | missing => "Field required"
  | unexpected => "Extra inputs are not permitted"
  | notRecord subject => s!"Input should be a valid dictionary or instance of {subject.title}"
  | notMapping => "Input should be a valid dictionary"
  | notText => "Input should be a valid string"
  | notBoolean => "Input should be a valid boolean"
  | unreadableBoolean => "Input should be a valid boolean, unable to interpret input"
  | notInteger => "Input should be a valid integer"
  | unreadableInteger => "Input should be a valid integer, unable to parse string as an integer"
  | fractional => "Input should be a valid integer, got a number with a fractional part"
  | notFinite => "Input should be a finite number"
  | oversized => "Unable to parse input string as an integer, exceeded maximum size"
  | notNumber => "Input should be a valid number"
  | notAbove bound => s!"Input should be greater than {bound}"
  | above bound => s!"Input should be less than or equal to {bound}"
  | notPolicy => "Input should be 'drop_null', 'null_as_zero' or 'throw_error'"

end ValidationProblem

/-- A step on the way to a datum. -/
inductive PathStep where
  | field (name : String)
  | key (i : Int)
  deriving DecidableEq, Repr

/-- A problem and the path to the datum that has it. -/
structure Issue where
  path : List PathStep
  problem : ValidationProblem
  deriving DecidableEq, Repr

/-- All that is wrong with a record. -/
structure ValidationError where
  subject : Subject
  issues : List Issue
  deriving DecidableEq, Repr

namespace Check

/-- A check of one datum. -/
abbrev Checked (α : Type) := Except ValidationProblem α

def text : Datum → Checked String
  | .text s => .ok s
  | _ => .error .notText

/-- The words for true and false, in any case of ASCII letters. -/
def booleanWords : List (String × Bool) := [
  ("0", false), ("off", false), ("f", false), ("false", false), ("n", false), ("no", false),
  ("1", true), ("on", true), ("t", true), ("true", true), ("y", true), ("yes", true)]

/-- Truth values, the numbers zero and one, and words. An integer beyond 64 bits is looked at as a
real. -/
def boolean : Datum → Checked Bool
  | .bool b => .ok b
  | .int i =>
    if i = 0 then .ok false
    else if i = 1 then .ok true
    else if fitsWord i then .error .unreadableBoolean
    else .error .notBoolean
  | .real x =>
    if x == 0.0 then .ok false else if x == 1.0 then .ok true else .error .notBoolean
  | .text s =>
    match booleanWords.lookup (String.ofList (s.toList.map Char.toLower)) with
    | some b => .ok b
    | none => .error .unreadableBoolean
  | _ => .error .notBoolean

/-- Digits with single underscores between them. -/
def groupedDigits? (cs : List Char) : Option Nat :=
  match Decimal.dropUnderscores cs with
  | some digits =>
    if digits.isEmpty || !digits.all Text.isDigit then none else some (Decimal.digitsValue digits)
  | none => none

/-- The integer that a text writes: blanks around it, a sign, grouped digits, and a fraction of
zeros are allowed. -/
def readInteger? (s : String) : Option Int := do
  let (negative, body) := Decimal.takeSign (Text.trim Text.isWhiteSpace s.toList)
  let whole := body.takeWhile (· != '.')
  let n ← groupedDigits? whole
  match body.dropWhile (· != '.') with
  | [] => return if negative then -n else n
  | _ :: zeros =>
    if zeros.isEmpty || !zeros.all (· == '0') then none
    else return if negative then -n else n

/-- The integer that a real without a fraction is. -/
def integerOfReal (x : Float) : Checked Int :=
  match Binary64.value x with
  | .finite d =>
    match d.toInt? with
    | none => .error .fractional
    | some i => if fitsWord i.natAbs then .ok i else .error .oversized
  | _ => .error .notFinite

def integer : Datum → Checked Int
  | .int i => .ok i
  | .bool b => .ok (if b then 1 else 0)
  | .real x => integerOfReal x
  | .text s =>
    match readInteger? s with
    | some i => .ok i
    | none => .error .unreadableInteger
  | _ => .error .notInteger

/-- An integer above zero. -/
def positive (d : Datum) : Checked Int := do
  let i ← integer d
  if 0 < i then return i else throw (.notAbove 0)

/-- An integer that may be a nesting depth. -/
def nestingDepth (d : Datum) : Checked { i : Int // 0 < i ∧ i ≤ nestingCeiling } := do
  let i ← integer d
  if low : 0 < i then
    if high : i ≤ nestingCeiling then return ⟨i, low, high⟩ else throw (.above nestingCeiling)
  else throw (.notAbove 0)

/-- The issue of a check that fails, for the field of a name. -/
def issues {α : Type} (name : String) : Checked α → List Issue
  | .ok _ => []
  | .error problem => [⟨[.field name], problem⟩]

end Check

end Reckon
