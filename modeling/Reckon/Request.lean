/-
A request to evaluate one expression: checked data, with every variable null or
a number.
-/
import Reckon.Decimal.Layout
import Reckon.NullPolicy
import Reckon.Validation

namespace Reckon

/-- An expression with its variables and the ways to treat them. -/
structure Request where
  expression : String
  bindings : Bindings
  nullPolicy : NullPolicy
  /-- The comma is the decimal mark. -/
  international : Bool

/-- A variable's name, which ought to be a text, and its value. -/
abbrev Assignment := Datum × Datum

namespace Request

/-- The step of a path for a name. -/
def stepOf : Datum → PathStep
  | .text s => .field s
  | .int i => if fitsWord i then .key i else .field s!"{i}"
  | .bool b => .key (if b then 1 else 0)
  | .real x => .field (Decimal.plain.write x)
  | _ => .field "None"

/-- What is wrong with an assignment. A value that is neither null nor a number has two problems:
it is no real, and no integer. -/
def assignmentIssues (a : Assignment) : List Issue :=
  let path (last : String) : List PathStep := [.field "variables", stepOf a.1, .field last]
  (match a.1 with
    | .text _ => []
    | _ => [⟨path "[key]", .notText⟩]) ++
  (match a.2 with
    | .null => []
    | .int _ => []
    | .real _ => []
    | _ => [⟨path "float", .notNumber⟩, ⟨path "int", .notInteger⟩])

/-- The assignments to names that are texts. -/
def textBindings (assignments : List Assignment) : Bindings :=
  assignments.filterMap fun a => match a.1 with
    | .text name => some (name, a.2)
    | _ => none

/-- The variables of a checked request, or all that is wrong with them. -/
def checkVariables (assignments : List Assignment) : Except (List Issue) Bindings :=
  match assignments.flatMap assignmentIssues with
  | [] => .ok (textBindings assignments)
  | issues => .error issues

/-- The request made of checked parts, or the issues of all parts that fail. -/
def combine (expression : Check.Checked String) (bindings : Except (List Issue) Bindings)
    (nullPolicy : Check.Checked NullPolicy) (international : Check.Checked Bool) :
    Except ValidationError Request :=
  match expression, bindings, nullPolicy, international with
  | .ok expression, .ok bindings, .ok nullPolicy, .ok international =>
    .ok { expression, bindings, nullPolicy, international }
  | _, _, _, _ =>
    .error {
      subject := .request
      issues := Check.issues "expression" expression ++
        (match bindings with
          | .ok _ => []
          | .error issues => issues) ++
        Check.issues "null_policy" nullPolicy ++
        Check.issues "international_format" international }

/-- A policy that must be named exactly. -/
def checkPolicy (d : Datum) : Check.Checked NullPolicy :=
  match NullPolicy.ofDatum? d with
  | some policy => .ok policy
  | none => .error .notPolicy

/-- The variables in a record's field. -/
def checkVariablesField : Datum → Except (List Issue) Bindings
  | .record fields => checkVariables (fields.map fun p => (.text p.1, p.2))
  | _ => .error [⟨[.field "variables"], .notMapping⟩]

/-- The request that a record holds. Only the expression must be there; unknown fields do not
matter. -/
def ofFields (fields : Bindings) : Except ValidationError Request :=
  combine
    (match fields.get? "expression" with
      | some d => Check.text d
      | none => .error .missing)
    (match fields.get? "variables" with
      | some d => checkVariablesField d
      | none => .ok [])
    (match fields.get? "null_policy" with
      | some d => checkPolicy d
      | none => .ok .nullAsZero)
    (match fields.get? "international_format" with
      | some d => Check.boolean d
      | none => .ok false)

end Request

end Reckon
