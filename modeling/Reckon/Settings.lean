/-
The settings of a calculator: the policy for missing operands, the decimal mark,
and the limits on expressions; reading them from data that comes from outside.
Unknown settings are refused, but an unknown policy is only reported.
-/
import Reckon.Journal
import Reckon.Validation

namespace Reckon

/-- What all calculations of a calculator share. -/
structure Settings where
  nullPolicy : NullPolicy := .nullAsZero
  /-- The comma is the decimal mark. -/
  international : Bool := false
  limits : Limits := Limits.standard
  deriving DecidableEq, Repr

namespace Settings

/-- The names of all settings, in the order in which they are checked. -/
def names : List String := [
  "null_policy", "international_format", "max_expression_length", "max_nesting_depth",
  "max_tree_nodes", "max_function_args"]

/-- The check of a setting, or its default where it is not given. -/
def setting {α : Type} (fields : Bindings) (name : String) (default : α)
    (check : Datum → Check.Checked α) : Check.Checked α :=
  match fields.get? name with
  | some d => check d
  | none => .ok default

/-- The settings of a record that are not settings at all. -/
def unexpected (fields : Bindings) : List Issue :=
  (fields.filter fun p => !names.contains p.1).map fun p => ⟨[.field p.1], .unexpected⟩

/-- The settings that a record holds, checked one by one. -/
def ofFields (nullPolicy : NullPolicy) (fields : Bindings) : Except ValidationError Settings :=
  let standard := Limits.standard
  let international := setting fields "international_format" false Check.boolean
  let length :=
    setting fields "max_expression_length" standard.maxExpressionLength Check.positive
  let nesting := setting fields "max_nesting_depth"
    ⟨standard.maxNestingDepth, standard.nesting_pos, standard.nesting_le⟩ Check.nestingDepth
  let nodes := setting fields "max_tree_nodes" standard.maxTreeNodes Check.positive
  let arguments := setting fields "max_function_args" standard.maxFunctionArgs Check.positive
  match international, length, nesting, nodes, arguments, unexpected fields with
  | .ok international, .ok length, .ok nesting, .ok nodes, .ok arguments, [] =>
    .ok {
      nullPolicy
      international
      limits := {
        maxExpressionLength := length
        maxNestingDepth := nesting.1
        maxTreeNodes := nodes
        maxFunctionArgs := arguments
        nesting_pos := nesting.2.1
        nesting_le := nesting.2.2 } }
  | _, _, _, _, _, others =>
    .error {
      subject := .settings
      issues := Check.issues "international_format" international ++
        Check.issues "max_expression_length" length ++
        Check.issues "max_nesting_depth" nesting ++
        Check.issues "max_tree_nodes" nodes ++
        Check.issues "max_function_args" arguments ++ others }

/-- The settings that a datum holds, and the events of settling on a policy. -/
def ofDatum : Datum → Except ValidationError Settings × List Event
  | .record fields =>
    let (nullPolicy, events) := NullPolicy.resolve ((Bindings.get? fields "null_policy").getD .null)
    (ofFields nullPolicy fields, events)
  | _ => (.error { subject := .settings, issues := [⟨[], .notRecord .settings⟩] }, [])

end Settings

end Reckon
