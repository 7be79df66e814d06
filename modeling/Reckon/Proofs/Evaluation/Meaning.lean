/-
What an expression means, by recursion on its structure and without any table:
an operation has its operands' values first, from left to right, gives them to
the policy for nulls, and what is left to its reducer. The first failure on the
way is the failure of the whole. A lone null variable is null up to the root,
where the policy decides once more.
-/
import Reckon.Evaluation
import Reckon.Proofs.Expr
import Reckon.Proofs.Outcome

namespace Reckon

/-- The numbers that a policy makes of operands; none if the operands are refused or if there is
nothing left. -/
def NullPolicy.admit (policy : NullPolicy) (operands : List (Option Float)) :
    Option (List Float) :=
  let numbers := match policy with
    | .nullAsZero => some (operands.map (Option.getD · 0.0))
    | .throwOnNull =>
      if operands.all Option.isSome then some (operands.filterMap id) else none
    | .dropNull => some (operands.filterMap id)
  numbers.filter fun numbers => !numbers.isEmpty

theorem NullPolicy.admit_ne_nil {policy : NullPolicy} {operands : List (Option Float)}
    {numbers : List Float} (h : policy.admit operands = some numbers) : numbers ≠ [] := by
  unfold NullPolicy.admit at h
  have := (Option.filter_eq_some_iff.1 h).2
  simpa using this

mutual

/-- The value of an expression: a number, or null for a null variable. -/
def Expr.value (E : Evaluator) : Expr → Except Failure (Option Float)
  | .number x _ => .ok (some x)
  | .var name position => E.variableAt position name
  | .apply o operands position => do
    let values ← Expr.values E operands
    match E.policy.admit values with
    | none => .error (E.failureAt position (.nullOperand (some o.name)))
    | some numbers => return some (← E.applyAt position o numbers)
termination_by structural e => e

/-- The values of expressions, from left to right. -/
def Expr.values (E : Evaluator) : List Expr → Except Failure (List (Option Float))
  | [] => .ok []
  | e :: es => do
    let first ← Expr.value E e
    let others ← Expr.values E es
    return first :: others
termination_by structural es => es

end

/-- What evaluation is to give: the value as a number. A null at the root is zero or an error. -/
def Expr.result (E : Evaluator) (e : Expr) : Except Failure Float := do
  match ← e.value E with
  | some x => return x
  | none =>
    if E.policy = .nullAsZero then return 0.0
    else throw (E.failureAt e.position (.nullOperand none))

namespace Evaluator

variable {E : Evaluator} {position : Int} {o : Operation}

/-- The operands that the policy admits are those that the evaluator goes on with. -/
theorem present_eq : ∀ operands : List (Option Float),
    E.present position o operands = match E.policy with
      | .nullAsZero => .ok (operands.map (Option.getD · 0.0))
      | .throwOnNull =>
        if operands.all Option.isSome then .ok (operands.filterMap id)
        else .error (E.failureAt position (.nullOperand (some o.name)))
      | .dropNull => .ok (operands.filterMap id)
  | [] => by
    cases E.policy <;> rfl
  | some x :: rest => by
    rw [present, present_eq rest]
    cases E.policy with
    | throwOnNull =>
      by_cases h : rest.all Option.isSome = true
      · simp [h, bind, Except.bind, pure, Except.pure]
      · simp [h, bind, Except.bind]
    | nullAsZero => rfl
    | dropNull => rfl
  | none :: rest => by
    rw [present]
    cases hp : E.policy with
    | throwOnNull => simp
    | nullAsZero =>
      simp only [present_eq rest, hp]
      rfl
    | dropNull =>
      simp only [present_eq rest, hp]
      rfl

theorem operandsAt_eq (operands : List (Option Float)) :
    E.operandsAt position o operands = match E.policy.admit operands with
      | none => .error (E.failureAt position (.nullOperand (some o.name)))
      | some numbers => .ok numbers := by
  have hfilter (numbers : List Float) :
      (do let numbers ← (.ok numbers : Except Failure (List Float))
          if numbers.isEmpty then throw (E.failureAt position (.nullOperand (some o.name)))
          return numbers) =
        match (some numbers).filter fun numbers => !numbers.isEmpty with
        | none => .error (E.failureAt position (.nullOperand (some o.name)))
        | some numbers => .ok numbers := by
    cases numbers <;> rfl
  rw [operandsAt, present_eq]
  unfold NullPolicy.admit
  cases E.policy with
  | nullAsZero => exact hfilter _
  | dropNull => exact hfilter _
  | throwOnNull =>
    by_cases h : operands.all Option.isSome = true
    · simp only [h, if_true]
      exact hfilter _
    · simp only [h]
      rfl

end Evaluator

/-- Once the operands have their values, an operation is evaluated as a node is. -/
theorem Expr.value_apply {E : Evaluator} {o : Operation} {es : List Expr} {position : Int}
    {values : List (Option Float)} (h : Expr.values E es = .ok values) :
    (Expr.apply o es position).value E = (do
      let numbers ← E.operandsAt position o values
      let x ← E.applyAt position o numbers
      return some x) := by
  simp only [Expr.value, h, Evaluator.operandsAt_eq]
  show (match E.policy.admit values with | none => _ | some _ => _) = _
  cases E.policy.admit values <;> rfl

end Reckon
