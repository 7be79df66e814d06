/-
Evaluating trees. One pass over the table of nodes gives every node a number, or
null for a variable that is given as null; the operation that consumes a null
treats it as the policy says, and its own result is always a number. A variable
without any value is an error under every policy.
-/
import Reckon.NullPolicy
import Reckon.Tree

namespace Reckon

/-- What trees are evaluated with. An evaluator without a source takes over that of the first tree
it meets. -/
structure Evaluator where
  bindings : Bindings
  policy : NullPolicy
  /-- The text of the expression, for error messages. -/
  source : Option String

namespace Evaluator

/-- A failure at a position. -/
def failureAt (e : Evaluator) (position : Int) (cause : Cause) : Failure :=
  .diagnostic { cause, position := some position, source := e.source }

/-- The number that a value is, at a position. Integers are rounded to doubles. -/
def numberAt (e : Evaluator) (position : Int) : Datum → Except Failure Float
  | .int i =>
    match intToFloat? i with
    | some x => .ok x
    | none => .error (.fault .integerTooLarge)
  | .real x => .ok x
  | d => .error (e.failureAt position (.notNumeric "number" d.kindName))

/-- The value of a variable, null included. -/
def variableAt (e : Evaluator) (position : Int) (name : String) : Except Failure (Option Float) :=
  match e.bindings.get? name with
  | none => .error (e.failureAt position (.unresolvedVariable name))
  | some .null => .ok none
  | some d => (e.numberAt position d).map some

/-- The numbers of the operands, with nulls as the policy treats them, up to the first that it
refuses. -/
def present (e : Evaluator) (position : Int) (o : Operation) :
    List (Option Float) → Except Failure (List Float)
  | [] => .ok []
  | some x :: rest => do
    let numbers ← present e position o rest
    return x :: numbers
  | none :: rest =>
    match e.policy with
    | .nullAsZero => do
      let numbers ← present e position o rest
      return 0.0 :: numbers
    | .throwOnNull => .error (e.failureAt position (.nullOperand (some o.name)))
    | .dropNull => present e position o rest

/-- The operands that the reducer is given; there is at least one. -/
def operandsAt (e : Evaluator) (position : Int) (o : Operation) (operands : List (Option Float)) :
    Except Failure (List Float) := do
  let numbers ← e.present position o operands
  if numbers.isEmpty then throw (e.failureAt position (.nullOperand (some o.name)))
  return numbers

/-- The number that the reducer makes of its operands. Faults of arithmetic and of values are
reported as failures of the operation; others go through. -/
def applyAt (e : Evaluator) (position : Int) (o : Operation) (numbers : List Float) :
    Except Failure Float :=
  match o.apply numbers with
  | .ok d => e.numberAt position d
  | .error (.diagnostic d) => .error (.diagnostic d)
  | .error (.fault f) =>
    if f.isOperational then .error (e.failureAt position (.operationFailed o.name f.message))
    else .error (.fault f)

/-- The value of a node, given the values of the nodes before it. -/
def valueAt (e : Evaluator) (results : Array (Option Float)) (n : Node) :
    Except Failure (Option Float) :=
  match n.item with
  | .number value => .ok (some value)
  | .var name => e.variableAt n.position name
  | .operation o => do
    let numbers ← e.operandsAt n.position o (n.children.map fun child => (results[child]?).join)
    let value ← e.applyAt n.position o numbers
    return some value

/-- The values of nodes that follow those whose values are there already. -/
def pass (e : Evaluator) (results : Array (Option Float)) :
    List Node → Except Failure (Array (Option Float))
  | [] => .ok results
  | n :: rest => do
    let value ← e.valueAt results n
    e.pass (results.push value) rest

/-- The number of a tree. Only a lone null variable leaves its root without one. -/
def numberOf (e : Evaluator) (t : Tree) : Except Failure Float := do
  let results ← e.pass #[] t.nodes.toList
  match (results[t.root]?).join with
  | some value => return value
  | none =>
    match e.policy, t.rootNode? with
    | .nullAsZero, _ => return 0.0
    | _, some n => throw (e.failureAt n.position (.nullOperand none))
    | _, none => throw (.fault .indexOutOfRange)

/-- Evaluates a tree; the evaluator comes back, with the source that it has from now on. -/
def evaluate (e : Evaluator) (t : Tree) : Except Failure Float × Evaluator :=
  let e := { e with source := e.source.or t.source }
  (e.numberOf t, e)

end Evaluator

/-- The number of a tree under bindings and a policy. -/
def Tree.evaluate (t : Tree) (bindings : Bindings) (policy : NullPolicy) : Except Failure Float :=
  (Evaluator.evaluate ⟨bindings, policy, t.source⟩ t).1

end Reckon
