/-
Expressions as the grammar sees them: numbers, variables, and operations applied
to operands. Each carries the position of the token that it comes from, which for
an infix operator is that of the operator. Parentheses leave no trace.

An expression is added to a builder from its leaves up, the operands of an
operation one after the other and then the operation, and the tree of an
expression is what a builder makes of it.
-/
import Reckon.Tree.Builder

namespace Reckon

/-- An expression. -/
inductive Expr where
  | number (value : Float) (position : Int)
  | var (name : String) (position : Int)
  | apply (operation : Operation) (operands : List Expr) (position : Int)
  deriving Inhabited

namespace Expr

/-- The position of the token at the top of an expression. -/
def position : Expr → Int
  | number _ position => position
  | var _ position => position
  | apply _ _ position => position

mutual

/-- The number of operations, numbers and variables. -/
def size : Expr → Nat
  | number _ _ | var _ _ => 1
  | apply _ operands _ => sizeAll operands + 1
termination_by structural e => e

def sizeAll : List Expr → Nat
  | [] => 0
  | e :: es => size e + sizeAll es
termination_by structural es => es

end

theorem sizeAll_append : ∀ es es' : List Expr, sizeAll (es ++ es') = sizeAll es + sizeAll es'
  | [], es' => by simp [sizeAll]
  | e :: es, es' => by
    rw [List.cons_append, sizeAll, sizeAll, sizeAll_append es es', Nat.add_assoc]

theorem size_pos (e : Expr) : 0 < e.size := by
  cases e <;> simp [size]

end Expr

/-! ## Laying out -/

namespace Builder

mutual

/-- Adds an expression, operands before their operation; the index of its top comes back. -/
def addExpr (b : Builder) : Expr → Except BuildError (Nat × Builder)
  | .number value position => .ok (b.addLeaf (.number value) position)
  | .var name position => .ok (b.addLeaf (.var name) position)
  | .apply operation operands position => do
    let (children, b) ← addExprs b operands
    b.addOperation operation (children.map Int.ofNat) position
termination_by structural e => e

/-- Adds expressions one after the other; the indices of their tops come back. -/
def addExprs (b : Builder) : List Expr → Except BuildError (List Nat × Builder)
  | [] => .ok ([], b)
  | e :: es => do
    let (first, b) ← addExpr b e
    let (others, b) ← addExprs b es
    return (first :: others, b)
termination_by structural es => es

end

end Builder

/-- The tree of an expression. -/
def Tree.ofExpr (e : Expr) (source : Option String) : Except BuildError Tree := do
  let (root, b) ← Builder.addExpr {} e
  b.build root source

end Reckon
