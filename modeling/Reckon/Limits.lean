/-
Bounds on the size of expressions. Each check passes, or tells which bound is
exceeded by how much. The nesting depth has bounds of its own, which every set
of limits carries with it.
-/
import Reckon.Diagnostic

namespace Reckon

/-- The greatest nesting depth that may be allowed. -/
def nestingCeiling : Int := 128

/-- Bounds on an expression. -/
structure Limits where
  /-- Characters of the source. -/
  maxExpressionLength : Int := 4096
  /-- Parentheses, calls and negations around one point. -/
  maxNestingDepth : Int := 64
  /-- Nodes of the tree. -/
  maxTreeNodes : Int := 2048
  /-- Arguments of one call. -/
  maxFunctionArgs : Int := 32
  nesting_pos : 0 < maxNestingDepth := by decide
  nesting_le : maxNestingDepth ≤ nestingCeiling := by decide
  deriving DecidableEq, Repr

namespace Limits

/-- The limits used where none are given. -/
def standard : Limits := {}

/-- Limits with these bounds; the nesting depth must lie between one and the ceiling. -/
def of (maxExpressionLength maxNestingDepth maxTreeNodes maxFunctionArgs : Int) :
    Except Fault Limits :=
  if h : 0 < maxNestingDepth ∧ maxNestingDepth ≤ nestingCeiling then
    .ok {
      maxExpressionLength, maxNestingDepth, maxTreeNodes, maxFunctionArgs
      nesting_pos := h.1
      nesting_le := h.2 }
  else
    .error ⟨.value,
      s!"max_nesting_depth must be between 1 and {nestingCeiling}, got {maxNestingDepth}"⟩

/-- Passes when the actual size is within the bound. -/
def check (limit : String) (bound actual : Int) : Except Diagnostic Unit :=
  if bound < actual then .error { cause := .limitExceeded limit bound actual } else .ok ()

def checkLength (l : Limits) (length : Nat) : Except Diagnostic Unit :=
  check "max_expression_length" l.maxExpressionLength length

def checkNesting (l : Limits) (depth : Nat) : Except Diagnostic Unit :=
  check "max_nesting_depth" l.maxNestingDepth depth

def checkNodes (l : Limits) (count : Nat) : Except Diagnostic Unit :=
  check "max_tree_nodes" l.maxTreeNodes count

def checkArguments (l : Limits) (count : Nat) : Except Diagnostic Unit :=
  check "max_function_args" l.maxFunctionArgs count

end Limits

end Reckon
