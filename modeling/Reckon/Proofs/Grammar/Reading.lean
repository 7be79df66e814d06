/-
Reading an expression, apart from any builder. The reader goes through the tokens
as the parser does, call by call and with the same checks, but what it gives is
the expression itself. The parser lays out what is read, node by node, and fails
where reading fails (`Grammar.parse_eq_whole`), so what is proved of reading holds of
parsing.

A builder takes no operation over operands that it does not allow. For functions
that has been checked by then, and it holds of negation; for an infix operator it
is checked behind the right operand (`Grammar.checkInfix`).
-/
import Reckon.Proofs.Expr
import Reckon.Tree.Parsing

namespace Reckon

namespace Grammar

/-- What is read: an expression and the place after it. -/
abbrev Reading := Except Failure (Expr × Cursor)

/-- An infix operator is taken if it takes two operands. -/
def checkInfix (o : Operation) : Except Failure Unit :=
  if o.accepts 2 then .ok ()
  else .error (.fault (BuildError.operandCount o.name o.operandCount 2).fault)

theorem checkInfix_eq_ok {o : Operation} : checkInfix o = .ok () ↔ o.accepts 2 = true := by
  unfold checkInfix
  split <;> simp_all

theorem checkInfix_of_not_accepts {o : Operation} (h : o.accepts 2 = false) : checkInfix o =
    .error (.fault (BuildError.operandCount o.name o.operandCount 2).fault) := by
  simp [checkInfix, h]

/-- An infix operator that is not taken is no error in the expression. -/
theorem checkInfix_ne_diagnostic (o : Operation) (d : Diagnostic) :
    checkInfix o ≠ .error (.diagnostic d) := by
  unfold checkInfix
  split <;> simp

/-- Infix operators that bind at least as tightly as `floor`, each with its right operand. The count
bounds them; each takes a token. -/
def infixTail (g : Grammar) (operand : Int → Cursor → Reading) (floor : Int) :
    Nat → Expr → Cursor → Reading
  | 0, left, c => .ok (left, c)
  | count + 1, left, c =>
    match g.infixAt c with
    | none => .ok (left, c)
    | some operation =>
      if operation.precedence < floor then .ok (left, c)
      else do
        let (right, after) ← operand (operation.precedence + 1) c.advance
        checkInfix operation
        infixTail g operand floor count (.apply operation [left, right] c.peek.position) after

/-- Further arguments, each after a comma. The count bounds them; each takes a token. -/
def argumentTail (argument : Cursor → Reading) :
    Nat → Cursor → Except Failure (List Expr × Cursor)
  | 0, c => .ok ([], c)
  | count + 1, c =>
    if c.peek.kind == .comma then do
      let (first, after) ← argument c.advance
      let (others, after) ← argumentTail argument count after
      return (first :: others, after)
    else .ok ([], c)

/-- The arguments of a call up to its closing parenthesis, which may be there at once. -/
def arguments (argument : Cursor → Reading) (c : Cursor) :
    Except Failure (List Expr × Cursor) :=
  if c.peek.kind == .rightParen then .ok ([], c)
  else do
    let (first, after) ← argument c
    let (others, after) ← argumentTail argument after.rest.length after
    return (first :: others, after)

mutual

/-- A whole expression. -/
def expression (g : Grammar) : (depth nesting : Nat) → Cursor → Reading
  | 0, _, _ => .error tooDeep
  | depth + 1, nesting, c => binary g depth nesting 1 c
termination_by structural depth => depth

/-- An operand and the infix operators after it that bind at least as tightly as `floor`. The right
operand of an operator takes only tighter ones, so equal ones group to the left. -/
def binary (g : Grammar) : (depth nesting : Nat) → (floor : Int) → Cursor → Reading
  | 0, _, _, _ => .error tooDeep
  | depth + 1, nesting, floor, c => do
    let (left, after) ← unary g depth nesting c
    infixTail g (fun tighter c => binary g depth nesting tighter c) floor
      after.rest.length left after
termination_by structural depth => depth

/-- An operand with any number of minus signs before it. -/
def unary (g : Grammar) : (depth nesting : Nat) → Cursor → Reading
  | 0, _, _ => .error tooDeep
  | depth + 1, nesting, c =>
    if c.peek.kind == .operator && c.peek.value == Operation.negation.name then do
      check (g.limits.checkNesting (nesting + 1))
      let (operand, after) ← unary g depth (nesting + 1) c.advance
      return (.apply .negation [operand] c.peek.position, after)
    else primary g depth nesting c
termination_by structural depth => depth

/-- A number, a variable, a call, or an expression in parentheses. -/
def primary (g : Grammar) : (depth nesting : Nat) → Cursor → Reading
  | 0, _, _ => .error tooDeep
  | depth + 1, nesting, c =>
    match c.peek.kind with
    | .number => do
      let value ← numberOf c.peek
      return (.number value c.peek.position, c.advance)
    | .identifier => .ok (.var c.peek.value c.peek.position, c.advance)
    | .function => call g depth nesting c
    | .leftParen => do
      check (g.limits.checkNesting (nesting + 1))
      let (inner, after) ← expression g depth (nesting + 1) c.advance
      let after ← g.expect after .rightParen .missingClose
      return (inner, after)
    | .finish => .error (g.problemAt c .operandAtEnd)
    | .operator => .error (g.problemAt c (.operandBeforeOperator c.peek.value))
    | .rightParen => .error (g.problemAt c .operandBeforeClose)
    | .comma => .error (g.problemAt c (.unexpectedToken c.peek.value))
termination_by structural depth => depth

/-- A function's name and its arguments in parentheses. -/
def call (g : Grammar) : (depth nesting : Nat) → Cursor → Reading
  | 0, _, _ => .error tooDeep
  | depth + 1, nesting, c =>
    match (g.registry.get? c.peek.value).filter (·.isFunction) with
    | none => .error (g.problemAt c (.unknownFunction c.peek.value))
    | some operation => do
      let opened ← g.expect c.advance .leftParen (.callWithoutOpen c.peek.value)
      check (g.limits.checkNesting (nesting + 1))
      let (operands, after) ← arguments (fun c => expression g depth (nesting + 1) c) opened
      let after ← g.expect after .rightParen .callWithoutClose
      check (g.limits.checkArguments operands.length)
      if operation.accepts operands.length then
        return (.apply operation operands c.peek.position, after)
      else
        throw (g.problemAt c
          (.argumentCount operation.name operation.operandCount operands.length))
termination_by structural depth => depth

end

/-- The expression that begins and ends with the tokens, read with calls up to a depth. -/
def wholeWithin (g : Grammar) (depth : Nat) (tokens : List Token) : Except Failure Expr :=
  let start : Cursor := ⟨0, tokens⟩
  if start.atEnd then .error (g.problemAt start .emptyExpression)
  else do
    let (e, after) ← expression g depth 0 start
    if after.atEnd then return e
    else if after.peek.kind == .rightParen then throw (g.problemAt after .unexpectedClose)
    else throw (g.problemAt after (.unexpectedToken after.peek.value))

/-- The expression that the tokens write. -/
def whole (g : Grammar) (tokens : List Token) : Except Failure Expr :=
  let tokens := closed tokens
  g.wholeWithin (ampleDepth tokens) tokens

end Grammar

end Reckon
