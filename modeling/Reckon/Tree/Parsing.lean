/-
From text to tree. Tokens are parsed by precedence climbing: operators of equal
precedence group to the left, and a minus sign where an operand is expected binds
more tightly than any infix operator. All parts of an expression add their nodes
to one builder, an operation as soon as its operands are there; what is handed on
is the index of the node at the top.

The five functions of the grammar call each other with one unit of depth less, so
the depth they are started with bounds the calls that are active at one time;
five for each token, and five more, are always enough.
-/
import Reckon.Decimal.Reading
import Reckon.Limits
import Reckon.Operation.Arithmetic
import Reckon.Token.Scanner
import Reckon.Tree.Builder

namespace Reckon

/-! ## Places among tokens -/

/-- A place in a list of tokens: how many lie before it, and those from it on. -/
structure Cursor where
  index : Nat
  rest : List Token
  deriving DecidableEq, Repr

namespace Cursor

/-- The token at the cursor. -/
def peek (c : Cursor) : Token := c.rest.headD (Token.finish 0)

def atEnd (c : Cursor) : Bool := c.peek.kind == .finish

/-- The place after the token at the cursor; the end is never passed. -/
def advance (c : Cursor) : Cursor := if c.atEnd then c else ⟨c.index + 1, c.rest.tail⟩

theorem advance_of_atEnd {c : Cursor} (h : c.atEnd = true) : c.advance = c := by
  simp [advance, h]

/-- Before the end every step takes a token. -/
theorem length_rest_advance {c : Cursor} (h : c.atEnd = false) :
    c.advance.rest.length + 1 = c.rest.length := by
  obtain ⟨index, rest⟩ := c
  cases rest with
  | nil => cases h
  | cons t ts => simp [advance, h]

end Cursor

/-- What an expression is read with. -/
structure Grammar where
  registry : Registry
  limits : Limits
  /-- The text of the expression, for error messages. -/
  source : Option String

namespace Grammar

/-! ## Steps -/

/-- A problem with the token at the cursor. -/
def problemAt (g : Grammar) (c : Cursor) (problem : GrammarProblem) : Failure :=
  .diagnostic {
    cause := .grammar problem (some c.index)
    position := some c.peek.position
    source := g.source }

/-- The depth of calls is used up. -/
def tooDeep : Failure := .fault ⟨.callDepth, "maximum recursion depth exceeded"⟩

/-- A check of the limits as a step of reading. -/
def check (c : Except Diagnostic Unit) : Except Failure Unit := c.mapError .diagnostic

/-- Passes a token of the kind, which must stand at the cursor. -/
def expect (g : Grammar) (c : Cursor) (kind : TokenKind) (otherwise : GrammarProblem) :
    Except Failure Cursor :=
  if c.peek.kind == kind then .ok c.advance else .error (g.problemAt c otherwise)

/-- The number that a token writes. -/
def numberOf (t : Token) : Except Failure Float :=
  match Decimal.read? t.value with
  | some x => .ok x
  | none =>
    .error (.fault ⟨.value, s!"could not convert string to float: {Text.quoted t.value}"⟩)

/-- The infix operator at the cursor. -/
def infixAt (g : Grammar) (c : Cursor) : Option Operation :=
  if c.peek.kind == .operator then (g.registry.get? c.peek.value).filter (!·.isFunction) else none

/-- Adds an operation over nodes of the builder; its index comes back. -/
def combine (b : Builder) (o : Operation) (nodes : List Nat) (position : Int) :
    Except Failure (Nat × Builder) :=
  (b.addOperation o (nodes.map Int.ofNat) position).mapError fun e => .fault e.fault

/-! ## Expressions -/

/-- What a part of an expression gives: the index of its top, the builder with its nodes, and the
place after it. -/
abbrev Parsed := Except Failure (Nat × Builder × Cursor)

/-- Infix operators that bind at least as tightly as `floor`, each with its right operand. The count
bounds them; each takes a token. -/
def parseOperators (g : Grammar) (operand : Int → Builder → Cursor → Parsed) (floor : Int) :
    Nat → (left : Nat) → Builder → Cursor → Parsed
  | 0, left, b, c => .ok (left, b, c)
  | count + 1, left, b, c =>
    match g.infixAt c with
    | none => .ok (left, b, c)
    | some operation =>
      if operation.precedence < floor then .ok (left, b, c)
      else do
        let (right, b, after) ← operand (operation.precedence + 1) b c.advance
        let (node, b) ← combine b operation [left, right] c.peek.position
        parseOperators g operand floor count node b after

/-- Further arguments, each after a comma. The count bounds them; each takes a token. -/
def parseFurther (argument : Builder → Cursor → Parsed) :
    Nat → Builder → Cursor → Except Failure (List Nat × Builder × Cursor)
  | 0, b, c => .ok ([], b, c)
  | count + 1, b, c =>
    if c.peek.kind == .comma then do
      let (first, b, after) ← argument b c.advance
      let (others, b, after) ← parseFurther argument count b after
      return (first :: others, b, after)
    else .ok ([], b, c)

/-- The arguments of a call up to its closing parenthesis, which may be there at once. -/
def parseArguments (argument : Builder → Cursor → Parsed) (b : Builder) (c : Cursor) :
    Except Failure (List Nat × Builder × Cursor) :=
  if c.peek.kind == .rightParen then .ok ([], b, c)
  else do
    let (first, b, after) ← argument b c
    let (others, b, after) ← parseFurther argument after.rest.length b after
    return (first :: others, b, after)

mutual

/-- A whole expression. -/
def parseExpression (g : Grammar) : (depth nesting : Nat) → Builder → Cursor → Parsed
  | 0, _, _, _ => .error tooDeep
  | depth + 1, nesting, b, c => parseBinary g depth nesting 1 b c
termination_by structural depth => depth

/-- An operand and the infix operators after it that bind at least as tightly as `floor`. The right
operand of an operator takes only tighter ones, so equal ones group to the left. -/
def parseBinary (g : Grammar) :
    (depth nesting : Nat) → (floor : Int) → Builder → Cursor → Parsed
  | 0, _, _, _, _ => .error tooDeep
  | depth + 1, nesting, floor, b, c => do
    let (left, b, after) ← parseUnary g depth nesting b c
    parseOperators g (fun tighter b c => parseBinary g depth nesting tighter b c) floor
      after.rest.length left b after
termination_by structural depth => depth

/-- An operand with any number of minus signs before it. -/
def parseUnary (g : Grammar) : (depth nesting : Nat) → Builder → Cursor → Parsed
  | 0, _, _, _ => .error tooDeep
  | depth + 1, nesting, b, c =>
    if c.peek.kind == .operator && c.peek.value == Operation.negation.name then do
      check (g.limits.checkNesting (nesting + 1))
      let (operand, b, after) ← parseUnary g depth (nesting + 1) b c.advance
      let (node, b) ← combine b .negation [operand] c.peek.position
      return (node, b, after)
    else parsePrimary g depth nesting b c
termination_by structural depth => depth

/-- A number, a variable, a call, or an expression in parentheses. -/
def parsePrimary (g : Grammar) : (depth nesting : Nat) → Builder → Cursor → Parsed
  | 0, _, _, _ => .error tooDeep
  | depth + 1, nesting, b, c =>
    match c.peek.kind with
    | .number => do
      let value ← numberOf c.peek
      let (node, b) := b.addLeaf (.number value) c.peek.position
      return (node, b, c.advance)
    | .identifier =>
      let (node, b) := b.addLeaf (.var c.peek.value) c.peek.position
      .ok (node, b, c.advance)
    | .function => parseCall g depth nesting b c
    | .leftParen => do
      check (g.limits.checkNesting (nesting + 1))
      let (inner, b, after) ← parseExpression g depth (nesting + 1) b c.advance
      let after ← g.expect after .rightParen .missingClose
      return (inner, b, after)
    | .finish => .error (g.problemAt c .operandAtEnd)
    | .operator => .error (g.problemAt c (.operandBeforeOperator c.peek.value))
    | .rightParen => .error (g.problemAt c .operandBeforeClose)
    | .comma => .error (g.problemAt c (.unexpectedToken c.peek.value))
termination_by structural depth => depth

/-- A function's name and its arguments in parentheses. -/
def parseCall (g : Grammar) : (depth nesting : Nat) → Builder → Cursor → Parsed
  | 0, _, _, _ => .error tooDeep
  | depth + 1, nesting, b, c =>
    match (g.registry.get? c.peek.value).filter (·.isFunction) with
    | none => .error (g.problemAt c (.unknownFunction c.peek.value))
    | some operation => do
      let opened ← g.expect c.advance .leftParen (.callWithoutOpen c.peek.value)
      check (g.limits.checkNesting (nesting + 1))
      let (nodes, b, after) ←
        parseArguments (fun b c => parseExpression g depth (nesting + 1) b c) b opened
      let after ← g.expect after .rightParen .callWithoutClose
      check (g.limits.checkArguments nodes.length)
      if operation.accepts nodes.length then do
        let (node, b) ← combine b operation nodes c.peek.position
        return (node, b, after)
      else
        throw (g.problemAt c
          (.argumentCount operation.name operation.operandCount nodes.length))
termination_by structural depth => depth

end

/-! ## Trees -/

/-- Tokens that end with an end: one is added behind the last token if it is none. -/
def closed (tokens : List Token) : List Token :=
  match tokens.getLast? with
  | none => [Token.finish 0]
  | some last =>
    if last.kind == .finish then tokens
    else tokens ++ [Token.finish (last.position + last.value.length)]

/-- A depth of calls that reading so many tokens never uses up. -/
def ampleDepth (tokens : List Token) : Nat := 5 * (tokens.length + 1)

/-- The tree of the expression that tokens write, parsed with calls up to a depth. -/
def parseWithin (g : Grammar) (depth : Nat) (tokens : List Token) : Except Failure Tree :=
  let start : Cursor := ⟨0, closed tokens⟩
  if start.atEnd then .error (g.problemAt start .emptyExpression)
  else do
    let (root, b, after) ← g.parseExpression depth 0 {} start
    if after.atEnd then do
      let t ← (b.build root g.source).mapError fun e => .fault e.fault
      check (g.limits.checkNodes t.size)
      return t
    else if after.peek.kind == .rightParen then throw (g.problemAt after .unexpectedClose)
    else throw (g.problemAt after (.unexpectedToken after.peek.value))

/-- The tree of the expression that tokens write. -/
def parse (g : Grammar) (tokens : List Token) : Except Failure Tree :=
  g.parseWithin (ampleDepth (closed tokens)) tokens

end Grammar

/-- The tree of the expression that a text writes. -/
def parseText (source : String) (r : Registry) (limits : Limits) : Except Failure Tree := do
  let tokens ← (tokenize source r limits).mapError .diagnostic
  Grammar.parse ⟨r, limits, some source⟩ tokens

end Reckon
