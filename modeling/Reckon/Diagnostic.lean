/-
What can go wrong with an expression. A diagnostic has a cause, and where they
are known a position in the expression and the expression itself; its message is
a function of the cause. Code supplied by the caller can also fail in ways that
are not about expressions: those are faults, and a failure is one or the other.
-/
namespace Reckon

/-- What is wrong with the characters of an expression. -/
inductive LexicalProblem where
  | unexpectedCharacter (c : Char)
  | malformedNumber (run : String)
  | described (text : String)
  deriving DecidableEq, Repr

/-- How many operands an operation takes. -/
inductive OperandCount where
  | exactly (n : Int)
  | atLeast (n : Int)
  | between (least most : Int)
  deriving DecidableEq, Repr

/-- What is wrong with the order of the tokens. -/
inductive GrammarProblem where
  | emptyExpression
  | unexpectedClose
  | unexpectedToken (value : String)
  | missingClose
  | operandAtEnd
  | operandBeforeOperator (symbol : String)
  | operandBeforeClose
  | unknownFunction (name : String)
  | callWithoutOpen (name : String)
  | callWithoutClose
  | argumentCount (name : String) (expected : OperandCount) (actual : Nat)
  | described (text : String)
  deriving DecidableEq, Repr

/-- The cause of a diagnostic. -/
inductive Cause where
  | general (text : String)
  | lexical (problem : LexicalProblem)
  | grammar (problem : GrammarProblem) (tokenIndex : Option Int)
  | limitExceeded (limit : String) (bound actual : Int)
  | evaluation (text : String)
  | unresolvedVariable (name : String)
  | nullOperand (operation : Option String)
  | operationFailed (operation reason : String)
  | notNumeric (expected actual : String)
  deriving DecidableEq, Repr

/-- The kinds of diagnostics, one for each form of cause. -/
inductive DiagnosticKind where
  | expression
  | lex
  | grammar
  | limit
  | evaluation
  | unresolvedVariable
  | nullValue
  | operation
  | type
  deriving DecidableEq, Repr

/-- An error in an expression. -/
structure Diagnostic where
  cause : Cause
  position : Option Int := none
  source : Option String := none
  deriving DecidableEq, Repr

/-- The kinds of faults that code outside the expression language can have. -/
inductive FaultKind where
  | value
  | type
  | index
  | zeroDivision
  | overflow
  | runtime
  | callDepth
  /-- Any other kind, by its name, which may count as one of arithmetic or of a value. -/
  | other (name : String) (operational : Bool)
  deriving DecidableEq, Repr

/-- A failure that is not about an expression. -/
structure Fault where
  kind : FaultKind
  message : String
  deriving DecidableEq, Repr

/-- Anything that can stop a computation. -/
inductive Failure where
  | diagnostic (d : Diagnostic)
  | fault (f : Fault)
  deriving DecidableEq, Repr

/-! ## Messages -/

def LexicalProblem.message : LexicalProblem → String
  | .unexpectedCharacter c => s!"Unexpected character: '{c}'"
  | .malformedNumber run => s!"Malformed number: '{run}'"
  | .described text => text

def OperandCount.text : OperandCount → String
  | .exactly n => s!"{n}"
  | .atLeast n => s!"at least {n}"
  | .between least most => s!"{least}-{most}"

def GrammarProblem.message : GrammarProblem → String
  | .emptyExpression => "Empty expression"
  | .unexpectedClose => "Unbalanced parentheses: unexpected ')'"
  | .unexpectedToken value => s!"Unexpected token: {value}"
  | .missingClose => "Unbalanced parentheses: expected ')'"
  | .operandAtEnd => "Expected operand at end of expression"
  | .operandBeforeOperator symbol => s!"Missing operand before '{symbol}'"
  | .operandBeforeClose => "Expected operand before ')'"
  | .unknownFunction name => s!"Unknown function: {name}"
  | .callWithoutOpen name => s!"Function '{name}' must be followed by '('"
  | .callWithoutClose => "Expected ')' after function arguments"
  | .argumentCount name expected actual =>
    s!"Function '{name}' expects {expected.text} argument(s), got {actual}"
  | .described text => text

def Cause.message : Cause → String
  | .general text => text
  | .lexical problem => problem.message
  | .grammar problem _ => problem.message
  | .limitExceeded limit bound actual =>
    s!"Limit exceeded: {limit} (limit: {bound}, actual: {actual})"
  | .evaluation text => text
  | .unresolvedVariable name => s!"Unresolved variable: {name}"
  | .nullOperand none => "Value was null"
  | .nullOperand (some operation) => s!"Value was null: operand of '{operation}'"
  | .operationFailed operation reason => s!"{operation}: {reason}"
  | .notNumeric expected actual => s!"Type error: expected {expected}, got {actual}"

/-! ## Kinds -/

def Cause.kind : Cause → DiagnosticKind
  | .general _ => .expression
  | .lexical _ => .lex
  | .grammar _ _ => .grammar
  | .limitExceeded _ _ _ => .limit
  | .evaluation _ => .evaluation
  | .unresolvedVariable _ => .unresolvedVariable
  | .nullOperand _ => .nullValue
  | .operationFailed _ _ => .operation
  | .notNumeric _ _ => .type

/-- The name under which results and the journal report a kind. -/
def DiagnosticKind.name : DiagnosticKind → String
  | .expression => "ExpressionError"
  | .lex => "LexError"
  | .grammar => "SyntaxError"
  | .limit => "LimitExceededError"
  | .evaluation => "EvaluationError"
  | .unresolvedVariable => "UnresolvedVariableError"
  | .nullValue => "NullValueError"
  | .operation => "OperationError"
  | .type => "TypeError"

/-- A kind and the more general kinds above it, up to that of all diagnostics. -/
def DiagnosticKind.ancestry : DiagnosticKind → List DiagnosticKind
  | .expression => [.expression]
  | .lex => [.lex, .expression]
  | .grammar => [.grammar, .expression]
  | .limit => [.limit, .expression]
  | .evaluation => [.evaluation, .expression]
  | .unresolvedVariable => [.unresolvedVariable, .evaluation, .expression]
  | .nullValue => [.nullValue, .evaluation, .expression]
  | .operation => [.operation, .evaluation, .expression]
  | .type => [.type, .evaluation, .expression]

namespace Diagnostic

def kind (d : Diagnostic) : DiagnosticKind := d.cause.kind

def message (d : Diagnostic) : String := d.cause.message

/-- The message, and if position and source are known the source and a caret below the position,
each after two spaces. -/
def context (d : Diagnostic) : String :=
  match d.position, d.source with
  | some position, some source =>
    d.message ++ "\n  " ++ source ++ "\n  " ++
      String.ofList (List.replicate position.toNat ' ') ++ "^"
  | _, _ => d.message

end Diagnostic

/-! ## Faults -/

namespace Fault

/-- A fault of arithmetic or of a value: evaluation reports it as the failure of the operation. -/
def isOperational (f : Fault) : Bool :=
  match f.kind with
  | .value | .zeroDivision | .overflow => true
  | .type | .index | .runtime | .callDepth => false
  | .other _ operational => operational

def integerTooLarge : Fault := ⟨.overflow, "int too large to convert to float"⟩

def indexOutOfRange : Fault := ⟨.index, "list index out of range"⟩

end Fault

end Reckon
