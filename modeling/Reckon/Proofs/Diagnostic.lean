/-
Messages and contexts of diagnostics. A message is on one line where the texts
are that its cause names (`Cause.oneLine_message`). A diagnostic with a position
and a source then shows three lines, the last one with a caret
(`Diagnostic.lines_context`).
-/
import Reckon.Diagnostic
import Reckon.Proofs.Text.Lines

namespace Reckon

/-! ## Texts that are named -/

def LexicalProblem.texts : LexicalProblem → List String
  | .unexpectedCharacter c => [String.singleton c]
  | .malformedNumber text | .described text => [text]

def GrammarProblem.texts : GrammarProblem → List String
  | .emptyExpression | .unexpectedClose | .missingClose | .operandAtEnd | .operandBeforeClose
  | .callWithoutClose => []
  | .unexpectedToken text | .operandBeforeOperator text | .unknownFunction text
  | .callWithoutOpen text | .argumentCount text _ _ | .described text => [text]

/-- The texts that a message takes from elsewhere: from the expression, from its operations, or from
whoever describes the cause. -/
def Cause.texts : Cause → List String
  | .general text | .limitExceeded text _ _ | .evaluation text | .unresolvedVariable text => [text]
  | .lexical problem => problem.texts
  | .grammar problem _ => problem.texts
  | .nullOperand operation => operation.toList
  | .operationFailed operation reason => [operation, reason]
  | .notNumeric expected actual => [expected, actual]

theorem LexicalProblem.oneLine_message {problem : LexicalProblem}
    (h : ∀ text ∈ problem.texts, OneLine text) : OneLine problem.message := by
  cases problem with
  | unexpectedCharacter c => exact .append (.append (by decide) (h _ (.head _))) (by decide)
  | malformedNumber run => exact .append (.append (by decide) (h _ (.head _))) (by decide)
  | described text => exact h _ (.head _)

theorem OperandCount.oneLine_text : ∀ count : OperandCount, OneLine count.text
  | .exactly n => .of_int n
  | .atLeast n => .append (a := "at least ") (by decide) (.of_int n)
  | .between least most => .append (.append (.of_int least) (b := "-") (by decide)) (.of_int most)

theorem GrammarProblem.oneLine_message {problem : GrammarProblem}
    (h : ∀ text ∈ problem.texts, OneLine text) : OneLine problem.message := by
  cases problem with
  | emptyExpression | unexpectedClose | missingClose | operandAtEnd | operandBeforeClose
  | callWithoutClose => decide
  | unexpectedToken text => exact .append (by decide) (h _ (.head _))
  | operandBeforeOperator text => exact .append (.append (by decide) (h _ (.head _))) (by decide)
  | unknownFunction text => exact .append (by decide) (h _ (.head _))
  | callWithoutOpen text => exact .append (.append (by decide) (h _ (.head _))) (by decide)
  | argumentCount text expected actual =>
    have hcalled : OneLine s!"Function '{text}' expects " :=
      .append (.append (by decide) (h _ (.head _))) (by decide)
    exact .append (.append (.append hcalled expected.oneLine_text) (by decide)) (.of_nat actual)
  | described text => exact h _ (.head _)

/-- **A message is on one line where the texts are that its cause names.** -/
theorem Cause.oneLine_message {cause : Cause} (h : ∀ text ∈ cause.texts, OneLine text) :
    OneLine cause.message := by
  cases cause with
  | general text | evaluation text => exact h _ (.head _)
  | lexical problem => exact problem.oneLine_message h
  | grammar problem => exact problem.oneLine_message h
  | limitExceeded limit bound actual =>
    have hlimit : OneLine s!"Limit exceeded: {limit} (limit: {bound}" :=
      .append (.append (.append (by decide) (h _ (.head _))) (by decide)) (.of_int bound)
    exact .append (.append (.append hlimit (by decide)) (.of_int actual)) (by decide)
  | unresolvedVariable name => exact .append (by decide) (h _ (.head _))
  | nullOperand operation =>
    cases operation with
    | none => decide
    | some operation => exact .append (.append (by decide) (h _ (.head _))) (by decide)
  | operationFailed operation reason =>
    exact .append (.append (h _ (.head _)) (by decide)) (h _ (.tail _ (.head _)))
  | notNumeric expected actual =>
    exact .append (.append (.append (by decide) (h _ (.head _))) (by decide))
      (h _ (.tail _ (.head _)))

/-! ## Contexts -/

namespace Diagnostic

variable {d : Diagnostic} {source : String}

/-- The line below a source that shows a position. -/
def caretLine (position : Nat) : String :=
  "  " ++ String.ofList (List.replicate position ' ') ++ "^"

theorem oneLine_caretLine (position : Nat) : OneLine (caretLine position) := by
  have hblanks : OneLine (String.ofList (List.replicate position ' ')) := by
    intro c hc
    rw [String.toList_ofList, List.mem_replicate] at hc
    rw [hc.2]
    decide
  exact .append (.append (by decide) hblanks) (by decide)

theorem context_eq {position : Nat} (hposition : d.position = some (position : Int))
    (hsource : d.source = some source) :
    d.context = d.message ++ "\n" ++ ("  " ++ source ++ "\n" ++ caretLine position) := by
  have hbreak : "\n  " = "\n" ++ "  " := rfl
  simp only [context, hposition, hsource, Int.toNat_natCast, caretLine, hbreak,
    String.append_assoc]

/-- **Three lines**: the message, the source, and a caret below the position. -/
theorem lines_context {position : Nat} (hposition : d.position = some (position : Int))
    (hsource : d.source = some source) (htexts : ∀ text ∈ d.cause.texts, OneLine text)
    (hline : OneLine source) :
    lines d.context = [d.message, "  " ++ source, caretLine position] := by
  have hmessage : OneLine d.message := Cause.oneLine_message htexts
  have hindented : OneLine ("  " ++ source) := .append (by decide) hline
  rw [context_eq hposition hsource, hmessage.lines_append, hindented.lines_append,
    (oneLine_caretLine position).lines_eq]

end Diagnostic

end Reckon
