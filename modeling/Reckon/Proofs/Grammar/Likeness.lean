/-
Two runs of the reader on tokens that it cannot tell apart. The reader copies
positions and sources into expressions and diagnostics and never looks at them,
and of an operation it looks at no more than the name, the counts of operands,
and how its precedence compares with that of others. So tokens that differ in
nothing else are read alike (`Likeness.parts`): to expressions that differ in
nothing else, or to the same failure of the same place among the tokens.

What may differ, and how, is a parameter (`Likeness`): nothing at all between two
registries that agree on the tokens at hand, or positions and sources between
two texts with tokens of the same forms.
-/
import Mathlib.Data.List.Forall2
import Reckon.Proofs.Grammar.Parsing

namespace Reckon

/-- What may differ between two runs. Operations may differ in their precedences only, which must
compare alike. -/
structure Likeness where
  operation : Operation → Operation → Prop
  position : Int → Int → Prop
  source : Option String → Option String → Prop
  operation_eq {o o'} : operation o o' → o' = { o with precedence := o'.precedence }
  negation : operation .negation .negation
  one_le_iff {o o'} : operation o o' → (1 ≤ o.precedence ↔ 1 ≤ o'.precedence)
  le_iff {o o' p p'} : operation o o' → operation p p' →
    (p.precedence ≤ o.precedence ↔ p'.precedence ≤ o'.precedence)
  position_refl (p) : position p p
  position_add {p p'} (n : Int) : position p p' → position (p + n) (p' + n)
  source_refl (s) : source s s

namespace Likeness

/-- Nothing differs. -/
def same : Likeness where
  operation := Eq
  position := Eq
  source := Eq
  operation_eq h := h ▸ rfl
  negation := rfl
  one_le_iff h := h ▸ .rfl
  le_iff h h' := h ▸ h' ▸ .rfl
  position_refl _ := rfl
  position_add _ h := h ▸ rfl
  source_refl _ := rfl

/-- Positions and sources are anything. -/
def unplaced : Likeness where
  operation := Eq
  position _ _ := True
  source _ _ := True
  operation_eq h := h ▸ rfl
  negation := rfl
  one_le_iff h := h ▸ .rfl
  le_iff h h' := h ▸ h' ▸ .rfl
  position_refl _ := trivial
  position_add _ _ := trivial
  source_refl _ := trivial

variable (ρ : Likeness)

section Operations

variable {ρ} {o o' : Operation} (h : ρ.operation o o')

include h

theorem name_eq : o'.name = o.name := by
  rw [ρ.operation_eq h]

theorem isFunction_eq : o'.isFunction = o.isFunction := by
  rw [ρ.operation_eq h]

theorem reducer_eq : o'.reducer = o.reducer := by
  rw [ρ.operation_eq h]

theorem accepts_eq (count : Int) : o'.accepts count = o.accepts count := by
  rw [ρ.operation_eq h]
  rfl

theorem operandCount_eq : o'.operandCount = o.operandCount := by
  rw [ρ.operation_eq h]
  rfl

end Operations

/-! ## What the relation extends to -/

/-- The same cause, told at places that compare. -/
structure DiagnosticLike (d d' : Diagnostic) : Prop where
  cause : d'.cause = d.cause
  position : Option.Rel ρ.position d.position d'.position
  source : ρ.source d.source d'.source

inductive FailureLike : Failure → Failure → Prop
  | diagnostic {d d'} : ρ.DiagnosticLike d d' → FailureLike (.diagnostic d) (.diagnostic d')
  | fault (f) : FailureLike (.fault f) (.fault f)

/-- Both computations succeed, with results that compare, or both fail alike. -/
abbrev Alike {α β : Type} (R : α → β → Prop) : Except Failure α → Except Failure β → Prop :=
  Reckon.Alike ρ.FailureLike R

mutual

inductive ExprLike : Expr → Expr → Prop
  | number {x p p'} : ρ.position p p' → ExprLike (.number x p) (.number x p')
  | var {name p p'} : ρ.position p p' → ExprLike (.var name p) (.var name p')
  | apply {o o' es es' p p'} : ρ.operation o o' → ExprsLike es es' → ρ.position p p' →
      ExprLike (.apply o es p) (.apply o' es' p')

inductive ExprsLike : List Expr → List Expr → Prop
  | nil : ExprsLike [] []
  | cons {e e' es es'} : ExprLike e e' → ExprsLike es es' → ExprsLike (e :: es) (e' :: es')

end

/-- Tokens of one form, whose value the registries find alike if it is to be looked up. -/
structure TokenLike (r r' : Registry) (t t' : Token) : Prop where
  kind : t'.kind = t.kind
  value : t'.value = t.value
  position : ρ.position t.position t'.position
  operation : t.kind = .operator ∨ t.kind = .function →
    Option.Rel ρ.operation (r.get? t.value) (r'.get? t.value)

structure CursorLike (r r' : Registry) (c c' : Cursor) : Prop where
  index : c'.index = c.index
  rest : List.Forall₂ (ρ.TokenLike r r') c.rest c'.rest

/-- What readings succeed with. -/
def ReadLike (r r' : Registry) (p p' : Expr × Cursor) : Prop :=
  ρ.ExprLike p.1 p'.1 ∧ ρ.CursorLike r r' p.2 p'.2

def ReadAllLike (r r' : Registry) (p p' : List Expr × Cursor) : Prop :=
  ρ.ExprsLike p.1 p'.1 ∧ ρ.CursorLike r r' p.2 p'.2

variable {ρ}

theorem DiagnosticLike.refl (d : Diagnostic) : ρ.DiagnosticLike d d := by
  refine ⟨rfl, ?_, ρ.source_refl _⟩
  cases d.position with
  | none => exact .none
  | some p => exact .some (ρ.position_refl p)

theorem FailureLike.refl : ∀ f : Failure, ρ.FailureLike f f
  | .diagnostic d => .diagnostic (.refl d)
  | .fault f => .fault f

/-- The same computation is alike. -/
theorem alike_self {α : Type} (x : Except Failure α) : ρ.Alike Eq x x :=
  .refl .refl (fun _ => rfl) x

theorem ExprsLike.length_eq {es es' : List Expr} (h : ρ.ExprsLike es es') :
    es'.length = es.length := by
  cases h with
  | nil => rfl
  | cons _ hes => rw [List.length_cons, List.length_cons, hes.length_eq]

/-! ## Steps of the reader -/

open Grammar

variable {g g' : Grammar} {c c' : Cursor}

theorem TokenLike.finish {r r' : Registry} {p p' : Int} (h : ρ.position p p') :
    ρ.TokenLike r r' (Token.finish p) (Token.finish p') where
  kind := rfl
  value := rfl
  position := h
  operation := by rintro (h | h) <;> cases h

namespace CursorLike

section Step

variable {r r' : Registry} (h : ρ.CursorLike r r' c c')

include h

theorem peek : ρ.TokenLike r r' c.peek c'.peek := by
  have hrest := h.rest
  unfold Cursor.peek
  generalize c.rest = rest at hrest ⊢
  generalize c'.rest = rest' at hrest ⊢
  cases hrest with
  | nil => exact .finish (ρ.position_refl 0)
  | cons ht _ => exact ht

theorem atEnd_eq : c'.atEnd = c.atEnd := by
  rw [Cursor.atEnd, Cursor.atEnd, h.peek.kind]

theorem advance : ρ.CursorLike r r' c.advance c'.advance := by
  unfold Cursor.advance
  rw [h.atEnd_eq]
  split
  · exact h
  · refine ⟨congrArg (· + 1) h.index, ?_⟩
    have hrest := h.rest
    generalize c.rest = rest at hrest ⊢
    generalize c'.rest = rest' at hrest ⊢
    cases hrest with
    | nil => exact .nil
    | cons _ hts => exact hts

end Step

variable (hsource : ρ.source g.source g'.source)
  (h : ρ.CursorLike g.registry g'.registry c c')

include h

theorem infixAt_like : Option.Rel ρ.operation (g.infixAt c) (g'.infixAt c') := by
  unfold infixAt
  rw [h.peek.kind, h.peek.value]
  split
  · next hk =>
    have hget := h.peek.operation (.inl (by simpa using hk))
    generalize g.registry.get? c.peek.value = found at hget ⊢
    generalize g'.registry.get? c.peek.value = found' at hget ⊢
    cases hget with
    | none => exact .none
    | some ho =>
      rw [Option.filter_some, Option.filter_some, isFunction_eq ho]
      split
      · exact .some ho
      · exact .none
  · exact .none

include hsource

theorem problemAt_like (problem : GrammarProblem) :
    ρ.FailureLike (g.problemAt c problem) (g'.problemAt c' problem) := by
  refine .diagnostic ⟨?_, .some h.peek.position, hsource⟩
  rw [h.index]

theorem expect_like (kind : TokenKind) (problem : GrammarProblem) :
    ρ.Alike (ρ.CursorLike g.registry g'.registry) (g.expect c kind problem)
      (g'.expect c' kind problem) := by
  unfold expect
  rw [h.peek.kind]
  split
  · exact .ok h.advance
  · exact .error (h.problemAt_like hsource problem)

end CursorLike

theorem checkInfix_like {o o' : Operation} (ho : ρ.operation o o') :
    checkInfix o' = checkInfix o := by
  simp only [checkInfix, accepts_eq ho, operandCount_eq ho, name_eq ho]

/-! ## The loops -/

/-- Operators pass or fail both bounds. -/
def FloorLike (ρ : Likeness) (floor floor' : Int) : Prop :=
  ∀ {o o'}, ρ.operation o o' → (o.precedence < floor ↔ o'.precedence < floor')

theorem floorLike_one : ρ.FloorLike 1 1 := fun {o o'} ho => by
  have := ρ.one_le_iff ho
  omega

theorem floorLike_above {o o' : Operation} (ho : ρ.operation o o') :
    ρ.FloorLike (o.precedence + 1) (o'.precedence + 1) := fun {p p'} hp => by
  have := ρ.le_iff ho hp
  omega

theorem infixTail_like {operand operand' : Int → Cursor → Reading}
    (hoperand : ∀ {floor floor' c c'}, ρ.FloorLike floor floor' →
      ρ.CursorLike g.registry g'.registry c c' →
      ρ.Alike (ρ.ReadLike g.registry g'.registry) (operand floor c) (operand' floor' c'))
    {floor floor' : Int} (hfloor : ρ.FloorLike floor floor') :
    ∀ (count : Nat) {left left' : Expr} {c c' : Cursor}, ρ.ExprLike left left' →
      ρ.CursorLike g.registry g'.registry c c' →
      ρ.Alike (ρ.ReadLike g.registry g'.registry) (g.infixTail operand floor count left c)
        (g'.infixTail operand' floor' count left' c')
  | 0, _, _, _, _, hleft, hc => .ok ⟨hleft, hc⟩
  | count + 1, left, left', c, c', hleft, hc => by
    have hinfix := hc.infixAt_like
    unfold infixTail
    generalize g.infixAt c = found at hinfix ⊢
    generalize g'.infixAt c' = found' at hinfix ⊢
    cases hinfix with
    | none => exact .ok ⟨hleft, hc⟩
    | @some o o' ho =>
      dsimp only
      by_cases hlt : o.precedence < floor
      · rw [if_pos hlt, if_pos ((hfloor ho).1 hlt)]
        exact .ok ⟨hleft, hc⟩
      · rw [if_neg hlt, if_neg fun hlt' => hlt ((hfloor ho).2 hlt')]
        refine (hoperand (floorLike_above ho) hc.advance).bind fun p p' hp => ?_
        rw [checkInfix_like ho]
        refine (alike_self _).bind fun _ _ _ => ?_
        refine infixTail_like hoperand hfloor count ?_ hp.2
        exact .apply ho (.cons hleft (.cons hp.1 .nil)) hc.peek.position

section Arguments

variable {r r' : Registry} {argument argument' : Cursor → Reading}
  (hargument : ∀ {c c'}, ρ.CursorLike r r' c c' →
    ρ.Alike (ρ.ReadLike r r') (argument c) (argument' c'))

include hargument

theorem argumentTail_like : ∀ (count : Nat) {c c' : Cursor}, ρ.CursorLike r r' c c' →
    ρ.Alike (ρ.ReadAllLike r r') (argumentTail argument count c) (argumentTail argument' count c')
  | 0, _, _, hc => .ok ⟨.nil, hc⟩
  | count + 1, c, c', hc => by
    unfold argumentTail
    rw [hc.peek.kind]
    split
    · refine (hargument hc.advance).bind fun p p' hp => ?_
      refine (argumentTail_like count hp.2).bind fun q q' hq => ?_
      exact .ok ⟨.cons hp.1 hq.1, hq.2⟩
    · exact .ok ⟨.nil, hc⟩

theorem arguments_like (hc : ρ.CursorLike r r' c c') :
    ρ.Alike (ρ.ReadAllLike r r') (arguments argument c) (arguments argument' c') := by
  unfold arguments
  rw [hc.peek.kind]
  split
  · exact .ok ⟨.nil, hc⟩
  · refine (hargument hc).bind fun p p' hp => ?_
    dsimp only
    rw [hp.2.rest.length_eq]
    refine (argumentTail_like hargument _ hp.2).bind fun q q' hq => ?_
    exact .ok ⟨.cons hp.1 hq.1, hq.2⟩

end Arguments

/-! ## The five functions -/

/-- Each function of the reader reads alike what is alike. -/
structure Parts (ρ : Likeness) (g g' : Grammar) (depth : Nat) : Prop where
  expression : ∀ {nesting c c'}, ρ.CursorLike g.registry g'.registry c c' →
    ρ.Alike (ρ.ReadLike g.registry g'.registry) (g.expression depth nesting c)
      (g'.expression depth nesting c')
  binary : ∀ {nesting floor floor' c c'}, ρ.FloorLike floor floor' →
    ρ.CursorLike g.registry g'.registry c c' →
    ρ.Alike (ρ.ReadLike g.registry g'.registry) (g.binary depth nesting floor c)
      (g'.binary depth nesting floor' c')
  unary : ∀ {nesting c c'}, ρ.CursorLike g.registry g'.registry c c' →
    ρ.Alike (ρ.ReadLike g.registry g'.registry) (g.unary depth nesting c)
      (g'.unary depth nesting c')
  primary : ∀ {nesting c c'}, ρ.CursorLike g.registry g'.registry c c' →
    ρ.Alike (ρ.ReadLike g.registry g'.registry) (g.primary depth nesting c)
      (g'.primary depth nesting c')
  call : ∀ {nesting c c'}, ρ.CursorLike g.registry g'.registry c c' → c.peek.kind = .function →
    ρ.Alike (ρ.ReadLike g.registry g'.registry) (g.call depth nesting c)
      (g'.call depth nesting c')

variable {depth nesting : Nat}

theorem Parts.succ_binary (ih : ρ.Parts g g' depth) {floor floor' : Int}
    (hfloor : ρ.FloorLike floor floor') (hc : ρ.CursorLike g.registry g'.registry c c') :
    ρ.Alike (ρ.ReadLike g.registry g'.registry) (g.binary (depth + 1) nesting floor c)
      (g'.binary (depth + 1) nesting floor' c') := by
  simp only [Grammar.binary]
  refine (ih.unary hc).bind fun p p' hp => ?_
  rw [hp.2.rest.length_eq]
  exact infixTail_like (fun hfloor hc => ih.binary hfloor hc) hfloor _ hp.1 hp.2

/-! ## The end -/

section Finish

variable {r r' : Registry} {tokens tokens' : List Token}
  (h : List.Forall₂ (ρ.TokenLike r r') tokens tokens')

include h

theorem getLast?_like : Option.Rel (ρ.TokenLike r r') tokens.getLast? tokens'.getLast? := by
  induction h with
  | nil => exact .none
  | @cons t t' ts ts' ht _ ih =>
    rw [List.getLast?_cons, List.getLast?_cons]
    generalize ts.getLast? = last at ih ⊢
    generalize ts'.getLast? = last' at ih ⊢
    cases ih with
    | none => exact .some ht
    | some hlast => exact .some hlast

theorem closed_like : List.Forall₂ (ρ.TokenLike r r') (closed tokens) (closed tokens') := by
  have hlast := getLast?_like h
  unfold closed
  generalize tokens.getLast? = last at hlast ⊢
  generalize tokens'.getLast? = last' at hlast ⊢
  cases hlast with
  | none => exact .cons (.finish (ρ.position_refl 0)) .nil
  | some ht =>
    dsimp only
    rw [ht.kind, ht.value]
    split
    · exact h
    · exact List.rel_append h (.cons (.finish (ρ.position_add _ ht.position)) .nil)

end Finish

section Limits

variable (hlimits : g'.limits = g.limits)

include hlimits

theorem Parts.succ_unary (ih : ρ.Parts g g' depth)
    (hc : ρ.CursorLike g.registry g'.registry c c') :
    ρ.Alike (ρ.ReadLike g.registry g'.registry) (g.unary (depth + 1) nesting c)
      (g'.unary (depth + 1) nesting c') := by
  simp only [Grammar.unary, hc.peek.kind, hc.peek.value, hlimits]
  split
  · refine (alike_self _).bind fun _ _ _ => ?_
    refine (ih.unary hc.advance).bind fun p p' hp => ?_
    exact .ok ⟨.apply ρ.negation (.cons hp.1 .nil) hc.peek.position, hp.2⟩
  · exact ih.primary hc

variable (hsource : ρ.source g.source g'.source)

include hsource

theorem Parts.succ_primary (ih : ρ.Parts g g' depth)
    (hc : ρ.CursorLike g.registry g'.registry c c') :
    ρ.Alike (ρ.ReadLike g.registry g'.registry) (g.primary (depth + 1) nesting c)
      (g'.primary (depth + 1) nesting c') := by
  have hp := hc.peek
  have hnumber : numberOf c'.peek = numberOf c.peek := by rw [numberOf, numberOf, hp.value]
  simp only [Grammar.primary, hp.kind, hp.value, hlimits, hnumber]
  cases hk : c.peek.kind with
  | number =>
    refine (alike_self _).bind fun x x' hx => ?_
    exact .ok ⟨hx ▸ .number hp.position, hc.advance⟩
  | identifier => exact .ok ⟨.var hp.position, hc.advance⟩
  | function => exact ih.call hc hk
  | leftParen =>
    refine (alike_self _).bind fun _ _ _ => ?_
    refine (ih.expression hc.advance).bind fun p p' hp => ?_
    exact (hp.2.expect_like hsource _ _).bind fun _ _ hafter => .ok ⟨hp.1, hafter⟩
  | finish | operator | rightParen | comma => exact .error (hc.problemAt_like hsource _)

theorem Parts.succ_call (ih : ρ.Parts g g' depth)
    (hc : ρ.CursorLike g.registry g'.registry c c') (hk : c.peek.kind = .function) :
    ρ.Alike (ρ.ReadLike g.registry g'.registry) (g.call (depth + 1) nesting c)
      (g'.call (depth + 1) nesting c') := by
  have hget := hc.peek.operation (.inr hk)
  simp only [Grammar.call, hc.peek.value, hlimits]
  generalize g.registry.get? c.peek.value = found at hget ⊢
  generalize g'.registry.get? c.peek.value = found' at hget ⊢
  cases hget with
  | none => exact .error (hc.problemAt_like hsource _)
  | @some o o' ho =>
    rw [Option.filter_some, Option.filter_some, isFunction_eq ho]
    cases o.isFunction with
    | false => exact .error (hc.problemAt_like hsource _)
    | true =>
      refine (hc.advance.expect_like hsource _ _).bind fun opened opened' hopened => ?_
      refine (alike_self _).bind fun _ _ _ => ?_
      refine (arguments_like (fun hc => ih.expression hc) hopened).bind fun p p' hp => ?_
      refine (hp.2.expect_like hsource _ _).bind fun _ _ hafter => ?_
      rw [hp.1.length_eq]
      refine (alike_self _).bind fun _ _ _ => ?_
      rw [accepts_eq ho, operandCount_eq ho, name_eq ho]
      split
      · exact .ok ⟨.apply ho hp.1 hc.peek.position, hafter⟩
      · exact .error (hc.problemAt_like hsource _)

/-- **What is alike is read alike**, with the same depth of calls. -/
theorem parts : ∀ depth, ρ.Parts g g' depth
  | 0 => by
    constructor <;> intros <;> exact .error (.refl _)
  | depth + 1 => by
    have ih := parts depth
    exact {
      expression := fun hc => ih.binary floorLike_one hc
      binary := ih.succ_binary
      unary := ih.succ_unary hlimits
      primary := ih.succ_primary hlimits hsource
      call := ih.succ_call hlimits hsource }

/-! ## Whole expressions -/

theorem whole_like {tokens tokens' : List Token}
    (h : List.Forall₂ (ρ.TokenLike g.registry g'.registry) tokens tokens') :
    ρ.Alike ρ.ExprLike (g.whole tokens) (g'.whole tokens') := by
  have hclosed := closed_like h
  have hstart : ρ.CursorLike g.registry g'.registry ⟨0, closed tokens⟩ ⟨0, closed tokens'⟩ :=
    ⟨rfl, hclosed⟩
  simp only [whole, wholeWithin, ampleDepth, hstart.atEnd_eq, hclosed.length_eq]
  split
  · exact .error (hstart.problemAt_like hsource _)
  · refine ((parts hlimits hsource _).expression hstart).bind fun p p' hp => ?_
    rw [hp.2.atEnd_eq, hp.2.peek.kind, hp.2.peek.value]
    split
    · exact .ok hp.1
    · split
      · exact .error (hp.2.problemAt_like hsource _)
      · exact .error (hp.2.problemAt_like hsource _)

end Limits

end Likeness

end Reckon
