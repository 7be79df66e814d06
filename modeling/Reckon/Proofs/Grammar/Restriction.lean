/-
Tighter limits only refuse more (`parseText_restricts`): what comes of a text
under them is what comes of it under the wider ones, be it a tree or a problem
with its characters or its grammar, or it is a limit that is exceeded.

It is a statement on two runs, and a step of the one may stop where the other
goes on. That can happen at a check only; all other steps are the same as long
as the steps before have been (`Restricts.bind`). The five functions of the
reader are compared by induction on the depth of calls, which is the same in
both runs, and so is the nesting (`Grammar.Tightened`).
-/
import Reckon.Proofs.Grammar.Parsing

namespace Reckon

/-- No bound is greater than the other one. -/
structure Limits.Tighter (l l' : Limits) : Prop where
  length : l.maxExpressionLength ≤ l'.maxExpressionLength
  nesting : l.maxNestingDepth ≤ l'.maxNestingDepth
  nodes : l.maxTreeNodes ≤ l'.maxTreeNodes
  arguments : l.maxFunctionArgs ≤ l'.maxFunctionArgs

/-- The first outcome is the second one, or it tells of a limit. -/
inductive Restricts {α : Type} : Except Failure α → Except Failure α → Prop
  | same {x} : Restricts x x
  | limit {f y} : f.IsLimit → Restricts (.error f) y

namespace Restricts

variable {α β : Type}

theorem of_eq {x y : Except Failure α} (h : x = y) : Restricts x y := h ▸ .same

/-- What goes on alike after steps that compare. -/
theorem bind {x y : Except Failure α} {f f' : α → Except Failure β} (h : Restricts x y)
    (hf : ∀ a, Restricts (f a) (f' a)) : Restricts (x >>= f) (y >>= f') := by
  cases h with
  | limit hlimit => exact .limit hlimit
  | same =>
    cases x with
    | ok a => exact hf a
    | error => exact .same

theorem ok {x y : Except Failure α} (h : Restricts x y) {a : α} (hx : x = .ok a) : y = .ok a := by
  cases h with
  | limit => cases hx
  | same => exact hx

theorem eq_or_limit {x y : Except Failure α} (h : Restricts x y) :
    x = y ∨ ∃ d, x = .error (.diagnostic d) ∧ d.kind = .limit := by
  cases h with
  | same => exact .inl rfl
  | limit hlimit =>
    obtain ⟨d, rfl, hk⟩ := hlimit
    exact .inr ⟨d, rfl, hk⟩

end Restricts

namespace Grammar

/-- A check against a smaller bound passes less. -/
theorem check_restricts (limit : String) {bound bound' : Int} (h : bound ≤ bound') (actual : Int) :
    Restricts (check (Limits.check limit bound actual))
      (check (Limits.check limit bound' actual)) := by
  by_cases hb : bound < actual
  · have hfail : check (Limits.check limit bound actual) =
        .error (.diagnostic { cause := .limitExceeded limit bound actual }) := by
      simp only [Limits.check, if_pos hb]
      rfl
    rw [hfail]
    exact .limit (isLimit_of_check hfail)
  · have hb' : ¬bound' < actual := by omega
    refine .of_eq ?_
    simp only [Limits.check, if_neg hb, if_neg hb']

variable {r : Registry} {source : Option String} {l l' : Limits}

/-! ## The loops -/

theorem infixTail_restricts {operand operand' : Int → Cursor → Reading}
    (h : ∀ p c, Restricts (operand p c) (operand' p c)) (floor : Int) :
    ∀ count left c, Restricts (infixTail ⟨r, l, source⟩ operand floor count left c)
      (infixTail ⟨r, l', source⟩ operand' floor count left c)
  | 0, _, _ => .same
  | count + 1, left, c => by
    have hinfix : infixAt ⟨r, l, source⟩ c = infixAt ⟨r, l', source⟩ c := rfl
    simp only [infixTail, hinfix]
    split
    · exact .same
    next o _ =>
    split
    · exact .same
    · exact (h _ _).bind fun p => Restricts.bind .same fun _ =>
        infixTail_restricts h floor count _ p.2

theorem argumentTail_restricts {argument argument' : Cursor → Reading}
    (h : ∀ c, Restricts (argument c) (argument' c)) :
    ∀ count c, Restricts (argumentTail argument count c) (argumentTail argument' count c)
  | 0, _ => .same
  | count + 1, c => by
    simp only [argumentTail]
    split
    · exact (h _).bind fun p => (argumentTail_restricts h count p.2).bind fun _ => .same
    · exact .same

theorem arguments_restricts {argument argument' : Cursor → Reading}
    (h : ∀ c, Restricts (argument c) (argument' c)) (c : Cursor) :
    Restricts (arguments argument c) (arguments argument' c) := by
  unfold arguments
  split
  · exact .same
  · exact (h c).bind fun p => (argumentTail_restricts h _ p.2).bind fun _ => .same

/-! ## The five functions -/

/-- Each function of the reader gives under the first limits what it gives under the second ones, or
a limit. -/
structure Tightened (r : Registry) (source : Option String) (l l' : Limits) (depth : Nat) :
    Prop where
  expression : ∀ nesting c, Restricts (expression ⟨r, l, source⟩ depth nesting c)
    (expression ⟨r, l', source⟩ depth nesting c)
  binary : ∀ nesting floor c, Restricts (binary ⟨r, l, source⟩ depth nesting floor c)
    (binary ⟨r, l', source⟩ depth nesting floor c)
  unary : ∀ nesting c, Restricts (unary ⟨r, l, source⟩ depth nesting c)
    (unary ⟨r, l', source⟩ depth nesting c)
  primary : ∀ nesting c, Restricts (primary ⟨r, l, source⟩ depth nesting c)
    (primary ⟨r, l', source⟩ depth nesting c)
  call : ∀ nesting c, Restricts (call ⟨r, l, source⟩ depth nesting c)
    (call ⟨r, l', source⟩ depth nesting c)

variable {depth : Nat}

theorem Tightened.succ_binary (ih : Tightened r source l l' depth) (nesting : Nat) (floor : Int)
    (c : Cursor) : Restricts (Grammar.binary ⟨r, l, source⟩ (depth + 1) nesting floor c)
      (Grammar.binary ⟨r, l', source⟩ (depth + 1) nesting floor c) := by
  simp only [Grammar.binary]
  refine (ih.unary nesting c).bind fun p => ?_
  exact infixTail_restricts (fun tighter c => ih.binary nesting tighter c) floor _ p.1 p.2

variable (hl : l.Tighter l')

include hl

theorem Tightened.succ_unary (ih : Tightened r source l l' depth) (nesting : Nat) (c : Cursor) :
    Restricts (Grammar.unary ⟨r, l, source⟩ (depth + 1) nesting c)
      (Grammar.unary ⟨r, l', source⟩ (depth + 1) nesting c) := by
  simp only [Grammar.unary]
  split
  · refine (check_restricts _ hl.nesting _).bind fun _ => ?_
    exact (ih.unary (nesting + 1) c.advance).bind fun _ => .same
  · exact ih.primary nesting c

theorem Tightened.succ_primary (ih : Tightened r source l l' depth) (nesting : Nat) (c : Cursor) :
    Restricts (Grammar.primary ⟨r, l, source⟩ (depth + 1) nesting c)
      (Grammar.primary ⟨r, l', source⟩ (depth + 1) nesting c) := by
  simp only [Grammar.primary]
  split
  case h_3 => exact ih.call nesting c
  case h_4 =>
    refine (check_restricts _ hl.nesting _).bind fun _ => ?_
    refine (ih.expression (nesting + 1) c.advance).bind fun p => ?_
    exact .same
  all_goals exact .same

theorem Tightened.succ_call (ih : Tightened r source l l' depth) (nesting : Nat) (c : Cursor) :
    Restricts (Grammar.call ⟨r, l, source⟩ (depth + 1) nesting c)
      (Grammar.call ⟨r, l', source⟩ (depth + 1) nesting c) := by
  simp only [Grammar.call]
  split
  · exact .same
  next o _ =>
  refine Restricts.bind .same fun opened => ?_
  refine (check_restricts _ hl.nesting _).bind fun _ => ?_
  refine (arguments_restricts (fun c => ih.expression (nesting + 1) c) opened).bind fun p => ?_
  refine Restricts.bind .same fun after => ?_
  -- the count is checked against the limit before the function looks at it
  exact (check_restricts _ hl.arguments _).bind fun _ => .same

theorem tightened : ∀ depth, Tightened r source l l' depth
  | 0 => by constructor <;> intros <;> exact .same
  | depth + 1 => by
    have ih := tightened depth
    refine ⟨?_, ih.succ_binary, ih.succ_unary hl, ih.succ_primary hl, ih.succ_call hl⟩
    intro nesting c
    exact ih.binary nesting 1 c

/-! ## Whole expressions -/

theorem whole_restricts (tokens : List Token) :
    Restricts (whole ⟨r, l, source⟩ tokens) (whole ⟨r, l', source⟩ tokens) := by
  simp only [whole, wholeWithin]
  split
  · exact .same
  · exact ((tightened hl _).expression 0 _).bind fun p => .same

theorem parse_restricts (tokens : List Token) :
    Restricts (parse ⟨r, l, source⟩ tokens) (parse ⟨r, l', source⟩ tokens) := by
  simp only [parse_eq_whole]
  refine (whole_restricts hl tokens).bind fun e => ?_
  refine Restricts.bind .same fun t => ?_
  exact (check_restricts _ hl.nodes _).bind fun _ => .same

end Grammar

/-! ## Texts -/

theorem tokenize_restricts (source : String) (r : Registry) {l l' : Limits} (hl : l.Tighter l') :
    Restricts ((tokenize source r l).mapError .diagnostic)
      ((tokenize source r l').mapError .diagnostic) := by
  have hchecked (l : Limits) : (tokenize source r l).mapError .diagnostic = (do
      Grammar.check (l.checkLength source.length)
      (Scanner.scan r source {} 0 source.toList).mapError .diagnostic) := by
    rw [tokenize]
    cases l.checkLength source.length <;> rfl
  rw [hchecked, hchecked]
  exact (Grammar.check_restricts _ hl.length _).bind fun _ => .same

/-- **Limits only refuse.** What is a tree under limits is the same tree under wider ones, and
whatever comes of a text under the wider ones comes of it under the tighter ones as well, unless
they tell that one of them is exceeded. -/
theorem parseText_restricts (source : String) (r : Registry) {l l' : Limits}
    (hl : l.Tighter l') :
    (∀ t, parseText source r l = .ok t → parseText source r l' = .ok t) ∧
      (parseText source r l = parseText source r l' ∨
        ∃ d, parseText source r l = .error (.diagnostic d) ∧ d.kind = .limit) := by
  have hrestricts : Restricts (parseText source r l) (parseText source r l') :=
    (tokenize_restricts source r hl).bind fun tokens => Grammar.parse_restricts hl tokens
  exact ⟨fun t ht => hrestricts.ok ht, hrestricts.eq_or_limit⟩

/-- A nesting of one is enough for a minus sign, and not for one in parentheses. -/
theorem parseText_restricts_nesting :
    let tight : Limits := { maxNestingDepth := 1 }
    tight.Tighter .standard ∧
      (∃ t, parseText "-x" .standard tight = .ok t ∧ parseText "-x" .standard .standard = .ok t) ∧
      (parseText "(-x)" .standard .standard).isOk = true ∧
      ∃ d, parseText "(-x)" .standard tight = .error (.diagnostic d) ∧ d.kind = .limit := by
  intro tight
  have htight : tight.Tighter .standard := by constructor <;> decide
  obtain ⟨t, ht⟩ := exists_of_isOk
    (show (parseText "-x" .standard tight).isOk = true by decide +kernel)
  have hwide : (parseText "(-x)" .standard .standard).isOk = true := by decide +kernel
  refine ⟨htight, ⟨t, ht, (parseText_restricts "-x" .standard htight).1 t ht⟩, hwide, ?_⟩
  rcases (parseText_restricts "(-x)" .standard htight).2 with heq | hlimit
  · have hfail : (parseText "(-x)" .standard tight).isOk = false := by decide +kernel
    rw [heq, hwide] at hfail
    cases hfail
  · exact hlimit

end Reckon
