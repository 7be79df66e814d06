/-
What one character does to the scanner, told once: it joins the run, ends it
and begins another, is skipped, becomes a token by itself, or only ends the run
(`Scanner.step_eq`). Everything about scans is proved from this, and no later
proof opens `step`.
-/
import Reckon.Proofs.Outcome
import Reckon.Proofs.Text.Ascii
import Reckon.Token.Scanner

namespace Reckon

/-- The characters of numerals. -/
def isNumeric (c : Char) : Bool := Text.isDigit c || c == '.'

theorem not_isLetter_of_isNumeric {c : Char} (h : isNumeric c = true) :
    Text.isLetter c = false := by
  rw [isNumeric, Bool.or_eq_true, beq_iff_eq] at h
  rcases h with hd | rfl
  · exact Text.not_isLetter_of_isDigit hd
  · decide

theorem not_isNumeric_of_isLetter {c : Char} (h : Text.isLetter c = true) :
    isNumeric c = false := by
  rw [← Bool.not_eq_true]
  intro hn
  rw [not_isLetter_of_isNumeric hn] at h
  cases h

namespace Scanner

/-- What a character does. -/
inductive Effect where
  | join
  | begin
  | skip
  | token (kind : TokenKind)
  | space
  | illegal
  deriving DecidableEq

/-- What a character does after those that the state remembers. -/
def effect (r : Registry) (s : State) (c : Char) : Effect :=
  if Text.isDigit c then if s.continues isNumeric then .join else .begin
  else if Text.isLetter c then if s.continues Text.isLetter then .join else .begin
  else if c = '.' then .join
  else if c = ',' then if s.groups.head? == some true then .token .comma else .skip
  else if c = '(' then .token .leftParen
  else if c = ')' then .token .rightParen
  else if r.isOperator (String.singleton c) then .token .operator
  else if isSpace c then .space
  else .illegal

/-- The open parentheses after a token of a kind. -/
def groupsAfter (groups : List Bool) (afterFunction : Bool) : TokenKind → List Bool
  | .leftParen => afterFunction :: groups
  | .rightParen => groups.tail
  | _ => groups

/-- The state after a character that is a token by itself. -/
def State.close (s : State) (kind : TokenKind) (c : Char) : State :=
  { s with
    previous := some c
    groups := groupsAfter s.groups s.afterFunction kind
    afterFunction := false }

/-- The diagnostic for a character that is in no token. -/
def unexpected (source : String) (c : Char) (position : Nat) : Diagnostic where
  cause := .lexical (.unexpectedCharacter c)
  position := some position
  source := some source

/-- The tokens and the state that an effect leaves. -/
def Effect.outcome (r : Registry) (source : String) (s : State) (position : Nat) (c : Char) :
    Effect → Except Diagnostic (List Token × State)
  | join => .ok ([], s.gather c position)
  | begin => do
    let (tokens, s) ← flush r source s
    return (tokens, s.gather c position)
  | skip => .ok ([], s)
  | token kind => do
    let (tokens, s) ← flush r source s
    return (tokens ++ [single kind c position], s.close kind c)
  | space => do
    let (tokens, s) ← flush r source s
    return (tokens, { s with previous := some c })
  | illegal => .error (unexpected source c position)

/-- **A step is the effect of its character.** -/
theorem step_eq (r : Registry) (source : String) (s : State) (position : Nat) (c : Char) :
    step r source s position c = (effect r s c).outcome r source s position c := by
  unfold step effect
  by_cases hd : Text.isDigit c = true
  · rw [if_pos hd, if_pos hd]
    unfold isNumeric
    split <;> rfl
  rw [if_neg hd, if_neg hd]
  by_cases hl : Text.isLetter c = true
  · rw [if_pos hl, if_pos hl]
    split <;> rfl
  rw [if_neg hl, if_neg hl]
  by_cases hp : c = '.'
  · rw [if_pos hp, if_pos hp]
    rfl
  rw [if_neg hp, if_neg hp]
  by_cases hc : c = ','
  · rw [if_pos hc, if_pos hc]
    split <;> rfl
  rw [if_neg hc, if_neg hc]
  by_cases ho : c = '('
  · rw [if_pos ho, if_pos ho]
    rfl
  rw [if_neg ho, if_neg ho]
  by_cases hcl : c = ')'
  · rw [if_pos hcl, if_pos hcl]
    rfl
  rw [if_neg hcl, if_neg hcl]
  by_cases hop : r.isOperator (String.singleton c) = true
  · rw [if_pos hop, if_pos hop]
    rfl
  rw [if_neg hop, if_neg hop]
  split <;> rfl

/-- The characters of runs join or begin one. -/
inductive RunEffect (s : State) (c : Char) : Effect → Prop
  | digit : Text.isDigit c = true →
      RunEffect s c (if s.continues isNumeric then .join else .begin)
  | letter : Text.isLetter c = true →
      RunEffect s c (if s.continues Text.isLetter then .join else .begin)
  | point : c = '.' → RunEffect s c .join

theorem RunEffect.join_or_begin {s : State} {c : Char} {e : Effect} (h : RunEffect s c e) :
    e = .join ∨ e = .begin := by
  cases h with
  | digit => split <;> simp
  | letter => split <;> simp
  | point => simp

/-- The characters of runs structure nothing. -/
theorem RunEffect.ne {s : State} {c : Char} {e : Effect} (h : RunEffect s c e) :
    c ≠ ',' ∧ c ≠ '(' ∧ c ≠ ')' := by
  cases h with
  | digit h | letter h =>
    refine ⟨?_, ?_, ?_⟩ <;> rintro rfl <;> revert h <;> decide
  | point h =>
    subst h
    decide

/-- All other characters are told apart by what they are, and commas by the innermost open
parenthesis. -/
inductive OtherEffect (r : Registry) (s : State) (c : Char) : Effect → Prop
  | separator : c = ',' → s.groups.head? = some true → OtherEffect r s c (.token .comma)
  | skipped : c = ',' → s.groups.head? ≠ some true → OtherEffect r s c .skip
  | leftParen : c = '(' → OtherEffect r s c (.token .leftParen)
  | rightParen : c = ')' → OtherEffect r s c (.token .rightParen)
  | operator : c ≠ ',' → c ≠ '(' → c ≠ ')' → r.isOperator (String.singleton c) = true →
      OtherEffect r s c (.token .operator)
  | space : c ≠ ',' → c ≠ '(' → c ≠ ')' → r.isOperator (String.singleton c) = false →
      isSpace c = true → OtherEffect r s c .space
  | illegal : c ≠ ',' → c ≠ '(' → c ≠ ')' → r.isOperator (String.singleton c) = false →
      isSpace c = false → OtherEffect r s c .illegal

theorem effect_cases (r : Registry) (s : State) (c : Char) :
    RunEffect s c (effect r s c) ∨
      (Text.isLetter c = false ∧ isNumeric c = false ∧ OtherEffect r s c (effect r s c)) := by
  unfold effect
  by_cases hd : Text.isDigit c = true
  · rw [if_pos hd]
    exact .inl (.digit hd)
  rw [if_neg hd]
  by_cases hl : Text.isLetter c = true
  · rw [if_pos hl]
    exact .inl (.letter hl)
  rw [if_neg hl]
  by_cases hp : c = '.'
  · rw [if_pos hp]
    exact .inl (.point hp)
  rw [if_neg hp]
  refine .inr ⟨by simpa using hl, by simp [isNumeric, hd, hp], ?_⟩
  by_cases hc : c = ','
  · rw [if_pos hc]
    split
    · next h => exact .separator hc (by simpa using h)
    · next h => exact .skipped hc (by simpa using h)
  rw [if_neg hc]
  by_cases ho : c = '('
  · rw [if_pos ho]
    exact .leftParen ho
  rw [if_neg ho]
  by_cases hcl : c = ')'
  · rw [if_pos hcl]
    exact .rightParen hcl
  rw [if_neg hcl]
  split
  · next h => exact .operator hc ho hcl h
  · next h =>
    split
    · next hs => exact .space hc ho hcl (by simpa using h) hs
    · next hs => exact .illegal hc ho hcl (by simpa using h) (by simpa using hs)

/-- What neither joins a run nor begins one is no character of runs. -/
theorem otherEffect_of_effect {r : Registry} {s : State} {c : Char} {e : Effect}
    (h : effect r s c = e) (hjoin : e ≠ .join) (hbegin : e ≠ .begin) : OtherEffect r s c e := by
  subst h
  rcases effect_cases r s c with he | ⟨_, _, he⟩
  · exact absurd he.join_or_begin (by simp [hjoin, hbegin])
  · exact he

/-- Commas are skipped but where arguments are separated. -/
theorem effect_eq_skip_iff {r : Registry} {s : State} {c : Char} :
    effect r s c = .skip ↔ c = ',' ∧ s.groups.head? ≠ some true := by
  constructor
  · intro h
    cases otherEffect_of_effect h (by simp) (by simp) with
    | skipped hc hgroup => exact ⟨hc, hgroup⟩
  · rintro ⟨rfl, hgroup⟩
    simp [effect, hgroup, show Text.isDigit ',' = false by decide,
      show Text.isLetter ',' = false by decide]

/-- What joins a run or begins one is no comma. -/
theorem ne_comma_of_effect {r : Registry} {s : State} {c : Char}
    (h : effect r s c = .join ∨ effect r s c = .begin) : c ≠ ',' := by
  rcases effect_cases r s c with he | ⟨_, _, he⟩
  · exact he.ne.1
  · rcases h with h | h <;>
    · rw [h] at he
      cases he

/-! ## Registries with the same names -/

section Names

variable {r r' : Registry} (hoperator : ∀ name, r'.isOperator name = r.isOperator name)
  (hfunction : ∀ name, r'.isFunction name = r.isFunction name)

include hoperator hfunction

/-- The scanner asks a registry for operators and functions only. -/
theorem step_congr (source : String) (s : State) (position : Nat) (c : Char) :
    step r' source s position c = step r source s position c := by
  have hflush : flush r' source s = flush r source s := by
    rw [flush, flush, runToken, runToken, hfunction]
  rw [step, step, hoperator, hflush]

theorem scan_congr (source : String) (s : State) (position : Nat) (cs : List Char) :
    scan r' source s position cs = scan r source s position cs := by
  induction cs generalizing s position with
  | nil => rw [scan, scan, flush, flush, runToken, runToken, hfunction]
  | cons c cs ih =>
    rw [scan, scan, step_congr hoperator hfunction]
    simp only [ih]

end Names

end Scanner

/-- Registries with operators and functions of the same names give the same tokens. -/
theorem tokenize_congr {r r' : Registry}
    (hoperator : ∀ name, r'.isOperator name = r.isOperator name)
    (hfunction : ∀ name, r'.isFunction name = r.isFunction name) (source : String)
    (limits : Limits) : tokenize source r' limits = tokenize source r limits := by
  simp only [tokenize, Scanner.scan_congr hoperator hfunction]

end Reckon
