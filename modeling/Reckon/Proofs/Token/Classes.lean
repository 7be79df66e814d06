/-
The order in which the scanner tells characters apart does not matter. It looks
for the class of a character in a fixed order of tests, and the first that holds
decides. Of a registry that registrations lead to no two tests hold of the same
character (`CharClass.unique`), so any order of the tests scans every text alike
(`tokenizeIn_eq`). Without the check of operators a registered digit would be
read as part of a number or as an operator, depending on what is tested first.
-/
import Reckon.Proofs.Token.Lexeme
import Reckon.Proofs.Token.Step

namespace Reckon

/-- The classes of characters, each told by a test of its own. -/
inductive CharClass where
  | digit
  | letter
  | point
  | comma
  | leftParen
  | rightParen
  | operator
  | space
  deriving DecidableEq

namespace CharClass

/-- The scanner's order. -/
def all : List CharClass :=
  [digit, letter, point, comma, leftParen, rightParen, operator, space]

theorem mem_all (k : CharClass) : k ∈ all := by
  cases k <;> simp [all]

/-- The test of a class. -/
def holds (r : Registry) (c : Char) : CharClass → Bool
  | digit => Text.isDigit c
  | letter => Text.isLetter c
  | point => c = '.'
  | comma => c = ','
  | leftParen => c = '('
  | rightParen => c = ')'
  | operator => r.isOperator (String.singleton c)
  | space => isSpace c

/-- What a character of the class does. -/
def effect (s : Scanner.State) : CharClass → Scanner.Effect
  | digit => if s.continues isNumeric then .join else .begin
  | letter => if s.continues Text.isLetter then .join else .begin
  | point => .join
  | comma => if s.groups.head? == some true then .token .comma else .skip
  | leftParen => .token .leftParen
  | rightParen => .token .rightParen
  | operator => .token .operator
  | space => .space

/-! ## At most one class -/

/-- The code points of a class that is the same for all registries. -/
def Codes (n : Nat) : CharClass → Prop
  | digit => 48 ≤ n ∧ n ≤ 57
  | letter => (97 ≤ n ∧ n ≤ 122) ∨ (65 ≤ n ∧ n ≤ 90)
  | point => n = 46
  | comma => n = 44
  | leftParen => n = 40
  | rightParen => n = 41
  | operator => False
  | space => n = 32 ∨ n = 9 ∨ n = 10 ∨ n = 13

theorem Codes.unique {n : Nat} {k k' : CharClass} (h : k.Codes n) (h' : k'.Codes n) : k = k' := by
  -- the code points of two classes do not meet
  cases k <;> cases k' <;> simp only [Codes] at h h' <;> first | rfl | omega

variable {r : Registry} {c : Char}

theorem codes_of_holds {k : CharClass} (h : k.holds r c = true) (hk : k ≠ operator) :
    k.Codes c.toNat := by
  cases k with
  | digit => exact Text.isDigit_iff.1 h
  | letter => exact Text.isLetter_iff.1 h
  | operator => exact absurd rfl hk
  | point | comma | leftParen | rightParen =>
    obtain rfl := of_decide_eq_true h
    rfl
  | space =>
    simp only [holds, isSpace, Bool.or_eq_true, decide_eq_true_eq] at h
    rcases h with ((rfl | rfl) | rfl) | rfl
    · exact .inl rfl
    · exact .inr (.inl rfl)
    · exact .inr (.inr (.inl rfl))
    · exact .inr (.inr (.inr rfl))

/-- Operators are of no other class. -/
theorem not_holds_of_operator (hr : r.Reached) (h : operator.holds r c = true) {k : CharClass}
    (hk : k ≠ operator) : k.holds r c = false := by
  obtain ⟨hdigit, hletter, _, hpoint, hcomma, hopen, hclose⟩ := isSymbol_eq_true (hr.isSymbol h)
  cases k with
  | digit => exact hdigit
  | letter => exact hletter
  | point => exact decide_eq_false hpoint
  | comma => exact decide_eq_false hcomma
  | leftParen => exact decide_eq_false hopen
  | rightParen => exact decide_eq_false hclose
  | operator => exact absurd rfl hk
  | space => exact hr.not_isSpace h

/-- **No two tests hold of one character.** -/
theorem unique (hr : r.Reached) {k k' : CharClass} (h : k.holds r c = true)
    (h' : k'.holds r c = true) : k = k' := by
  by_cases hk : k = operator <;> by_cases hk' : k' = operator
  · rw [hk, hk']
  · subst hk
    rw [not_holds_of_operator hr h hk'] at h'
    cases h'
  · subst hk'
    rw [not_holds_of_operator hr h' hk] at h
    cases h
  · exact (codes_of_holds h hk).unique (codes_of_holds h' hk')

/-- An order that has all classes finds the class of a character. -/
theorem find?_eq_some_iff (hr : r.Reached) {order : List CharClass} (horder : ∀ k, k ∈ order)
    {k : CharClass} : order.find? (·.holds r c) = some k ↔ k.holds r c = true := by
  refine ⟨fun h => List.find?_some h, fun h => ?_⟩
  cases hfind : order.find? (·.holds r c) with
  | none => exact absurd h (List.find?_eq_none.1 hfind k (horder k))
  | some k' => rw [unique hr (List.find?_some hfind) h]

end CharClass

/-! ## Scanning in any order -/

namespace Scanner

/-- What a character does where classes are looked for in an order: what the first that holds
does. -/
def effectIn (order : List CharClass) (r : Registry) (s : State) (c : Char) : Effect :=
  match order.find? (·.holds r c) with
  | some k => k.effect s
  | none => .illegal

/-- The tokens of the characters from a position on. -/
def scanIn (order : List CharClass) (r : Registry) (source : String) (s : State)
    (position : Nat) : List Char → Except Diagnostic (List Token)
  | [] => do
    let (tokens, _) ← flush r source s
    return tokens ++ [Token.finish position]
  | c :: cs => do
    let (tokens, s) ← (effectIn order r s c).outcome r source s position c
    let rest ← scanIn order r source s (position + 1) cs
    return tokens ++ rest

theorem effectIn_cons (k : CharClass) (order : List CharClass) (r : Registry) (s : State)
    (c : Char) : effectIn (k :: order) r s c =
      if k.holds r c then k.effect s else effectIn order r s c := by
  rw [effectIn, List.find?_cons]
  cases k.holds r c <;> rfl

/-- What a character does is told in the scanner's own order. -/
theorem effectIn_all (r : Registry) (s : State) (c : Char) :
    effectIn CharClass.all r s c = effect r s c := by
  simp only [CharClass.all, effectIn_cons, CharClass.holds, CharClass.effect, decide_eq_true_eq]
  rfl

/-- Orders that have all classes do the same. -/
theorem effectIn_eq {r : Registry} (hr : r.Reached) {order : List CharClass}
    (horder : ∀ k, k ∈ order) (s : State) (c : Char) : effectIn order r s c = effect r s c := by
  have hfind : order.find? (·.holds r c) = CharClass.all.find? (·.holds r c) := by
    refine Option.ext fun k => ?_
    rw [CharClass.find?_eq_some_iff hr horder,
      CharClass.find?_eq_some_iff hr CharClass.mem_all]
  rw [← effectIn_all, effectIn, hfind, effectIn]

theorem scanIn_eq {r : Registry} (hr : r.Reached) {order : List CharClass}
    (horder : ∀ k, k ∈ order) (source : String) : ∀ (cs : List Char) (s : State) (position : Nat),
      scanIn order r source s position cs = scan r source s position cs
  | [], _, _ => rfl
  | c :: cs, s, position => by
    rw [scanIn, scan, effectIn_eq hr horder, step_eq]
    simp only [scanIn_eq hr horder source cs]

end Scanner

/-- The tokens of an expression, with the classes of characters looked for in an order. -/
def tokenizeIn (order : List CharClass) (source : String) (r : Registry) (limits : Limits) :
    Except Diagnostic (List Token) := do
  limits.checkLength source.length
  Scanner.scanIn order r source {} 0 source.toList

/-- **Any order of the tests does.** -/
theorem tokenizeIn_eq {r : Registry} (hr : r.Reached) {order : List CharClass}
    (horder : ∀ k, k ∈ order) (source : String) (limits : Limits) :
    tokenizeIn order source r limits = tokenize source r limits := by
  rw [tokenizeIn, tokenize, Scanner.scanIn_eq hr horder]

end Reckon
