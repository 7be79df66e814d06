/-
A further operation changes nothing for the expressions that do not name it
(`Registry.register_conservative`). A registry decides what a symbol and what a
word is, how tightly operators bind and what functions take; all of that it is
asked by name, and it answers as before under every other name.

One question is asked of characters before there are tokens: whether they are
operators. A new operator is a symbol that was in no token before, so it is not
in a source that could be scanned.
-/
import Reckon.Evaluation
import Reckon.Proofs.Grammar.Outcomes
import Reckon.Proofs.Tree.Likeness

namespace Reckon

namespace Registry

/-- The second registry has one more operation, of this name, and is else the same. -/
structure Extends (r r' : Registry) (n : String) : Prop where
  reached : r'.Reached
  fresh : r.get? n = none
  other : ∀ name, name ≠ n → r'.get? name = r.get? name

theorem extends_of_register {r : Registry} (hr : r.Reached) {d : Declaration}
    {registration : Registration} (h : r.register d = .ok registration) {n : String}
    (hname : d.name = .text n) (hfresh : r.contains n = false) :
    r.Extends registration.registry n := by
  obtain ⟨_, hcheck, hinsert⟩ := register_eq_ok h
  have hn : registration.operation.name = n := by
    have := hname.symm.trans (Declaration.check_eq_ok hcheck).1
    exact (Datum.text.inj this).symm
  refine ⟨hr.register h, by simpa [contains] using hfresh, fun name hne => ?_⟩
  rw [hinsert, get?_insert_of_ne _ _ (hn ▸ hne)]

namespace Extends

variable {r r' : Registry} {n : String} (h : r.Extends r' n)

include h

theorem isOperator_eq {name : String} (hne : name ≠ n) :
    r'.isOperator name = r.isOperator name := by
  rw [isOperator, isOperator, h.other name hne]

theorem isFunction_eq {name : String} (hne : name ≠ n) :
    r'.isFunction name = r.isFunction name := by
  rw [isFunction, isFunction, h.other name hne]

theorem lexeme {cs : List Char} {k : TokenKind} (hlex : Lexeme r cs k)
    (hne : String.ofList cs ≠ n) : Lexeme r' cs k := by
  cases hlex with
  | function hcs hl hf => exact .function hcs hl (by rwa [h.isFunction_eq hne])
  | identifier hcs hl hf => exact .identifier hcs hl (by rwa [h.isFunction_eq hne])
  | number hnumeral => exact .number hnumeral
  | comma => exact .comma
  | leftParen => exact .leftParen
  | rightParen => exact .rightParen
  | operator hop =>
    rw [← String.singleton_eq_ofList] at hne
    exact .operator (by rwa [h.isOperator_eq hne])

end Extends

end Registry

/-! ## Scans -/

namespace Scanner

variable {r r' : Registry} {n : String} (h : r.Extends r' n)

include h

/-- A character has the same effect, if it has been one of the expression at all. -/
theorem effect_extends {s : State} {c : Char} (hlegal : effect r s c ≠ .illegal) :
    effect r' s c = effect r s c := by
  have hcongr (heq : r'.isOperator (String.singleton c) = r.isOperator (String.singleton c)) :
      effect r' s c = effect r s c := by
    rw [effect, effect, heq]
  by_cases hn : String.singleton c = n
  · have hold : r.isOperator (String.singleton c) = false := by
      rw [Registry.isOperator, hn, h.fresh]
    cases hnew : r'.isOperator (String.singleton c) with
    | false => exact hcongr (hnew.trans hold.symm)
    | true =>
      -- a symbol that was no operator was in no token
      obtain ⟨hd, hl, _, hp, hcomma, ho, hcl⟩ := isSymbol_eq_true (h.reached.isSymbol hnew)
      refine absurd ?_ hlegal
      simp [effect, hd, hl, hp, hcomma, ho, hcl, hold, h.reached.not_isSpace hnew]
  · exact hcongr (h.isOperator_eq hn)

theorem Flushed.extends {s s' : State} {ts : List Token} (hflush : Flushed r s ts s')
    (hne : ∀ t ∈ ts, t.value ≠ n) : Flushed r' s ts s' := by
  cases hflush with
  | nothing hrun => exact .nothing hrun
  | run hrun hlex hk => exact .run hrun (h.lexeme hlex (hne _ List.mem_cons_self)) hk

/-- **Scans without the name are the same.** -/
theorem Scans.extends {s : State} {position : Nat} {cs : List Char} {ts : List Token}
    (hscans : Scans r s position cs ts) (hne : ∀ t ∈ ts, t.value ≠ n) :
    Scans r' s position cs ts := by
  induction hscans with
  | finish hflush =>
    exact .finish (hflush.extends h fun t ht => hne t (List.mem_append_left _ ht))
  | join he _ ih => exact .join (by rw [effect_extends h (by simp [he]), he]) (ih hne)
  | skip he _ ih => exact .skip (by rw [effect_extends h (by simp [he]), he]) (ih hne)
  | begin he hflush _ ih =>
    refine .begin (by rw [effect_extends h (by simp [he]), he])
      (hflush.extends h fun t ht => hne t (List.mem_append_left _ ht))
      (ih fun t ht => hne t (List.mem_append_right _ ht))
  | space he hflush _ ih =>
    refine .space (by rw [effect_extends h (by simp [he]), he])
      (hflush.extends h fun t ht => hne t (List.mem_append_left _ ht))
      (ih fun t ht => hne t (List.mem_append_right _ ht))
  | token he hflush _ ih =>
    refine .token (by rw [effect_extends h (by simp [he]), he])
      (hflush.extends h fun t ht => hne t (List.mem_append_left _ ht))
      (ih fun t ht => hne t (List.mem_append_right _ (List.mem_cons_of_mem _ ht)))

end Scanner

/-! ## Texts -/

namespace Registry.Extends

variable {r r' : Registry} {n : String} (h : r.Extends r' n) {source : String}
  {lexing : Limits} {tokens : List Token}

include h

theorem parse_eq (hne : ∀ t ∈ tokens, t.value ≠ n) (limits : Limits) (source : Option String) :
    Grammar.parse ⟨r', limits, source⟩ tokens = Grammar.parse ⟨r, limits, source⟩ tokens := by
  have hlike : List.Forall₂ (Likeness.same.TokenLike r r') tokens tokens := by
    refine List.forall₂_same.2 fun t ht => ⟨rfl, rfl, rfl, fun _ => ?_⟩
    rw [h.other t.value (hne t ht)]
    cases r.get? t.value with
    | none => exact .none
    | some o => exact .some rfl
  refine Likeness.eq_of_alike (Likeness.parse_like ?_ ?_ hlike) <;> rfl

variable (htokens : tokenize source r lexing = .ok tokens) (hne : ∀ t ∈ tokens, t.value ≠ n)

include htokens hne

theorem tokenize_eq (limits : Limits) : tokenize source r' limits = tokenize source r limits := by
  have hscans := scans_of_tokenize htokens
  rw [tokenize, tokenize, Scanner.scan_eq_ok.2 hscans, Scanner.scan_eq_ok.2 (hscans.extends h hne)]

theorem parseText_eq (limits : Limits) :
    parseText source r' limits = parseText source r limits := by
  rw [parseText, parseText, h.tokenize_eq htokens hne, tokenize_eq_check htokens]
  cases limits.checkLength source.length with
  | error d => simp only [Except.map, mapError_error, bind, Except.bind]
  | ok =>
    simp only [Except.map, mapError_ok, bind, Except.bind]
    exact h.parse_eq hne limits (some source)

end Registry.Extends

/-- **Extending a registry is conservative.** Where an operation of a new name is registered, a
source that could be scanned and that has no token of this name has the same tokens as before; under
all limits it is parsed to the same tree or refused in the same way, and its tree has the same
outcome under all bindings and policies. -/
theorem Registry.register_conservative {r : Registry} (hr : r.Reached) {d : Declaration}
    {registration : Registration} (hregister : r.register d = .ok registration) {n : String}
    (hname : d.name = .text n) (hfresh : r.contains n = false) {source : String} {lexing : Limits}
    {tokens : List Token} (htokens : tokenize source r lexing = .ok tokens)
    (hne : ∀ t ∈ tokens, t.value ≠ n) :
    tokenize source registration.registry lexing = .ok tokens ∧
    ∀ limits, tokenize source registration.registry limits = tokenize source r limits ∧
      parseText source registration.registry limits = parseText source r limits ∧
      ∀ bindings policy,
        (do (← parseText source registration.registry limits).evaluate bindings policy) =
          (do (← parseText source r limits).evaluate bindings policy) := by
  have hextends := extends_of_register hr hregister hname hfresh
  refine ⟨(hextends.tokenize_eq htokens hne lexing).trans htokens, fun limits => ?_⟩
  have hparse := hextends.parseText_eq htokens hne limits
  exact ⟨hextends.tokenize_eq htokens hne limits, hparse, fun _ _ => by rw [hparse]⟩

/-- Maxima are the same with and without an operator for powers, and so is a maximum that is not
closed. -/
theorem Registry.register_conservative_power :
    ∃ registration, standard.copy.register (operator "^" 3 Arithmetic.product) = .ok registration ∧
      (∀ limits, parseText "MAX(x,-1)" registration.registry limits =
        parseText "MAX(x,-1)" standard.copy limits) ∧
      ∀ limits, parseText "MAX(1,000" registration.registry limits =
        parseText "MAX(1,000" standard.copy limits := by
  have hr : standard.copy.Reached := standard_reached.copy
  obtain ⟨registration, hregister⟩ := exists_of_isOk
    (show (standard.copy.register (operator "^" 3 Arithmetic.product)).isOk = true from by
      decide +kernel)
  have hfresh : standard.copy.contains "^" = false := by decide +kernel
  have hclosed : tokenize "MAX(x,-1)" standard.copy .standard = .ok [⟨.function, "MAX", 0⟩,
    ⟨.leftParen, "(", 3⟩, ⟨.identifier, "x", 4⟩, ⟨.comma, ",", 5⟩, ⟨.operator, "-", 6⟩,
    ⟨.number, "1", 7⟩, ⟨.rightParen, ")", 8⟩, ⟨.finish, "", 9⟩] := by decide +kernel
  have hopen : tokenize "MAX(1,000" standard.copy .standard = .ok [⟨.function, "MAX", 0⟩,
    ⟨.leftParen, "(", 3⟩, ⟨.number, "1", 4⟩, ⟨.comma, ",", 5⟩, ⟨.number, "000", 6⟩,
    ⟨.finish, "", 9⟩] := by decide +kernel
  refine ⟨registration, hregister, fun limits => ?_, fun limits => ?_⟩
  · exact ((register_conservative hr hregister rfl hfresh hclosed (by decide)).2 limits).2.1
  · exact ((register_conservative hr hregister rfl hfresh hopen (by decide)).2 limits).2.1

end Reckon
