/-
Calculators drop white space before they read an expression, and to an
expression it means nothing (`Calculator.calculate_stripped`): the stripped text
is parsed under the same limits to a tree that differs in positions and source
only, and has the same number or fails for the same cause.
-/
import Reckon.Proofs.Delivery
import Reckon.Proofs.Evaluation.Forms
import Reckon.Proofs.Token.Stripping

namespace Reckon

/-! ## Texts -/

/-- In the tokens of a text that is parsed no two runs are neighbours. -/
theorem apart_of_parseText {source : String} {r : Registry} {limits : Limits} {t : Tree}
    (h : parseText source r limits = .ok t) :
    ∃ tokens, tokenize source r limits = .ok tokens ∧ tokens.IsChain Token.Apart := by
  obtain ⟨d, e, n, htokens, hd, _⟩ := derives_of_parseText h
  refine ⟨_, htokens, apart_append hd.apart (.singleton _) ?_⟩
  simp [Token.finish, TokenKind.isRun]

/-- The tree of the stripped text is alike but for positions and source. -/
theorem exists_parseText_strip {source : String} {limits : Limits} {t : Tree}
    (h : parseText source .standard limits = .ok t) :
    ∃ t', parseText (stripUnprintable source) .standard limits = .ok t' ∧
      Likeness.unplaced.TreeLike t t' := by
  obtain ⟨tokens, htokens, hapart⟩ := apart_of_parseText h
  obtain ⟨again, hagain, hforms⟩ := tokenize_strip htokens hapart
  have hlike := Likeness.parseText_like htokens hagain hforms
  rw [h] at hlike
  generalize parseText (stripUnprintable source) .standard limits = x at hlike ⊢
  cases hlike with
  | ok ht => exact ⟨_, rfl, ht⟩

/-! ## Calculations -/

namespace Calculator

/-- The policy that a call comes to. -/
def policyOf (c : Calculator) (call : Call) : NullPolicy :=
  match call.nullPolicy with
  | .null => c.settings.nullPolicy
  | mode => (NullPolicy.resolve mode).1

/-- What the call gives is valid, and this is the request that it comes to. -/
def Asks (c : Calculator) (call : Call) (request : Request) : Prop :=
  ∃ assignments, Request.assignments call.assignments = .ok assignments ∧
    c.requestOf call assignments (c.policyOf call) = .ok request

variable {c : Calculator} {call : Call} {request : Request}

/-- A valid call does what its request does. -/
theorem Asks.outcome (h : c.Asks call request) (callback : Option Callback) :
    (c.calculate call callback).outcome =
      (c.calculateRequest request callback).outcome.mapError .failed := by
  obtain ⟨assignments, hassignments, hrequest⟩ := h
  unfold policyOf at hrequest
  unfold calculate
  rw [hassignments]
  dsimp only
  cases hpolicy : call.nullPolicy <;> simp only [hpolicy] at hrequest ⊢ <;> rw [hrequest]

end Calculator

/-- **White space means nothing.** A text that is parsed on the standard registry is parsed once
stripped, under the same limits and to the same tree but for positions and source. Calculating the
text as it is typed gives the number of its own tree, or fails for the same cause. -/
theorem Calculator.calculate_stripped {source : String} {limits : Limits} {t : Tree}
    (h : parseText source .standard limits = .ok t) :
    (∃ t', parseText (stripUnprintable source) .standard limits = .ok t' ∧
      t'.unplaced = t.unplaced) ∧
    ∀ (settings : Settings) (call : Call) (request : Request), settings.limits = limits →
      let c := Calculator.new settings .standard
      c.Asks call request → request.expression = source → request.international = false →
      match t.evaluate request.bindings request.nullPolicy with
      | .ok x => (c.calculate call none).outcome = .ok ⟨source, .ok x⟩
      | .error (.diagnostic d) =>
        ∃ d', (c.calculate call none).outcome = .ok ⟨source, .error d'⟩ ∧ d'.cause = d.cause
      | .error (.fault f) => (c.calculate call none).outcome = .error (.failed (.fault f)) := by
  obtain ⟨t', hparse, hlike⟩ := exists_parseText_strip h
  refine ⟨⟨t', hparse, hlike.unplaced_eq⟩, ?_⟩
  rintro settings call request rfl c hasks rfl hinternational
  have hvalue : c.valueOf request (normalize request.expression request.international) =
      t'.evaluate request.bindings request.nullPolicy := by
    have hcompile : c.compile (normalize request.expression request.international) = .ok t' := by
      rw [hinternational]
      exact hparse
    rw [valueOf, hcompile]
    rfl
  have hevaluate := Likeness.evaluate_like hlike request.bindings request.nullPolicy
  rw [hasks.outcome, calculateRequest_none, hvalue]
  generalize t.evaluate request.bindings request.nullPolicy = x at hevaluate ⊢
  generalize t'.evaluate request.bindings request.nullPolicy = y at hevaluate ⊢
  cases hevaluate with
  | ok hxy =>
    subst hxy
    rfl
  | error hf =>
    cases hf with
    | diagnostic hd => exact ⟨_, rfl, hd.cause⟩
    | fault => rfl

/-- A difference with a null, typed with white space and calculated without. -/
theorem Calculator.calculate_stripped_difference :
    ∃ t t', parseText "1,000 - x" .standard .standard = .ok t ∧
      parseText "1,000-x" .standard .standard = .ok t' ∧ t'.unplaced = t.unplaced ∧
      ∃ d, (Calculator.standard.calculate {
        expression := .text "1,000 - x"
        assignments := .record [("x", .null)]
        nullPolicy := .text "throw_error" } none).outcome = .ok ⟨"1,000 - x", .error d⟩ ∧
        d.cause = .nullOperand (some "-") := by
  have hcause : (match parseText "1,000 - x" .standard .standard with
    | .ok t => match t.evaluate [("x", .null)] .throwOnNull with
      | .error (.diagnostic d) => d.cause == .nullOperand (some "-")
      | _ => false
    | .error _ => false) = true := by
    decide +kernel
  split at hcause
  · next t ht =>
    obtain ⟨⟨t', ht', hunplaced⟩, hcalculate⟩ := calculate_stripped ht
    refine ⟨t, t', ht, ht', hunplaced, ?_⟩
    have houtcome := hcalculate {} {
      expression := .text "1,000 - x"
      assignments := .record [("x", .null)]
      nullPolicy := .text "throw_error" } {
      expression := "1,000 - x"
      bindings := [("x", .null)]
      nullPolicy := .throwOnNull
      international := false } rfl ⟨[(.text "x", .null)], rfl, rfl⟩ rfl rfl
    dsimp only at houtcome
    split at hcause
    · next d hd =>
      rw [hd] at houtcome
      obtain ⟨d', hresult, hd'⟩ := houtcome
      exact ⟨d', hresult, hd'.trans (beq_iff_eq.1 hcause)⟩
    · cases hcause
  · cases hcause

end Reckon
