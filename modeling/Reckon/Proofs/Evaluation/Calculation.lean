/-
What comes of a calculation on the standard registry when no callback is there
to fail (`Calculator.calculateRequest_outcome`): a result, except where the tree
has a variable whose value is an integer beyond the doubles. Such an integer is
not rounded to an infinity, as a numeral of its digits is, nor is it a failure
of the expression: it goes through as a fault.

Faults are looked for node by node. Only two of the steps that a node takes can
fail with one, the conversion of a variable and a reducer, and where reducers
are tame (`Reducer.Tame`) the first is the only one left.
-/
import Reckon.Proofs.Delivery
import Reckon.Proofs.Evaluation.Pass

namespace Reckon

/-! ## Faults of nodes -/

namespace Evaluator

variable {E : Evaluator} {f : Fault}

theorem fault_of_numberAt {position : Int} {d : Datum}
    (h : E.numberAt position d = .error (.fault f)) :
    f = .integerTooLarge ∧ ∃ i, d = .int i ∧ intToFloat? i = none := by
  unfold numberAt at h
  split at h
  · next i =>
    split at h
    · cases h
    · next hnone =>
      obtain rfl := Failure.fault.inj (Except.error.inj h)
      exact ⟨rfl, i, rfl, hnone⟩
  · cases h
  · cases h

theorem fault_of_variableAt {position : Int} {name : String}
    (h : E.variableAt position name = .error (.fault f)) :
    f = .integerTooLarge ∧
      ∃ i, E.bindings.get? name = some (.int i) ∧ intToFloat? i = none := by
  rcases variableAt_eq_error h with ⟨_, hf⟩ | ⟨d, hd, _, hnumber⟩
  · cases hf
  · obtain ⟨hf, i, rfl, hnone⟩ := fault_of_numberAt hnumber
    exact ⟨hf, i, hd, hnone⟩

/-- Where reducers are tame a node fails with a fault at a large integer only. -/
theorem fault_of_valueAt {results : Array (Option Float)} {n : Node}
    (htame : ∀ o, n.item = .operation o → o.reducer.Tame)
    (h : E.valueAt results n = .error (.fault f)) :
    f = .integerTooLarge ∧ ∃ name i, n.item = .var name ∧
      E.bindings.get? name = some (.int i) ∧ intToFloat? i = none := by
  rcases valueAt_eq_error h with
    ⟨name, hitem, hvar⟩ | ⟨o, hitem, ⟨hf, _⟩ | ⟨numbers, hadmits, happly⟩⟩
  · obtain ⟨hf, i, hi, hnone⟩ := fault_of_variableAt hvar
    exact ⟨hf, name, i, hitem, hi, hnone⟩
  · cases hf
  · -- the policy admits one operand or more, so the reducer fails as arithmetic does if at all
    obtain ⟨_, _, hf⟩ :=
      applyAt_eq_error_of_tame (htame o hitem) (NullPolicy.admit_ne_nil hadmits) happly
    cases hf

/-- The root is a node, so a fault is one of the pass. -/
theorem fault_of_numberOf {t : Tree} (ht : t.Made) (h : E.numberOf t = .error (.fault f)) :
    E.pass #[] t.nodes.toList = .error (.fault f) := by
  rw [numberOf, bind_eq_error] at h
  rcases h with h | ⟨results, _, h⟩
  · exact h
  · obtain ⟨n, hn⟩ := ht.exists_rootNode
    rw [Tree.rootNode?, hn] at h
    split at h
    · cases h
    · cases hpolicy : E.policy <;> rw [hpolicy] at h <;> cases h

end Evaluator

/-! ## Calculations -/

namespace Calculator

/-- On a registry of tame operations only large integers are faults. -/
theorem fault_of_valueOf {c : Calculator} (hr : c.registry.Reached)
    (htame : ∀ o ∈ c.registry.operations, o.reducer.Tame) {request : Request} {text : String}
    {f : Fault} (h : c.valueOf request text = .error (.fault f)) :
    f = .integerTooLarge ∧ ∃ t name i, c.compile text = .ok t ∧ name ∈ t.variableNames ∧
      request.bindings.get? name = some (.int i) ∧ intToFloat? i = none := by
  rw [valueOf, bind_eq_error] at h
  rcases h with h | ⟨t, ht, h⟩
  · obtain ⟨d, hd, _⟩ := kind_of_parseText_error hr h
    cases hd
  · have hpass := Evaluator.fault_of_numberOf (Tree.made_of_parseText ht) h
    obtain ⟨k, n, before, hn, _, hvalue⟩ := Evaluator.pass_eq_error hpass
    have hn := List.mem_of_getElem? hn
    obtain ⟨tokens, hparse⟩ := exists_parse_of_parseText ht
    have hnode := Grammar.operation_of_parse (P := fun o _ => o.reducer.Tame) hr
      (fun o ho _ _ => htame o ho) negation_tame hparse n hn
    obtain ⟨hf, name, i, hitem, hi, hnone⟩ := Evaluator.fault_of_valueAt hnode hvalue
    exact ⟨hf, t, name, i, ht, Tree.mem_variableNames.2 ⟨n, hn, hitem⟩, hi, hnone⟩

/-- **A calculation on the standard registry has a result, unless a variable of its expression is an
integer beyond the doubles.** -/
theorem calculateRequest_outcome (settings : Settings) (request : Request) :
    let c := Calculator.new settings Registry.standard
    let delivery := c.calculateRequest request none
    (∃ result, delivery.outcome = .ok result) ∨
      (delivery.outcome = .error (.fault .integerTooLarge) ∧
        ∃ t name i, c.compile (normalize request.expression request.international) = .ok t ∧
          name ∈ t.variableNames ∧ request.bindings.get? name = some (.int i) ∧
          intToFloat? i = none) := by
  intro c delivery
  have hr : c.registry.Reached := Registry.standard_reached.copy.freeze
  have hdelivery : delivery.outcome = _ := c.calculateRequest_none request
  cases hvalue : c.valueOf request (normalize request.expression request.international) with
  | ok value =>
    rw [hvalue] at hdelivery
    exact .inl ⟨_, hdelivery⟩
  | error failure =>
    rw [hvalue] at hdelivery
    cases failure with
    | diagnostic d => exact .inl ⟨_, hdelivery⟩
    | fault f =>
      obtain ⟨rfl, hvariable⟩ := fault_of_valueOf hr Registry.standard_tame hvalue
      exact .inr ⟨hdelivery, hvariable⟩

/-- A variable of ten to the four hundredth has no result. -/
theorem calculateRequest_integerTooLarge :
    ((Calculator.new {} Registry.standard).calculateRequest {
      expression := "x"
      bindings := [("x", .int (Int.ofNat (Nat.pow 10 400)))]
      nullPolicy := .nullAsZero
      international := false } none).outcome = .error (.fault .integerTooLarge) := by
  have hfault : (match (Calculator.new {} Registry.standard).valueOf {
      expression := "x"
      bindings := [("x", .int (Int.ofNat (Nat.pow 10 400)))]
      nullPolicy := .nullAsZero
      international := false } (normalize "x" false) with
    | .error f => f == .fault .integerTooLarge
    | .ok _ => false) = true := by
    decide +kernel
  rw [calculateRequest_none]
  split at hfault
  · next hvalue =>
    rw [hvalue, beq_iff_eq.1 hfault]
  · cases hfault

end Calculator

end Reckon
