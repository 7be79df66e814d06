/-
The variables of a tree are what its evaluation depends on, and it needs all of
them (`Tree.Made.evaluate_variables`). The names are collected from the whole
table, and the pass over the table looks up every one: no operand is skipped,
whatever the others are and whatever the policy does with it. So a variable
without a value leaves no number, and unless something else has failed before
it the error names it.
-/
import Reckon.Proofs.Evaluation.Escape
import Reckon.Proofs.Tree.Depth

namespace Reckon

namespace Evaluator

variable {E : Evaluator} {t : Tree} {n : Node} {o : Operation} {numbers : List Float}
  {d : Diagnostic} {position : Int}

/-! ## Values -/

/-- A variable that has a value is bound. -/
theorem bound_of_valueAt {before : Array (Option Float)} {name : String} {v : Option Float}
    (hitem : n.item = .var name) (h : E.valueAt before n = .ok v) :
    E.bindings.get? name ≠ none := by
  intro hnone
  rw [valueAt_var hitem, variableAt, hnone] at h
  cases h

/-- Where there is a number, the pass over the table has been through. -/
theorem pass_of_numberOf {x : Float} (h : E.numberOf t = .ok x) :
    ∃ results, E.pass #[] t.nodes.toList = .ok results := by
  rw [numberOf, bind_eq_ok] at h
  obtain ⟨results, hpass, _⟩ := h
  exact ⟨results, hpass⟩

/-- Where there is a number, all variables are bound. -/
theorem bound_of_numberOf {x : Float} (h : E.numberOf t = .ok x) {name : String}
    (hname : name ∈ t.variableNames) : E.bindings.get? name ≠ none := by
  obtain ⟨results, hpass⟩ := pass_of_numberOf h
  obtain ⟨n, hn, hitem⟩ := Tree.mem_variableNames.1 hname
  obtain ⟨k, hk⟩ := List.getElem?_of_mem hn
  obtain ⟨before, v, _, hvalue, _⟩ := valueAt_of_pass hpass hk
  exact bound_of_valueAt hitem hvalue

/-! ## Errors -/

theorem kind_of_numberAt {value : Datum}
    (h : E.numberAt position value = .error (.diagnostic d)) : d.kind = .type := by
  rcases numberAt_eq_error h with hd | ⟨hfault, _⟩
  · obtain rfl := Failure.diagnostic.inj hd
    rfl
  · cases hfault

/-- What an operation is told to fail with has been raised by its reducer, or is about its failure
or the type of its result. -/
theorem kind_of_applyAt (h : E.applyAt position o numbers = .error (.diagnostic d)) :
    o.reducer numbers = .error (.diagnostic d) ∨ d.kind = .operation ∨ d.kind = .type := by
  cases hreducer : o.reducer numbers with
  | ok value =>
    rw [applyAt, Operation.apply, hreducer] at h
    exact .inr (.inr (kind_of_numberAt h))
  | error raised =>
    by_cases hoperational : raised.IsOperational
    · cases raised with
      | diagnostic => exact hoperational.elim
      | fault fault =>
        rw [applyAt_of_operational hreducer hoperational] at h
        obtain rfl := Failure.diagnostic.inj (Except.error.inj h)
        exact .inr (.inl rfl)
    · rw [applyAt_of_raised hreducer hoperational] at h
      exact .inl (by rw [Except.error.inj h])

/-- The diagnostic tells that a variable of the node has no value. -/
def TellsUnresolved (E : Evaluator) (n : Node) (d : Diagnostic) : Prop :=
  ∃ name, n.item = .var name ∧ E.bindings.get? name = none ∧
    d.cause = .unresolvedVariable name ∧ d.position = some n.position

theorem tellsUnresolved_of_variableAt {name : String} (hitem : n.item = .var name)
    (h : E.variableAt n.position name = .error (.diagnostic d))
    (hkind : d.kind = .unresolvedVariable) : E.TellsUnresolved n d := by
  rcases variableAt_eq_error h with ⟨hnone, hd⟩ | ⟨value, _, _, hnumber⟩
  · obtain rfl := Failure.diagnostic.inj hd
    exact ⟨name, hitem, hnone, rfl, rfl⟩
  · rw [kind_of_numberAt hnumber] at hkind
    cases hkind

section Reducers

variable (hreducers : ∀ n ∈ t.nodes.toList, ∀ o, n.item = .operation o → ∀ numbers d,
  numbers ≠ [] → o.reducer numbers = .error (.diagnostic d) → d.kind ≠ .unresolvedVariable)

include hreducers

theorem tellsUnresolved_of_valueAt (hn : n ∈ t.nodes.toList) {before : Array (Option Float)}
    (h : E.valueAt before n = .error (.diagnostic d)) (hkind : d.kind = .unresolvedVariable) :
    E.TellsUnresolved n d := by
  rcases valueAt_eq_error h with
    ⟨name, hitem, hvar⟩ | ⟨o, hitem, ⟨hd, _⟩ | ⟨numbers, hadmits, happly⟩⟩
  · exact tellsUnresolved_of_variableAt hitem hvar hkind
  -- an operation tells of operands, of its failure, or of its result
  · obtain rfl := Failure.diagnostic.inj hd
    cases hkind
  · rcases kind_of_applyAt happly with hraised | hother
    · exact absurd hkind
        (hreducers n hn o hitem numbers d (NullPolicy.admit_ne_nil hadmits) hraised)
    · simp [hkind] at hother

theorem tellsUnresolved_of_numberOf (ht : t.Made)
    (h : E.numberOf t = .error (.diagnostic d)) (hkind : d.kind = .unresolvedVariable) :
    ∃ n ∈ t.nodes.toList, E.TellsUnresolved n d := by
  rcases numberOf_eq_error ht h with ⟨k, n, before, hk, _, hvalue⟩ | ⟨_, _, _, _, _, hd⟩
  · have hn := Tree.mem_of_getElem? hk
    exact ⟨n, hn, tellsUnresolved_of_valueAt hreducers hn hvalue hkind⟩
  · obtain rfl := Failure.diagnostic.inj hd
    cases hkind

end Reducers

end Evaluator

/-! ## Trees -/

/-- Variables are leaves. -/
theorem Tree.Made.isLeaf_of_var {t : Tree} (ht : t.Made) {n : Node} (hn : n ∈ t.nodes.toList)
    {name : String} (hitem : n.item = .var name) : n.isLeaf = true := by
  obtain ⟨b, root, source, hb, hbuild⟩ := ht.exists_build
  obtain ⟨i, hi⟩ := List.getElem?_of_mem hn
  rw [Array.getElem?_toList] at hi
  have htakes := (hb.rooted hbuild).takes i n hi
  rw [hitem] at htakes
  rw [Node.isLeaf, List.isEmpty_iff]
  exact List.eq_nil_of_length_eq_zero htakes

/-- **Evaluation depends on the variables of a tree, and needs them all.** Under every policy it has
the same outcome for bindings that agree on them; without a value for one of them it gives no
number. Unless a reducer says so on its own account, an error that a variable is unresolved names
one of them that has no value, at a leaf that stands for it. -/
theorem Tree.Made.evaluate_variables {t : Tree} (ht : t.Made) (policy : NullPolicy) :
    (∀ bindings bindings' : Bindings,
      (∀ name ∈ t.variableNames, bindings'.get? name = bindings.get? name) →
        t.evaluate bindings' policy = t.evaluate bindings policy) ∧
    (∀ bindings : Bindings, ∀ name ∈ t.variableNames, bindings.get? name = none →
      ∃ f, t.evaluate bindings policy = .error f) ∧
    ((∀ n ∈ t.nodes.toList, ∀ o, n.item = .operation o → ∀ numbers d,
        numbers ≠ [] → o.reducer numbers = .error (.diagnostic d) → d.kind ≠ .unresolvedVariable) →
      ∀ (bindings : Bindings) d, t.evaluate bindings policy = .error (.diagnostic d) →
        d.kind = .unresolvedVariable →
        ∃ name ∈ t.variableNames, bindings.get? name = none ∧ d.cause = .unresolvedVariable name ∧
          ∃ n ∈ t.nodes.toList, n.isLeaf = true ∧ n.item = .var name ∧
            d.position = some n.position) := by
  refine ⟨fun _ _ h => evaluate_congr h policy, fun bindings name hname hnone => ?_,
    fun hreducers bindings d h hkind => ?_⟩
  · cases h : t.evaluate bindings policy with
    | error f => exact ⟨f, rfl⟩
    | ok x =>
      rw [evaluate_eq] at h
      exact absurd hnone (Evaluator.bound_of_numberOf h hname)
  · rw [evaluate_eq] at h
    obtain ⟨n, hn, name, hitem, hnone, hcause, hposition⟩ :=
      Evaluator.tellsUnresolved_of_numberOf hreducers ht h hkind
    exact ⟨name, mem_variableNames.2 ⟨n, hn, hitem⟩, hnone, hcause, n, hn,
      ht.isLeaf_of_var hn hitem, hitem, hposition⟩

/-- The rate is needed although it is multiplied by zero, and a variable that the tree does not have
changes nothing. -/
theorem Tree.evaluate_variables_product :
    ∃ t d, parseText "0*rate+x" .standard .standard = .ok t ∧ t.variableNames = ["rate", "x"] ∧
      t.evaluate [("y", .null), ("x", .real 1), ("rate", .real 2)] .dropNull =
        t.evaluate [("rate", .real 2), ("x", .real 1)] .dropNull ∧
      t.evaluate [("x", .real 1)] .dropNull = .error (.diagnostic d) ∧
      d.cause = .unresolvedVariable "rate" ∧
      ∃ n ∈ t.nodes.toList, n.isLeaf = true ∧ n.item = .var "rate" ∧
        d.position = some n.position := by
  have hrun : (match parseText "0*rate+x" .standard .standard with
      | .ok t => t.variableNames == ["rate", "x"] &&
        match t.evaluate [("x", .real 1)] .dropNull with
        | .error (.diagnostic d) => d.cause == .unresolvedVariable "rate"
        | _ => false
      | .error _ => false) = true := by decide +kernel
  split at hrun
  · next t ht =>
    obtain ⟨hnames, hd⟩ := Bool.and_eq_true_iff.1 hrun
    rw [beq_iff_eq] at hnames
    split at hd
    · next d hfailed =>
      have hcause := beq_iff_eq.1 hd
      obtain ⟨tokens, hparse⟩ := exists_parse_of_parseText ht
      have hoperations := Grammar.operation_of_parse (P := fun o _ => o.reducer.Arithmetical)
        Registry.standard_reached (fun o ho _ _ => Registry.standard_arithmetical o ho)
        Operation.negation_arithmetical hparse
      obtain ⟨hagree, _, hunresolved⟩ :=
        (Tree.made_of_parseText ht).evaluate_variables .dropNull
      obtain ⟨name, _, _, hname, hleaf⟩ := hunresolved
        (fun n hn o ho _ _ hne hraised =>
          absurd hraised ((hoperations n hn o ho).ne_diagnostic hne))
        _ d hfailed (by rw [Diagnostic.kind, hcause]; rfl)
      obtain rfl := Cause.unresolvedVariable.inj (hcause.symm.trans hname)
      refine ⟨t, d, ht, hnames, hagree _ _ fun name hname => ?_, hfailed, hcause, hleaf⟩
      rw [hnames, List.mem_pair] at hname
      rcases hname with rfl | rfl <;> rfl
    · cases hd
  · cases hrun

end Reckon
