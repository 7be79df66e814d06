/-
What comes out of an evaluation that fails, whatever the reducers do
(`Tree.Made.evaluate_escapes`). A reducer may return a value of any kind and fail
in any way; but a value that is no number is refused at its node, and a fault of
arithmetic or of a value is told as the failure of the operation. What escapes
as it is has been raised by a reducer, or is an integer that no double is near.

An evaluation fails at one node (`Evaluator.pass_eq_error`), so failures are
classified node by node; and a node that fails once evaluation gets to it fails
the whole (`Evaluator.Calls.evaluate_error`).
-/
import Reckon.Proofs.Evaluation.Calculation
import Reckon.Proofs.Evaluation.Refinement

namespace Reckon

/-- Integers and reals are numbers, and nothing else is. -/
def Datum.IsNumber : Datum → Prop
  | .int _ | .real _ => True
  | _ => False

/-- The failure is a fault of arithmetic or of a value. -/
def Failure.IsOperational : Failure → Prop
  | .fault f => f.isOperational = true
  | .diagnostic _ => False

namespace Evaluator

/-- The reducer of a node is called with these numbers: evaluation gets to the node, and they are
what the policy makes of its operands. -/
def Calls (E : Evaluator) (t : Tree) (n : Node) (o : Operation) (numbers : List Float) : Prop :=
  ∃ k before, t.nodes[k]? = some n ∧ n.item = .operation o ∧
    E.pass #[] (t.nodes.toList.take k) = .ok before ∧
    E.policy.admit (n.operands before) = some numbers

/-- The failures that evaluation can end with. -/
inductive Escapes (E : Evaluator) (t : Tree) : Failure → Prop
  /-- An error of the evaluator itself, told at a node. -/
  | told {n d} : n ∈ t.nodes.toList →
      d.kind ∈ [DiagnosticKind.unresolvedVariable, .nullValue, .operation, .type] →
      d.position = some n.position → d.source = E.source → Escapes E t (.diagnostic d)
  /-- Something else that a reducer has raised. -/
  | raised {n o numbers f} : E.Calls t n o numbers → o.reducer numbers = .error f →
      ¬ f.IsOperational → Escapes E t f
  /-- An integer variable beyond the doubles. -/
  | variableTooLarge {n name i} : n ∈ t.nodes.toList → n.item = .var name →
      E.bindings.get? name = some (.int i) → intToFloat? i = none →
      Escapes E t (.fault .integerTooLarge)
  /-- An integer beyond the doubles that a reducer has made. -/
  | resultTooLarge {n o numbers i} : E.Calls t n o numbers → o.reducer numbers = .ok (.int i) →
      intToFloat? i = none → Escapes E t (.fault .integerTooLarge)

variable {E : Evaluator} {t : Tree} {n : Node} {o : Operation} {numbers : List Float} {f : Failure}

/-! ## Failures of nodes -/

theorem numberAt_of_not_isNumber {d : Datum} (h : ¬ d.IsNumber) (position : Int) :
    E.numberAt position d = .error (E.failureAt position (.notNumeric "number" d.kindName)) := by
  cases d with
  | int | real => exact absurd trivial h
  | null | bool | text | list | record | foreign => rfl

/-- A number is converted, or it is an integer beyond the doubles. -/
theorem numberAt_of_isNumber {d : Datum} (h : d.IsNumber) (position : Int) :
    (∃ x, E.numberAt position d = .ok x) ∨
      E.numberAt position d = .error (.fault .integerTooLarge) := by
  cases d with
  | int i =>
    rw [numberAt]
    split
    · exact .inl ⟨_, rfl⟩
    · exact .inr rfl
  | real x => exact .inl ⟨x, rfl⟩
  | null | bool | text | list | record | foreign => exact h.elim

/-- A value that is not converted is no number, or it is an integer beyond the doubles. -/
theorem numberAt_eq_error {position : Int} {d : Datum} (h : E.numberAt position d = .error f) :
    f = E.failureAt position (.notNumeric "number" d.kindName) ∨
      f = .fault .integerTooLarge ∧ ∃ i, d = .int i ∧ intToFloat? i = none := by
  by_cases hnumber : d.IsNumber
  · rcases numberAt_of_isNumber (E := E) hnumber position with ⟨x, hx⟩ | hlarge
    · rw [hx] at h
      cases h
    · obtain rfl := Except.error.inj (hlarge.symm.trans h)
      exact .inr ⟨rfl, (fault_of_numberAt hlarge).2⟩
  · rw [numberAt_of_not_isNumber hnumber] at h
    exact .inl (Except.error.inj h).symm

theorem Escapes.failureAt (hn : n ∈ t.nodes.toList) {cause : Cause}
    (hkind : cause.kind ∈ [DiagnosticKind.unresolvedVariable, .nullValue, .operation, .type]) :
    E.Escapes t (E.failureAt n.position cause) :=
  .told hn hkind rfl rfl

theorem escapes_of_variableAt (hn : n ∈ t.nodes.toList) {name : String} (hitem : n.item = .var name)
    (h : E.variableAt n.position name = .error f) : E.Escapes t f := by
  rcases variableAt_eq_error h with ⟨_, rfl⟩ | ⟨d, hd, _, hnumber⟩
  · exact .failureAt hn (by simp [Cause.kind])
  · rcases numberAt_eq_error hnumber with rfl | ⟨rfl, i, rfl, hlarge⟩
    · exact .failureAt hn (by simp [Cause.kind])
    · exact .variableTooLarge hn hitem hd hlarge

theorem applyAt_of_operational {fault : Fault}
    (hreducer : o.reducer numbers = .error (.fault fault))
    (hoperational : fault.isOperational = true) (position : Int) :
    E.applyAt position o numbers =
      .error (E.failureAt position (.operationFailed o.name fault.message)) := by
  rw [applyAt, Operation.apply, hreducer]
  exact if_pos hoperational

theorem applyAt_of_raised (hreducer : o.reducer numbers = .error f) (h : ¬ f.IsOperational)
    (position : Int) : E.applyAt position o numbers = .error f := by
  rw [applyAt, Operation.apply, hreducer]
  cases f with
  | diagnostic => rfl
  | fault fault => exact if_neg h

theorem escapes_of_applyAt (hn : n ∈ t.nodes.toList) (hcalls : E.Calls t n o numbers)
    (h : E.applyAt n.position o numbers = .error f) : E.Escapes t f := by
  cases hreducer : o.reducer numbers with
  | ok d =>
    rw [applyAt, Operation.apply, hreducer] at h
    rcases numberAt_eq_error h with rfl | ⟨rfl, i, rfl, hlarge⟩
    · exact .failureAt hn (by simp [Cause.kind])
    · exact .resultTooLarge hcalls hreducer hlarge
  | error raised =>
    by_cases hoperational : raised.IsOperational
    · cases raised with
      | diagnostic => exact hoperational.elim
      | fault fault =>
        rw [applyAt_of_operational hreducer hoperational] at h
        obtain rfl := Except.error.inj h
        exact .failureAt hn (by simp [Cause.kind])
    · rw [applyAt_of_raised hreducer hoperational] at h
      obtain rfl := Except.error.inj h
      exact .raised hcalls hreducer hoperational

/-- The failure of the node that evaluation gets to. -/
theorem escapes_of_valueAt {k : Nat} {before : Array (Option Float)} (hk : t.nodes[k]? = some n)
    (hbefore : E.pass #[] (t.nodes.toList.take k) = .ok before)
    (h : E.valueAt before n = .error f) : E.Escapes t f := by
  have hn := Tree.mem_of_getElem? hk
  rcases valueAt_eq_error h with
    ⟨name, hitem, hvar⟩ | ⟨o, hitem, ⟨rfl, _⟩ | ⟨numbers, hadmits, happly⟩⟩
  · exact escapes_of_variableAt hn hitem hvar
  · exact .failureAt hn (by simp [Cause.kind])
  · exact escapes_of_applyAt hn ⟨k, before, hk, hitem, hbefore, hadmits⟩ happly

/-! ## Failures of the whole -/

theorem escapes_of_numberOf (ht : t.Made) (h : E.numberOf t = .error f) : E.Escapes t f := by
  rcases numberOf_eq_error ht h with ⟨k, n, before, hk, hbefore, hvalue⟩ | ⟨n, _, hn, _, _, rfl⟩
  · exact escapes_of_valueAt hk hbefore hvalue
  · exact .failureAt (Tree.mem_of_getElem? hn) (by simp [Cause.kind])

/-- Where a call fails evaluation fails. -/
theorem Calls.evaluate_error (hcalls : E.Calls t n o numbers)
    (h : E.applyAt n.position o numbers = .error f) : E.numberOf t = .error f := by
  obtain ⟨k, before, hk, hitem, hbefore, hadmits⟩ := hcalls
  have hvalue : E.valueAt before n = .error f := by
    rw [valueAt_operation hitem, hadmits]
    simp only [h, Except.map]
  have hsplit : t.nodes.toList = t.nodes.toList.take k ++ n :: t.nodes.toList.drop (k + 1) := by
    rw [← Array.getElem?_toList] at hk
    obtain ⟨hlt, rfl⟩ := List.getElem?_eq_some_iff.1 hk
    rw [← List.drop_eq_getElem_cons hlt, List.take_append_drop]
  refine numberOf_of_pass_error ?_
  rw [hsplit, pass_append, hbefore]
  show E.pass before (n :: _) = .error f
  rw [pass, hvalue]
  rfl

end Evaluator

/-- **What escapes from evaluation.** It is an error that the evaluator tells at a node, or a
failure that a reducer has raised and that is none of arithmetic or of a value, or an integer beyond
the doubles. A fault of arithmetic or of a value becomes the failure of its operation, and a result
that is no number an error of its type. -/
theorem Tree.Made.evaluate_escapes {t : Tree} (ht : t.Made) (E : Evaluator) :
    let e := { E with source := E.source.or t.source }
    (∀ f, (E.evaluate t).1 = .error f → e.Escapes t f) ∧
    ∀ n o numbers, e.Calls t n o numbers →
      (∀ fault, o.reducer numbers = .error (.fault fault) → fault.isOperational = true →
        (E.evaluate t).1 = .error (.diagnostic
          ⟨.operationFailed o.name fault.message, some n.position, e.source⟩)) ∧
      (∀ d, o.reducer numbers = .ok d → ¬ d.IsNumber →
        (E.evaluate t).1 = .error (.diagnostic
          ⟨.notNumeric "number" d.kindName, some n.position, e.source⟩)) := by
  intro e
  refine ⟨fun f h => Evaluator.escapes_of_numberOf ht h, fun n o numbers hcalls => ⟨?_, ?_⟩⟩
  · intro fault hreducer hoperational
    exact hcalls.evaluate_error (Evaluator.applyAt_of_operational hreducer hoperational _)
  · intro d hreducer hnumber
    refine hcalls.evaluate_error ?_
    rw [Evaluator.applyAt, Operation.apply, hreducer]
    exact Evaluator.numberAt_of_not_isNumber hnumber _

/-- Over a number the reducer of any operation is called. -/
theorem Tree.exists_calls (o : Operation) (h : o.accepts 1 = true) (x : Float) (position : Int) :
    ∃ (t : Tree) (n : Node), t.Made ∧ n.position = position ∧
      ∀ E : Evaluator, E.Calls t n o [x] := by
  have haccepted : (Expr.apply o [.number x position] position).Accepted := ⟨⟨trivial, trivial⟩, h⟩
  obtain ⟨t, ht⟩ := Tree.exists_ofExpr haccepted none
  obtain ⟨b, root, hb, hbuild⟩ := Tree.ofExpr_built ht
  have hcells : t.nodes.toList.map Node.cell =
      [⟨.number x, [], position⟩, ⟨.operation o, [0], position⟩] :=
    (Tree.ofExpr_eq_ok ht).1
  obtain ⟨leaf, rest, hnodes, hleaf, hrest⟩ := List.map_eq_cons_iff.1 hcells
  obtain ⟨n, rfl, hn⟩ := List.map_eq_singleton_iff.1 hrest
  simp only [Node.cell, Cell.mk.injEq] at hleaf hn
  refine ⟨t, n, .built hb hbuild, hn.2.2, fun E => ⟨1, #[some x], ?_, hn.1, ?_, ?_⟩⟩
  · rw [← Array.getElem?_toList, hnodes]
    rfl
  · rw [hnodes]
    show E.pass #[] [leaf] = _
    rw [Evaluator.pass, Evaluator.valueAt_number hleaf.1]
    rfl
  · rw [Node.operands, hn.2.1]
    cases E.policy <;> rfl

/-- A sum that overflows, and one that is true. -/
theorem Tree.evaluate_escapes_sum :
    (∃ t : Tree, (Evaluator.evaluate ⟨[], .throwOnNull, some "SUM(1)"⟩ t).1 =
      .error (.diagnostic ⟨.operationFailed "SUM" "too much", some 0, some "SUM(1)"⟩)) ∧
    (∃ t : Tree, (Evaluator.evaluate ⟨[], .throwOnNull, some "SUM(1)"⟩ t).1 =
      .error (.diagnostic ⟨.notNumeric "number" "boolean", some 0, some "SUM(1)"⟩)) := by
  constructor
  · obtain ⟨t, n, ht, hposition, hcalls⟩ := Tree.exists_calls
      ⟨"SUM", true, fun _ => .error (.fault ⟨.overflow, "too much"⟩), 0, 1, none⟩ rfl 1.0 0
    have hescapes := (ht.evaluate_escapes ⟨[], .throwOnNull, some "SUM(1)"⟩).2 n _ _ (hcalls _)
    have h := hescapes.1 _ rfl rfl
    exact ⟨t, hposition ▸ h⟩
  · obtain ⟨t, n, ht, hposition, hcalls⟩ := Tree.exists_calls
      ⟨"SUM", true, fun _ => .ok (.bool true), 0, 1, none⟩ rfl 1.0 0
    have hescapes := (ht.evaluate_escapes ⟨[], .throwOnNull, some "SUM(1)"⟩).2 n _ _ (hcalls _)
    have h := hescapes.2 _ rfl id
    exact ⟨t, hposition ▸ h⟩

end Reckon
