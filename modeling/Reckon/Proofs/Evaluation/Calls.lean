/-
What reducers are given (`Grammar.evaluate_calls`): the values of the operands in
order, with the nulls as the policy has them, and never nothing. An operation of
a parsed tree has as many operands as it takes, so a reducer gets fewer numbers
only where nulls are dropped. What the reducers of arithmetic fail with when
they are given nothing (`Fault.ofNothing`) is therefore never seen.

That these are all calls that there are is told by what evaluation depends on:
reducers that agree on them give the same outcome (`numberOf_replaced`).
-/
import Reckon.Proofs.Evaluation.Escape
import Reckon.Proofs.Tree.Likeness

namespace Reckon

/-! ## Policies -/

/-- What a policy leaves of operands for a reducer: something, with the nulls dropped or zero, or
all there. -/
structure NullPolicy.Leaves (policy : NullPolicy) (operands : List (Option Float))
    (numbers : List Float) : Prop where
  ne_nil : numbers ≠ []
  dropped : policy = .dropNull → numbers = operands.filterMap id
  zeroed : policy = .nullAsZero → numbers = operands.map (Option.getD · 0.0)
  present : policy = .throwOnNull → operands = numbers.map some

namespace NullPolicy

variable {policy : NullPolicy} {operands : List (Option Float)} {numbers : List Float}

/-- Without nulls the numbers are the operands. -/
theorem map_some_filterMap (h : ∀ v ∈ operands, v.isSome = true) :
    (operands.filterMap id).map some = operands := by
  induction operands with
  | nil => rfl
  | cons v operands ih =>
    obtain ⟨hv, hrest⟩ := List.forall_mem_cons.1 h
    obtain ⟨x, rfl⟩ := Option.isSome_iff_exists.1 hv
    exact congrArg (some x :: ·) (ih hrest)

theorem leaves_of_admit (h : policy.admit operands = some numbers) :
    policy.Leaves operands numbers := by
  have hne := admit_ne_nil h
  unfold NullPolicy.admit at h
  obtain ⟨h, _⟩ := Option.filter_eq_some_iff.1 h
  cases policy with
  | dropNull =>
    obtain rfl := Option.some.inj h
    exact ⟨hne, fun _ => rfl, nofun, nofun⟩
  | nullAsZero =>
    obtain rfl := Option.some.inj h
    exact ⟨hne, nofun, fun _ => rfl, nofun⟩
  | throwOnNull =>
    dsimp only at h
    split at h
    · next hall =>
      obtain rfl := Option.some.inj h
      exact ⟨hne, nofun, nofun, fun _ => (map_some_filterMap (List.all_eq_true.1 hall)).symm⟩
    · cases h

/-- No number is missing but for a null that is dropped. -/
theorem Leaves.length_eq (h : policy.Leaves operands numbers) :
    numbers.length = operands.length ∨ policy = .dropNull ∧ none ∈ operands := by
  cases hpolicy : policy with
  | dropNull =>
    by_cases hnull : none ∈ operands
    · exact .inr ⟨rfl, hnull⟩
    · have hall : ∀ v ∈ operands, v.isSome = true := fun v hv =>
        Option.isSome_iff_ne_none.2 fun hnone => hnull (hnone ▸ hv)
      rw [h.dropped hpolicy, ← List.length_map, map_some_filterMap hall]
      exact .inl rfl
  | nullAsZero => simp [h.zeroed hpolicy]
  | throwOnNull => simp [h.present hpolicy]

end NullPolicy

/-! ## Calls -/

namespace Evaluator

variable {E : Evaluator} {t : Tree} {n : Node} {o : Operation} {numbers : List Float}

/-- The values that the children of a node have when evaluation gets to it, from left to right. -/
def Operands (E : Evaluator) (t : Tree) (n : Node) (operands : List (Option Float)) : Prop :=
  ∃ k before, t.nodes[k]? = some n ∧ E.pass #[] (t.nodes.toList.take k) = .ok before ∧
    n.children.map (before[·]?) = operands.map some

/-- A reducer is given what the policy leaves of the values of the children. -/
theorem Calls.exists_operands (ht : t.Made) (h : E.Calls t n o numbers) :
    ∃ operands, E.Operands t n operands ∧ operands.length = n.children.length ∧
      E.policy.Leaves operands numbers := by
  obtain ⟨k, before, hk, _, hbefore, hadmits⟩ := h
  have hsize : before.size = k := by
    rw [size_of_pass_take hbefore]
    exact Nat.min_eq_left (Nat.le_of_lt (Array.getElem?_eq_some_iff.1 hk).1)
  refine ⟨n.operands before, ⟨k, before, hk, hbefore, ?_⟩, List.length_map _,
    NullPolicy.leaves_of_admit hadmits⟩
  rw [Node.operands, List.map_map]
  refine List.map_congr_left fun child hchild => ?_
  have hlt : child < before.size := hsize ▸ ht.child_lt hk hchild
  simp [Array.getElem?_eq_getElem hlt]

end Evaluator

/-! ## Other reducers -/

/-- The operation with the reducer that a function gives it. -/
def Operation.withReducer (ρ : Operation → Reducer) (o : Operation) : Operation :=
  { o with reducer := ρ o }

/-- The tree with the reducers that a function gives its operations. -/
def Tree.withReducers (ρ : Operation → Reducer) (t : Tree) : Tree :=
  t.mapOperations (Operation.withReducer ρ)

namespace Evaluator

section Replaced

variable {E : Evaluator} {t : Tree} {ρ : Operation → Reducer}

theorem applyAt_replaced {o : Operation} {numbers : List Float}
    (h : ρ o numbers = o.reducer numbers) (position : Int) :
    E.applyAt position (o.withReducer ρ) numbers = E.applyAt position o numbers := by
  simp only [applyAt, Operation.apply, Operation.withReducer, h]

/-- A node has its value if the reducer makes the same of the call, if there is one. -/
theorem valueAt_replaced {n : Node} {results : Array (Option Float)}
    (h : ∀ o numbers, n.item = .operation o →
      E.policy.admit (n.operands results) = some numbers → ρ o numbers = o.reducer numbers) :
    E.valueAt results { n with item := n.item.mapOperation (Operation.withReducer ρ) } =
      E.valueAt results n := by
  cases hitem : n.item with
  | number x => rw [valueAt_number hitem, valueAt_number rfl]
  | var name => rw [valueAt_var hitem, valueAt_var rfl]
  | operation o =>
    rw [valueAt_operation hitem, valueAt_operation rfl]
    have hoperands (item : Item) : Node.operands { n with item } results = n.operands results := rfl
    rw [hoperands]
    cases hadmits : E.policy.admit (n.operands results) with
    | none => rfl
    | some numbers =>
      dsimp only
      rw [applyAt_replaced (h o numbers hitem hadmits)]

variable (h : ∀ n o numbers, E.Calls t n o numbers → ρ o numbers = o.reducer numbers)

include h

/-- The pass over the rest goes the same way, given the values of the nodes that are done. -/
theorem pass_replaced : ∀ (rest done : List Node) (before : Array (Option Float)),
    t.nodes.toList = done ++ rest → E.pass #[] done = .ok before →
      E.pass before (rest.map fun n =>
        { n with item := n.item.mapOperation (Operation.withReducer ρ) }) = E.pass before rest
  | [], _, _, _, _ => rfl
  | n :: rest, done, before, hnodes, hdone => by
    have hn : t.nodes[done.length]? = some n := by
      rw [← Array.getElem?_toList, hnodes, List.getElem?_append_right (Nat.le_refl _),
        Nat.sub_self, List.getElem?_cons_zero]
    have hbefore : E.pass #[] (t.nodes.toList.take done.length) = .ok before := by
      rw [hnodes, List.take_left, hdone]
    rw [List.map_cons, pass, pass, valueAt_replaced fun o numbers hitem hadmits =>
      h n o numbers ⟨_, before, hn, hitem, hbefore, hadmits⟩]
    cases hv : E.valueAt before n with
    | error f => rfl
    | ok v =>
      refine pass_replaced rest (done ++ [n]) (before.push v) (by simp [hnodes]) ?_
      rw [pass_append, hdone]
      exact pass_cons_eq_ok.2 ⟨v, hv, rfl⟩

/-- **Evaluation depends on reducers by its calls alone.** -/
theorem numberOf_replaced : E.numberOf (t.withReducers ρ) = E.numberOf t := by
  have hpass : E.pass #[] (t.withReducers ρ).nodes.toList = E.pass #[] t.nodes.toList := by
    rw [Tree.withReducers, Tree.mapOperations, Array.toList_map]
    exact pass_replaced h t.nodes.toList [] #[] rfl rfl
  have hroot : (t.withReducers ρ).rootNode? = t.rootNode?.map fun n =>
      { n with item := n.item.mapOperation (Operation.withReducer ρ) } := by
    simp [Tree.rootNode?, Tree.withReducers, Tree.mapOperations]
  rw [numberOf, numberOf, hpass, hroot, show (t.withReducers ρ).root = t.root from rfl]
  -- of the root only the position is told
  cases t.rootNode? <;> cases E.policy <;> rfl

end Replaced

end Evaluator

/-! ## Nothing to reduce -/

/-- What the reducers of arithmetic fail with when they are given nothing. An average of nothing
fails as its sum does, before anything is divided. -/
def Fault.ofNothing : List Fault := [
  ⟨.type, "reduce() of empty iterable with no initial value"⟩,
  .indexOutOfRange,
  ⟨.value, "min() arg is an empty sequence"⟩,
  ⟨.value, "max() arg is an empty sequence"⟩]

/-- Given nothing, the reducer fails. -/
def Reducer.NeedsOperand (f : Reducer) : Prop :=
  ∃ fault ∈ Fault.ofNothing, f [] = .error (.fault fault)

theorem Operation.negation_needsOperand : negation.reducer.NeedsOperand :=
  ⟨.indexOutOfRange, by decide, rfl⟩

/-- The operations of the standard registry fail without operands. -/
theorem Registry.standard_needsOperand :
    ∀ o ∈ standard.operations, o.reducer.NeedsOperand := by
  refine forall_reducer_registerAll (r := empty) (by simp [empty]) fun d hd f hf => ?_
  simp only [arithmeticOperators, arithmeticFunctions, List.cons_append, List.nil_append,
    List.mem_cons, List.not_mem_nil, or_false, if_true] at hd
  rcases hd with rfl | rfl | rfl | rfl | rfl | rfl | rfl | rfl | rfl | rfl <;>
    obtain rfl := Option.some.inj hf <;> exact ⟨_, by decide, rfl⟩

/-- The failure is the fault, or that of an operation for it. -/
inductive Failure.Reports (f : Fault) : Failure → Prop
  | fault : Reports f (.fault f)
  | operation {name position source} :
      Reports f (.diagnostic ⟨.operationFailed name f.message, position, source⟩)

theorem Fault.ofNothing_apart : ∀ f ∈ ofNothing, ∀ fault ∈ integerTooLarge :: arithmetic,
    fault.message ≠ f.message := by
  decide

namespace Evaluator

section Arithmetical

variable {E : Evaluator} {t : Tree} {n : Node} {f : Fault} {failure : Failure}
  (hreports : failure.Reports f)

include hreports

theorem reports_of_numberAt {position : Int} {d : Datum}
    (h : E.numberAt position d = .error failure) : f = .integerTooLarge := by
  rcases numberAt_eq_error h with rfl | ⟨rfl, _⟩
  · cases hreports
  · cases hreports
    rfl

theorem reports_of_variableAt {position : Int} {name : String}
    (h : E.variableAt position name = .error failure) : f = .integerTooLarge := by
  rcases variableAt_eq_error h with ⟨_, rfl⟩ | ⟨d, _, _, hnumber⟩
  · cases hreports
  · exact reports_of_numberAt hreports hnumber

/-- Where reducers are those of arithmetic a node reports its faults, or an integer beyond the
doubles. -/
theorem reports_of_valueAt {before : Array (Option Float)}
    (hoperations : ∀ o, n.item = .operation o → o.reducer.Arithmetical)
    (h : E.valueAt before n = .error failure) :
    ∃ fault ∈ Fault.integerTooLarge :: Fault.arithmetic, fault.message = f.message := by
  rcases valueAt_eq_error h with
    ⟨name, _, hvar⟩ | ⟨o, hitem, ⟨rfl, _⟩ | ⟨numbers, hadmits, happly⟩⟩
  · exact ⟨_, List.mem_cons_self, congrArg Fault.message (reports_of_variableAt hreports hvar).symm⟩
  · cases hreports
  · have hne := NullPolicy.admit_ne_nil hadmits
    have hreducer := hoperations o hitem
    obtain ⟨fault, hfault, rfl⟩ := applyAt_eq_error_of_tame hreducer.tame hne happly
    have hmem := (hreducer numbers hne).1.fault_mem hfault
    generalize hmessage : fault.message = message at hreports
    cases hreports
    exact ⟨fault, List.mem_cons_of_mem _ hmem, hmessage⟩

theorem reports_of_numberOf (ht : t.Made)
    (hoperations : ∀ n ∈ t.nodes.toList, ∀ o, n.item = .operation o → o.reducer.Arithmetical)
    (h : E.numberOf t = .error failure) :
    ∃ fault ∈ Fault.integerTooLarge :: Fault.arithmetic, fault.message = f.message := by
  rcases numberOf_eq_error ht h with ⟨k, n, before, hk, _, hvalue⟩ | ⟨n, _, _, _, _, rfl⟩
  · exact reports_of_valueAt hreports (hoperations n (Tree.mem_of_getElem? hk)) hvalue
  · cases hreports

end Arithmetical

end Evaluator

/-- **What reducers are given.** A reducer is called with what the policy leaves of the values of
the children: not with nothing, and with as many numbers as there are children, which the operation
takes, unless a null has been dropped. These are all the calls that there are: reducers that agree
on them make no difference. So in a tree over the standard registry no operation fails, and no
failure tells, as its reducer does when it is given nothing. -/
theorem Grammar.evaluate_calls {g : Grammar} (hr : g.registry.Reached) {tokens : List Token}
    {t : Tree} (h : g.parse tokens = .ok t) (E : Evaluator) :
    let e := { E with source := E.source.or t.source }
    (∀ n o numbers, e.Calls t n o numbers → ∃ operands, e.Operands t n operands ∧
      E.policy.Leaves operands numbers ∧
      (numbers.length = n.children.length ∧ o.accepts numbers.length = true ∨
        E.policy = .dropNull ∧ none ∈ operands)) ∧
    (∀ ρ : Operation → Reducer,
      (∀ n o numbers, e.Calls t n o numbers → ρ o numbers = o.reducer numbers) →
        (E.evaluate (t.withReducers ρ)).1 = (E.evaluate t).1) ∧
    (g.registry = .standard →
      (∀ n o numbers, e.Calls t n o numbers → o.reducer.NeedsOperand ∧
        ∀ f ∈ Fault.ofNothing, o.reducer numbers ≠ .error (.fault f)) ∧
      ∀ failure, (E.evaluate t).1 = .error failure →
        ∀ f ∈ Fault.ofNothing, ¬failure.Reports f) := by
  intro e
  have ht : t.Made := .parsed h
  refine ⟨fun n o numbers hcalls => ?_, fun ρ hρ => Evaluator.numberOf_replaced hρ,
    fun hstandard => ?_⟩
  · obtain ⟨operands, hoperands, hlength, hleaves⟩ := hcalls.exists_operands ht
    refine ⟨operands, hoperands, hleaves, hleaves.length_eq.imp_left fun heq => ?_⟩
    obtain ⟨k, _, hk, hitem, _, _⟩ := hcalls
    have haccepts := operation_of_parse (P := fun o count => o.accepts count = true) hr
      (fun _ _ _ haccepts => haccepts) rfl h n (Tree.mem_of_getElem? hk) o hitem
    rw [heq, hlength]
    exact ⟨rfl, haccepts⟩
  · have hoperations := operation_of_parse
      (P := fun o _ => o.reducer.Arithmetical ∧ o.reducer.NeedsOperand) hr
      (fun o ho _ _ => ⟨Registry.standard_arithmetical o (hstandard ▸ ho),
        Registry.standard_needsOperand o (hstandard ▸ ho)⟩)
      ⟨Operation.negation_arithmetical, Operation.negation_needsOperand⟩ h
    refine ⟨fun n o numbers hcalls => ?_, fun failure hfailure f hf hreports => ?_⟩
    · obtain ⟨k, _, hk, hitem, _, hadmits⟩ := hcalls
      obtain ⟨hreducer, hneeds⟩ := hoperations n (Tree.mem_of_getElem? hk) o hitem
      refine ⟨hneeds, fun f hf hfailed => ?_⟩
      have hmem := (hreducer numbers (NullPolicy.admit_ne_nil hadmits)).1.fault_mem hfailed
      exact Fault.ofNothing_apart f hf f (List.mem_cons_of_mem _ hmem) rfl
    · obtain ⟨fault, hfault, hmessage⟩ := Evaluator.reports_of_numberOf hreports ht
        (fun n hn o ho => (hoperations n hn o ho).1) hfailure
      exact Fault.ofNothing_apart f hf fault hfault hmessage

/-- A maximum takes two operands, and is that of one number where the other is a null. -/
theorem Grammar.evaluate_calls_maximum :
    let E : Evaluator := ⟨[("x", .null), ("y", .real 2)], .dropNull, some "MAX(x,-y)"⟩
    ∃ t n o, parseText "MAX(x,-y)" .standard .standard = .ok t ∧ E.Calls t n o [-2] ∧
      n.children.length = 2 ∧ o.reducer.NeedsOperand ∧
      ∃ operands, E.Operands t n operands ∧ none ∈ operands := by
  intro E
  obtain ⟨t, ht⟩ := exists_of_isOk
    (show (parseText "MAX(x,-y)" .standard .standard).isOk = true by decide +kernel)
  have hrun : (parseText "MAX(x,-y)" .standard .standard).toOption.any (fun t =>
      t.nodes[3]?.any fun n => (E.pass #[] (t.nodes.toList.take 3)).toOption.any fun before =>
        match n.item with
        | .operation _ => decide (n.children.length = 2 ∧
            E.policy.admit (n.operands before) = some [-2])
        | .number _ => false
        | .var _ => false) = true := by decide +kernel
  rw [ht, Except.toOption, Option.any_some, Option.any_eq_true] at hrun
  obtain ⟨n, hn, hrun⟩ := hrun
  cases hbefore : E.pass #[] (t.nodes.toList.take 3) with
  | error f =>
    rw [hbefore] at hrun
    cases hrun
  | ok before =>
    rw [hbefore, Except.toOption, Option.any_some] at hrun
    split at hrun
    · next o hitem =>
      obtain ⟨hlength, hadmits⟩ := of_decide_eq_true hrun
      have hcalls : E.Calls t n o [-2] := ⟨3, before, hn, hitem, hbefore, hadmits⟩
      obtain ⟨tokens, hparse⟩ := exists_parse_of_parseText ht
      obtain ⟨hgiven, _, hstandard⟩ := Grammar.evaluate_calls Registry.standard_reached hparse E
      obtain ⟨operands, hoperands, _, hcount⟩ := hgiven n o [-2] hcalls
      refine ⟨t, n, o, ht, hcalls, hlength, ((hstandard rfl).1 n o [-2] hcalls).1, operands,
        hoperands, ?_⟩
      rcases hcount with ⟨hsame, _⟩ | ⟨_, hnull⟩
      · rw [hlength] at hsame
        cases hsame
      · exact hnull
    · cases hrun
    · cases hrun

end Reckon
