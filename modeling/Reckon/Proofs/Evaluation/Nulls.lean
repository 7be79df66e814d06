/-
Where nulls make evaluation fail, and how far they get. Of the values in a pass
only those of null variables are null: an operation has a number or it fails
(`Evaluator.null_of_pass`). So a null reaches the operation that consumes it and
no other one, and the nodes that a policy refuses can be told from the tree and
the bindings alone (`Tree.NullFails`).

At such a node evaluation stops at the latest. It stops before only at an
operation that fails for itself, or at an earlier node of this kind.
-/
import Reckon.Proofs.Evaluation.Pass

namespace Reckon

/-! ## What the policies refuse -/

/-- Operands that a policy refuses: one of them is null, or all of them. -/
def NullPolicy.Refuses (operands : List (Option Float)) : NullPolicy → Prop
  | .nullAsZero => False
  | .throwOnNull => ∃ v ∈ operands, v = none
  | .dropNull => ∀ v ∈ operands, v = none

theorem NullPolicy.admit_eq_none_iff {policy : NullPolicy} {operands : List (Option Float)}
    (hne : operands ≠ []) : policy.admit operands = none ↔ policy.Refuses operands := by
  unfold NullPolicy.admit
  cases policy with
  | nullAsZero => simp [Refuses, hne]
  | dropNull => simp [Refuses]
  | throwOnNull =>
    by_cases hall : operands.all Option.isSome = true
    · -- no operand is null, so one of them is left
      obtain ⟨v, rest, rfl⟩ := List.exists_cons_of_ne_nil hne
      have hsome : ∀ w ∈ v :: rest, w ≠ none := by
        simpa [Option.isSome_iff_ne_none] using hall
      obtain ⟨x, rfl⟩ := Option.ne_none_iff_exists'.1 (hsome v List.mem_cons_self)
      have hrefuses : ¬ NullPolicy.throwOnNull.Refuses (some x :: rest) :=
        fun ⟨w, hw, hnone⟩ => hsome w hw hnone
      simp [hall, hrefuses]
    · have hrefuses : NullPolicy.throwOnNull.Refuses operands := by
        simpa [Refuses] using hall
      simp [hall, hrefuses]

namespace Tree

/-- The node at an index is a variable that is null. -/
def NullAt (t : Tree) (b : Bindings) (index : Nat) : Prop :=
  ∃ n name, t.nodes[index]? = some n ∧ n.item = .var name ∧ b.get? name = some .null

/-- The node has operands that a policy refuses: a null variable is among them, or they are null
variables all. -/
def Starves (t : Tree) (b : Bindings) (n : Node) : NullPolicy → Prop
  | .nullAsZero => False
  | .throwOnNull => ∃ child ∈ n.children, t.NullAt b child
  | .dropNull => ∀ child ∈ n.children, t.NullAt b child

/-- The nodes at which a policy makes evaluation fail: operations whose operands it refuses, and a
root that is null. -/
inductive NullFails (t : Tree) (b : Bindings) (policy : NullPolicy) : Nat → Prop
  | operation {k n o} : t.nodes[k]? = some n → n.item = .operation o → t.Starves b n policy →
      NullFails t b policy k
  | root : policy ≠ .nullAsZero → t.NullAt b t.root → NullFails t b policy t.root

/-- The diagnostic tells of a null at the node of an index, among the operands of its operation or
in the place of a number. -/
def TellsNull (t : Tree) (index : Nat) (d : Diagnostic) : Prop :=
  ∃ n, t.nodes[index]? = some n ∧
    d.cause = .nullOperand (match n.item with
      | .operation o => some o.name
      | _ => none) ∧
    d.position = some n.position ∧ d.source = t.source

/-- The diagnostic tells that the operation at an index has failed for itself. -/
def FailedAt (t : Tree) (index : Nat) (d : Diagnostic) : Prop :=
  ∃ n o reason, t.nodes[index]? = some n ∧ n.item = .operation o ∧
    d = ⟨.operationFailed o.name reason, some n.position, t.source⟩

/-- Evaluation may stop at an index and tell this: of a null where nulls make it fail, and elsewhere
that an operation has failed. -/
def StopsAt (t : Tree) (b : Bindings) (policy : NullPolicy) (index : Nat) (d : Diagnostic) : Prop :=
  t.NullFails b policy index ∧ t.TellsNull index d ∨
    ¬ t.NullFails b policy index ∧ t.FailedAt index d

/-- Trees and bindings that leave evaluation few ways to fail: operations have operands and tame
reducers, and variables are null or real. -/
structure Plain (t : Tree) (b : Bindings) : Prop where
  made : t.Made
  operations : ∀ n ∈ t.nodes.toList, ∀ o, n.item = .operation o →
    o.reducer.Tame ∧ n.children ≠ []
  bound : ∀ name ∈ t.variableNames,
    b.get? name = some .null ∨ ∃ x, b.get? name = some (.real x)

theorem nullAt_iff {t : Tree} {b : Bindings} {k : Nat} {n : Node} (hn : t.nodes[k]? = some n) :
    t.NullAt b k ↔ ∃ name, n.item = .var name ∧ b.get? name = some .null := by
  constructor
  · rintro ⟨m, name, hm, hname⟩
    obtain rfl := Option.some.inj (hm.symm.trans hn)
    exact ⟨name, hname⟩
  · rintro ⟨name, hname⟩
    exact ⟨n, name, hn, hname⟩

theorem nullFails_iff {t : Tree} {b : Bindings} {policy : NullPolicy} {k : Nat} {n : Node}
    {o : Operation} (hn : t.nodes[k]? = some n) (hitem : n.item = .operation o) :
    t.NullFails b policy k ↔ t.Starves b n policy := by
  refine ⟨fun h => ?_, .operation hn hitem⟩
  cases h with
  | operation hm _ hstarves =>
    obtain rfl := Option.some.inj (hm.symm.trans hn)
    exact hstarves
  | root _ hnull =>
    obtain ⟨name, hname, _⟩ := (nullAt_iff hn).1 hnull
    rw [hitem] at hname
    cases hname

theorem not_nullFails_nullAsZero {t : Tree} {b : Bindings} {k : Nat} :
    ¬ t.NullFails b .nullAsZero k := by
  intro h
  cases h with
  | operation _ _ hstarves => exact hstarves
  | root hne _ => exact hne rfl

end Tree

namespace Evaluator

variable {E : Evaluator} {t : Tree} (ht : t.Plain E.bindings)
  {k : Nat} {n : Node} (hn : t.nodes[k]? = some n) {before : Array (Option Float)}

/-! ## Values of nodes -/

include ht hn

omit ht hn in
/-- **In a pass null variables are null, and nothing else.** -/
theorem null_of_pass {count : Nat} {results : Array (Option Float)}
    (h : E.pass #[] (t.nodes.toList.take count) = .ok results) {i : Nat} (hi : i < results.size) :
    (results[i]?).join = none ↔ t.NullAt E.bindings i := by
  have hsize := size_of_pass_take h
  have hn : t.nodes[i]? = some t.nodes[i] := Array.getElem?_eq_getElem (by omega)
  obtain ⟨before, v, _, hv, hresult⟩ := valueAt_of_pass_take h hn (by omega)
  rw [hresult, Tree.nullAt_iff hn]
  exact none_of_valueAt hv

section Operation

variable (hpass : E.pass #[] (t.nodes.toList.take k) = .ok before)

include hpass

/-- What a policy refuses at a node is told by the variables among its children. -/
theorem refuses_iff_starves (policy : NullPolicy) :
    policy.Refuses (n.operands before) ↔ t.Starves E.bindings n policy := by
  have hsize := size_of_pass_take hpass
  have hk := (Array.getElem?_eq_some_iff.1 hn).1
  have hchild : ∀ child ∈ n.children,
      ((before[child]?).join = none ↔ t.NullAt E.bindings child) := by
    intro child hmem
    have hlt := ht.made.child_lt hn hmem
    exact null_of_pass hpass (by omega)
  cases policy with
  | nullAsZero => exact Iff.rfl
  | throwOnNull =>
    simp only [NullPolicy.Refuses, Tree.Starves, Node.operands, List.mem_map,
      exists_exists_and_eq_and]
    exact exists_congr fun child => and_congr_right (hchild child)
  | dropNull =>
    simp only [NullPolicy.Refuses, Tree.Starves, Node.operands, List.forall_mem_map]
    exact forall₂_congr hchild

/-- An operation has no value where its operands are refused. -/
theorem valueAt_of_starves {o : Operation} (hitem : n.item = .operation o)
    (h : t.Starves E.bindings n E.policy) :
    E.valueAt before n = .error (E.failureAt n.position (.nullOperand (some o.name))) := by
  have hne : n.operands before ≠ [] := by
    simpa [Node.operands] using (ht.operations n (Tree.mem_of_getElem? hn) o hitem).2
  have hrefuses := (refuses_iff_starves ht hn hpass E.policy).2 h
  rw [valueAt_operation hitem, (NullPolicy.admit_eq_none_iff hne).2 hrefuses]

/-- Only operations fail: their operands are refused, or they fail for themselves. -/
theorem stopsAt_of_valueAt (hsource : E.source = t.source) {f : Failure}
    (h : E.valueAt before n = .error f) :
    ∃ d, f = .diagnostic d ∧ t.StopsAt E.bindings E.policy k d := by
  have hmem := Tree.mem_of_getElem? hn
  rcases valueAt_eq_error h with ⟨name, hitem, hvar⟩ | ⟨o, hitem, hfailed⟩
  · rw [variableAt] at hvar
    rcases ht.bound name (Tree.mem_variableNames.2 ⟨n, hmem, hitem⟩) with hb | ⟨x, hb⟩ <;>
      rw [hb] at hvar <;> cases hvar
  · obtain ⟨htame, hchildren⟩ := ht.operations n hmem o hitem
    have hne : n.operands before ≠ [] := by simpa [Node.operands] using hchildren
    have hnull : E.policy.admit (n.operands before) = none ↔
        t.NullFails E.bindings E.policy k := by
      rw [NullPolicy.admit_eq_none_iff hne, refuses_iff_starves ht hn hpass,
        Tree.nullFails_iff hn hitem]
    rcases hfailed with ⟨rfl, hadmits⟩ | ⟨numbers, hadmits, happly⟩
    · exact ⟨_, rfl, .inl ⟨hnull.1 hadmits, n, hn, by rw [hitem], rfl, hsource⟩⟩
    · have hnot : ¬ t.NullFails E.bindings E.policy k := by simp [← hnull, hadmits]
      obtain ⟨fault, _, rfl⟩ :=
        applyAt_eq_error_of_tame htame (NullPolicy.admit_ne_nil hadmits) happly
      exact ⟨_, rfl, .inr ⟨hnot, n, o, fault.message, hn, hitem, by rw [hsource]⟩⟩

end Operation

/-- A pass does not get past a node whose operands are refused. -/
theorem not_starves_of_pass {count : Nat} {results : Array (Option Float)}
    (hpass : E.pass #[] (t.nodes.toList.take count) = .ok results) (hk : k < count)
    {o : Operation} (hitem : n.item = .operation o) : ¬ t.Starves E.bindings n E.policy := by
  intro h
  obtain ⟨before, v, hbefore, hv, _⟩ := valueAt_of_pass_take hpass hn hk
  rw [valueAt_of_starves ht hn hbefore hitem h] at hv
  cases hv

/-! ## Whole trees -/

omit hn

/-- A pass fails at a node that is no later than any at which nulls make it fail. -/
theorem stopsAt_of_pass (hsource : E.source = t.source) {f : Failure}
    (h : E.pass #[] t.nodes.toList = .error f) :
    ∃ j d, f = .diagnostic d ∧ t.StopsAt E.bindings E.policy j d ∧
      ∀ k, t.NullFails E.bindings E.policy k → j ≤ k := by
  obtain ⟨j, m, before, hm, hbefore, hfail⟩ := pass_eq_error h
  rw [Array.getElem?_toList] at hm
  obtain ⟨d, hd, hstops⟩ := stopsAt_of_valueAt ht hm hbefore hsource hfail
  refine ⟨j, d, hd, hstops, fun k hk => ?_⟩
  -- a node that is refused before the one that failed would have stopped the pass itself
  cases hk with
  | operation hn hitem hstarves =>
    exact Nat.le_of_not_lt fun hlt => not_starves_of_pass ht hn hbefore hlt hitem hstarves
  | root =>
    have hlast := ht.made.root_last
    have hj := (Array.getElem?_eq_some_iff.1 hm).1
    omega

/-- After a pass all that can be wrong is a null root. -/
theorem numberOf_of_pass {results : Array (Option Float)}
    (h : E.pass #[] t.nodes.toList = .ok results) :
    (∃ x, E.numberOf t = .ok x) ∧ (E.policy ≠ .nullAsZero → ¬ t.NullAt E.bindings t.root) ∨
      E.policy ≠ .nullAsZero ∧ t.NullAt E.bindings t.root ∧ ∃ n, t.nodes[t.root]? = some n ∧
        E.numberOf t = .error (E.failureAt n.position (.nullOperand none)) := by
  obtain ⟨n, hn⟩ := ht.made.exists_rootNode
  have hroot : (results[t.root]?).join = none ↔ t.NullAt E.bindings t.root := by
    rw [← List.take_length (l := t.nodes.toList)] at h
    have hsize := size_of_pass_take h
    have hlast := ht.made.root_last
    rw [Array.length_toList] at hsize
    exact null_of_pass h (by omega)
  rw [numberOf, h]
  simp only [bind, Except.bind, Tree.rootNode?, hn]
  cases hvalue : (results[t.root]?).join with
  | some x =>
    have hnot : ¬ t.NullAt E.bindings t.root := by simp [← hroot, hvalue]
    exact .inl ⟨⟨x, rfl⟩, fun _ => hnot⟩
  | none =>
    have hnull := hroot.1 hvalue
    cases hpolicy : E.policy with
    | nullAsZero => exact .inl ⟨⟨0.0, rfl⟩, fun hne => absurd rfl hne⟩
    | dropNull | throwOnNull => exact .inr ⟨by decide, hnull, n, rfl, rfl⟩

/-- Evaluation has a number, and then there is no node at which nulls make it fail; or it stops at a
node that is no later than any of these. -/
theorem numberOf_cases (hsource : E.source = t.source) :
    (∃ x, E.numberOf t = .ok x) ∧ (∀ k, ¬ t.NullFails E.bindings E.policy k) ∨
      ∃ j d, E.numberOf t = .error (.diagnostic d) ∧ t.StopsAt E.bindings E.policy j d ∧
        ∀ k, t.NullFails E.bindings E.policy k → j ≤ k := by
  cases hpass : E.pass #[] t.nodes.toList with
  | error f =>
    obtain ⟨j, d, rfl, hstops⟩ := stopsAt_of_pass ht hsource hpass
    refine .inr ⟨j, d, ?_, hstops⟩
    rw [numberOf, hpass]
    rfl
  | ok results =>
    -- the pass got past every operation, so only the root is left to fail
    have hroot : ∀ k, t.NullFails E.bindings E.policy k →
        E.policy ≠ .nullAsZero ∧ t.NullAt E.bindings t.root ∧ k = t.root := by
      intro k hk
      cases hk with
      | operation hn hitem hstarves =>
        have hk := (Array.getElem?_eq_some_iff.1 hn).1
        rw [← List.take_length (l := t.nodes.toList)] at hpass
        exact absurd hstarves (not_starves_of_pass ht hn hpass (by simpa using hk) hitem)
      | root hne hnull => exact ⟨hne, hnull, rfl⟩
    rcases numberOf_of_pass ht hpass with ⟨hx, hnot⟩ | ⟨hne, hnull, n, hn, hfail⟩
    · exact .inl ⟨hx, fun k hk => hnot (hroot k hk).1 (hroot k hk).2.1⟩
    · obtain ⟨name, hname, _⟩ := (Tree.nullAt_iff hn).1 hnull
      refine .inr ⟨t.root, _, hfail, .inl ⟨.root hne hnull, n, hn, by rw [hname], rfl, hsource⟩,
        fun k hk => Nat.le_of_eq (hroot k hk).2.2.symm⟩

end Evaluator

/-! ## The standard registry -/

/-- Trees of standard operations are plain where their variables are null or real. -/
theorem Grammar.plain_of_parse {g : Grammar} (hg : g.registry = .standard) {tokens : List Token}
    {t : Tree} (h : g.parse tokens = .ok t) {b : Bindings}
    (hb : ∀ name ∈ t.variableNames, b.get? name = some .null ∨ ∃ x, b.get? name = some (.real x)) :
    t.Plain b where
  made := .parsed h
  operations := by
    have hr : g.registry.Reached := hg ▸ Registry.standard_reached
    have hregistered : ∀ o ∈ g.registry.operations, ∀ count : Nat, o.accepts count = true →
        o.reducer.Tame ∧ count ≠ 0 := by
      intro o ho count haccepts
      have hcount := (hr.declared o ho).count_pos haccepts
      exact ⟨Registry.standard_tame o (hg ▸ ho), Nat.ne_of_gt hcount⟩
    intro n hn o ho
    obtain ⟨htame, hcount⟩ :=
      operation_of_parse hr hregistered ⟨negation_tame, by decide⟩ h n hn o ho
    exact ⟨htame, by simpa using hcount⟩
  bound := hb

/-- **Exactly when nulls fail.** Let the variables of a tree of standard operations be null or real.
Evaluation tells of a null only at a node where nulls make it fail, and never where nulls are zero.
Where there is such a node there is no number: what is told is a null, or the failure of an
operation before that node. In a pass null variables are null, and nothing else. -/
theorem Grammar.evaluate_nulls {g : Grammar} (hg : g.registry = .standard) {tokens : List Token}
    {t : Tree} (h : g.parse tokens = .ok t) {b : Bindings}
    (hb : ∀ name ∈ t.variableNames, b.get? name = some .null ∨ ∃ x, b.get? name = some (.real x))
    (policy : NullPolicy) :
    (∀ d, t.evaluate b policy = .error (.diagnostic d) → d.kind = .nullValue →
      policy ≠ .nullAsZero ∧ ∃ k, t.NullFails b policy k ∧ t.TellsNull k d) ∧
    (∀ k, t.NullFails b policy k → ∃ d, t.evaluate b policy = .error (.diagnostic d) ∧
      (d.kind = .nullValue ∨ ∃ j < k, t.FailedAt j d)) ∧
    ∀ count results,
      Evaluator.pass ⟨b, policy, t.source⟩ #[] (t.nodes.toList.take count) = .ok results →
        ∀ i < results.size, (results[i]?).join = none ↔ t.NullAt b i := by
  have ht : t.Plain (⟨b, policy, t.source⟩ : Evaluator).bindings := plain_of_parse hg h hb
  have hcases := Evaluator.numberOf_cases ht rfl
  rw [← Tree.evaluate_eq] at hcases
  dsimp only at hcases
  refine ⟨fun d hd hkind => ?_, fun k hk => ?_, fun count results hpass i hi =>
    Evaluator.null_of_pass hpass hi⟩
  · rcases hcases with ⟨⟨x, hx⟩, _⟩ | ⟨j, d', hd', ⟨hj, htells⟩ | ⟨_, hfailed⟩, _⟩
    · rw [hx] at hd
      cases hd
    · rw [hd'] at hd
      obtain rfl := Failure.diagnostic.inj (Except.error.inj hd)
      refine ⟨?_, j, hj, htells⟩
      rintro rfl
      exact Tree.not_nullFails_nullAsZero hj
    · rw [hd'] at hd
      obtain rfl := Failure.diagnostic.inj (Except.error.inj hd)
      obtain ⟨_, _, _, _, _, rfl⟩ := hfailed
      cases hkind
  · rcases hcases with ⟨_, hnone⟩ | ⟨j, d, hd, ⟨_, htells⟩ | ⟨hj, hfailed⟩, hfirst⟩
    · exact absurd hk (hnone k)
    · obtain ⟨n, _, hcause, _⟩ := htells
      have hkind : d.kind = .nullValue := by
        rw [Diagnostic.kind, hcause]
        rfl
      exact ⟨d, hd, .inl hkind⟩
    · have hne : j ≠ k := by
        rintro rfl
        exact hj hk
      exact ⟨d, hd, .inr ⟨j, Nat.lt_of_le_of_ne (hfirst k hk) hne, hfailed⟩⟩

/-- A null factor makes a product fail where nulls are refused, and nowhere when it is dropped. -/
theorem Grammar.evaluate_nulls_product :
    ∃ t, parseText "2*x" .standard .standard = .ok t ∧ t.variableNames = ["x"] ∧
      (∃ k d, t.NullFails [("x", .null)] .throwOnNull k ∧ t.TellsNull k d ∧
        t.evaluate [("x", .null)] .throwOnNull = .error (.diagnostic d)) ∧
      ∀ k, ¬ t.NullFails [("x", .null)] .dropNull k := by
  obtain ⟨t, ht⟩ := exists_of_isOk
    (show (parseText "2*x" .standard .standard).isOk = true by decide +kernel)
  have hrefused : (match parseText "2*x" .standard .standard with
      | .ok t => match t.evaluate [("x", .null)] .throwOnNull with
        | .error (.diagnostic d) => d.kind == .nullValue
        | _ => false
      | .error _ => false) = true := by decide +kernel
  have hdropped : (match parseText "2*x" .standard .standard with
      | .ok t => (t.evaluate [("x", .null)] .dropNull).isOk
      | .error _ => false) = true := by decide +kernel
  have hnames : (match parseText "2*x" .standard .standard with
      | .ok t => t.variableNames == ["x"]
      | .error _ => false) = true := by decide +kernel
  rw [ht] at hrefused hdropped hnames
  have hnames : t.variableNames = ["x"] := beq_iff_eq.1 hnames
  have hb : ∀ name ∈ t.variableNames, Bindings.get? [("x", .null)] name = some .null ∨
      ∃ x, Bindings.get? [("x", .null)] name = some (.real x) := by
    rw [hnames]
    intro name hname
    obtain rfl := List.mem_singleton.1 hname
    exact .inl rfl
  obtain ⟨tokens, hparse⟩ := exists_parse_of_parseText ht
  refine ⟨t, ht, hnames, ?_, fun k hk => ?_⟩
  · dsimp only at hrefused
    split at hrefused
    · next d hd =>
      obtain ⟨_, k, hk, htells⟩ :=
        (evaluate_nulls rfl hparse hb .throwOnNull).1 d hd (beq_iff_eq.1 hrefused)
      exact ⟨k, d, hk, htells, hd⟩
    · cases hrefused
  · obtain ⟨d, hd, _⟩ := (evaluate_nulls rfl hparse hb .dropNull).2.1 k hk
    simp [hd, Except.isOk, Except.toBool] at hdropped

end Reckon
