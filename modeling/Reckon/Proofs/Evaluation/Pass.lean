/-
One pass over a table, seen from its nodes. Each node is looked at once, after
all nodes of lower indices have their values, and those values stay as they are
(`getElem?_of_pass`); a pass that fails has failed at one node, and up to it all
went well (`pass_eq_error`). How a node fails is told by `valueAt_eq_error`.

Two passes are compared node by node (`pass_map`): where the values of every
node correspond, given corresponding values before it, the two passes go alike.
Only the variables of a tree are ever looked up, so bindings that agree on them
are as good as each other (`Tree.evaluate_congr`).
-/
import Reckon.Proofs.Evaluation.Meaning
import Reckon.Proofs.Operation.Arithmetic
import Reckon.Proofs.Tree.Made

namespace Reckon

/-- What a node is given: the values of its children, from left to right. -/
def Node.operands (n : Node) (results : Array (Option Float)) : List (Option Float) :=
  n.children.map fun child => (results[child]?).join

namespace Evaluator

variable {E E' : Evaluator}

/-! ## One node -/

theorem valueAt_number {results : Array (Option Float)} {n : Node} {x : Float}
    (h : n.item = .number x) : E.valueAt results n = .ok (some x) := by
  simp only [valueAt, h]

theorem valueAt_var {results : Array (Option Float)} {n : Node} {name : String}
    (h : n.item = .var name) : E.valueAt results n = E.variableAt n.position name := by
  simp only [valueAt, h]

theorem valueAt_operation {results : Array (Option Float)} {n : Node} {o : Operation}
    (h : n.item = .operation o) :
    E.valueAt results n = match E.policy.admit (n.operands results) with
      | none => .error (E.failureAt n.position (.nullOperand (some o.name)))
      | some numbers => (E.applyAt n.position o numbers).map some := by
  simp only [valueAt, h, operandsAt_eq, Node.operands]
  cases E.policy.admit (n.children.map fun child => (results[child]?).join) with
  | none => rfl
  | some numbers => cases E.applyAt n.position o numbers <;> rfl

/-- A variable fails for want of a value, or its value is no number. -/
theorem variableAt_eq_error {position : Int} {name : String} {f : Failure}
    (h : E.variableAt position name = .error f) :
    E.bindings.get? name = none ∧ f = E.failureAt position (.unresolvedVariable name) ∨
    ∃ d, E.bindings.get? name = some d ∧ d ≠ .null ∧ E.numberAt position d = .error f := by
  unfold variableAt at h
  split at h
  · next hnone => exact .inl ⟨hnone, (Except.error.inj h).symm⟩
  · cases h
  · next d hne hd =>
    refine .inr ⟨d, hd, fun hnull => hne hnull, ?_⟩
    cases hnumber : E.numberAt position d with
    | ok x => simp [hnumber, Except.map] at h
    | error f' =>
      rw [hnumber] at h
      rw [Except.error.inj h]

/-- A node fails as its variable, or its operands are refused, or its operation fails. -/
theorem valueAt_eq_error {results : Array (Option Float)} {n : Node} {f : Failure}
    (h : E.valueAt results n = .error f) :
    (∃ name, n.item = .var name ∧ E.variableAt n.position name = .error f) ∨
    ∃ o, n.item = .operation o ∧
      (f = E.failureAt n.position (.nullOperand (some o.name)) ∧
          E.policy.admit (n.operands results) = none ∨
        ∃ numbers, E.policy.admit (n.operands results) = some numbers ∧
          E.applyAt n.position o numbers = .error f) := by
  cases hitem : n.item with
  | number x =>
    rw [valueAt_number hitem] at h
    cases h
  | var name => exact .inl ⟨name, rfl, valueAt_var hitem ▸ h⟩
  | operation o =>
    refine .inr ⟨o, rfl, ?_⟩
    rw [valueAt_operation hitem] at h
    split at h
    · next hadmits => exact .inl ⟨(Except.error.inj h).symm, hadmits⟩
    · next numbers hadmits =>
      refine .inr ⟨numbers, hadmits, ?_⟩
      cases happly : E.applyAt n.position o numbers with
      | ok x => simp [happly, Except.map] at h
      | error f' =>
        rw [happly] at h
        rw [Except.error.inj h]

/-- Null variables have a value of null, and no other node has. -/
theorem none_of_valueAt {results : Array (Option Float)} {n : Node} {v : Option Float}
    (h : E.valueAt results n = .ok v) :
    v = none ↔ ∃ name, n.item = .var name ∧ E.bindings.get? name = some .null := by
  cases hitem : n.item with
  | number x =>
    rw [valueAt_number hitem] at h
    obtain rfl := Except.ok.inj h
    simp
  | var name =>
    rw [valueAt_var hitem, variableAt] at h
    split at h
    · cases h
    · next hnull =>
      obtain rfl := Except.ok.inj h
      simp [hnull]
    · next d hne hd =>
      cases hnumber : E.numberAt n.position d with
      | error f => simp [hnumber, Except.map] at h
      | ok x =>
        rw [hnumber] at h
        obtain rfl := Except.ok.inj h
        simpa [hd] using hne
  | operation o =>
    rw [valueAt_operation hitem] at h
    split at h
    · cases h
    · next numbers _ =>
      cases happly : E.applyAt n.position o numbers with
      | error f => simp [happly, Except.map] at h
      | ok x =>
        rw [happly] at h
        obtain rfl := Except.ok.inj h
        simp

/-- Only the source, for its messages, matters to a reducer's result. -/
theorem applyAt_congr (h : E'.source = E.source) (position : Int) (o : Operation)
    (numbers : List Float) : E'.applyAt position o numbers = E.applyAt position o numbers := by
  unfold applyAt numberAt failureAt
  rw [h]

/-- A tame reducer makes a number, or the operation fails at its position for the fault of the
reducer. -/
theorem applyAt_of_tame (E : Evaluator) (position : Int) {o : Operation} {numbers : List Float}
    (htame : o.reducer.Tame) (hne : numbers ≠ []) :
    (∃ x, E.applyAt position o numbers = .ok x) ∨
      ∃ fault, o.reducer numbers = .error (.fault fault) ∧ E.applyAt position o numbers =
        .error (E.failureAt position (.operationFailed o.name fault.message)) := by
  obtain ⟨hoperational, hreal⟩ := htame numbers hne
  unfold applyAt Operation.apply
  rcases hoperational with ⟨d, hd⟩ | ⟨fault, hfault, hop⟩
  · obtain ⟨x, rfl⟩ := hreal d hd
    rw [hd]
    exact .inl ⟨x, rfl⟩
  · simp only [hfault, hop, if_true]
    exact .inr ⟨fault, rfl, rfl⟩

/-- The operation of a tame reducer fails with a fault of its reducer. -/
theorem applyAt_eq_error_of_tame {position : Int} {o : Operation} {numbers : List Float}
    {f : Failure} (htame : o.reducer.Tame) (hne : numbers ≠ [])
    (h : E.applyAt position o numbers = .error f) :
    ∃ fault, o.reducer numbers = .error (.fault fault) ∧
      f = E.failureAt position (.operationFailed o.name fault.message) := by
  rcases E.applyAt_of_tame position htame hne with ⟨x, hx⟩ | ⟨fault, hfault, hfailed⟩
  · rw [hx] at h
    cases h
  · exact ⟨fault, hfault, Except.error.inj (h.symm.trans hfailed)⟩

/-! ## One pass -/

theorem pass_cons_eq_ok {results out : Array (Option Float)} {n : Node} {nodes : List Node} :
    E.pass results (n :: nodes) = .ok out ↔
      ∃ v, E.valueAt results n = .ok v ∧ E.pass (results.push v) nodes = .ok out := by
  rw [pass, bind_eq_ok]

theorem size_of_pass : ∀ {nodes : List Node} {results out : Array (Option Float)},
    E.pass results nodes = .ok out → out.size = results.size + nodes.length
  | [], _, _, h => by
    obtain rfl := Except.ok.inj h
    rfl
  | n :: nodes, results, _, h => by
    obtain ⟨v, _, hrest⟩ := pass_cons_eq_ok.1 h
    have hsize := size_of_pass hrest
    rw [Array.size_push] at hsize
    rw [List.length_cons]
    omega

/-- Values that are there stay as they are. -/
theorem getElem?_of_pass : ∀ {nodes : List Node} {results out : Array (Option Float)},
    E.pass results nodes = .ok out → ∀ i < results.size, out[i]? = results[i]?
  | [], _, _, h, _, _ => by
    obtain rfl := Except.ok.inj h
    rfl
  | n :: nodes, results, _, h, i, hi => by
    obtain ⟨v, _, hrest⟩ := pass_cons_eq_ok.1 h
    have hpush : i < (results.push v).size := by
      rw [Array.size_push]
      omega
    rw [getElem?_of_pass hrest i hpush, Array.getElem?_push_lt hi, Array.getElem?_eq_getElem hi]

/-- A pass fails at one of its nodes, and up to it all went well. -/
theorem pass_eq_error {f : Failure} : ∀ {nodes : List Node} {results : Array (Option Float)},
    E.pass results nodes = .error f → ∃ k n out, nodes[k]? = some n ∧
      E.pass results (nodes.take k) = .ok out ∧ E.valueAt out n = .error f
  | [], _, h => by cases h
  | n :: nodes, results, h => by
    rw [pass, bind_eq_error] at h
    rcases h with h | ⟨v, hv, h⟩
    · exact ⟨0, n, results, rfl, rfl, h⟩
    · obtain ⟨k, n', out, hn', hout, hfail⟩ := pass_eq_error h
      exact ⟨k + 1, n', out, hn', pass_cons_eq_ok.2 ⟨v, hv, hout⟩, hfail⟩

/-- In a pass that succeeds each node has its value, given the values before it. -/
theorem valueAt_of_pass {nodes : List Node} {results out : Array (Option Float)}
    (h : E.pass results nodes = .ok out) {k : Nat} {n : Node} (hn : nodes[k]? = some n) :
    ∃ before v, E.pass results (nodes.take k) = .ok before ∧ E.valueAt before n = .ok v ∧
      out[results.size + k]? = some v := by
  induction nodes generalizing results k with
  | nil => cases hn
  | cons m nodes ih =>
    obtain ⟨v, hv, hrest⟩ := pass_cons_eq_ok.1 h
    cases k with
    | zero =>
      obtain rfl := Option.some.inj hn
      refine ⟨results, v, rfl, hv, ?_⟩
      rw [getElem?_of_pass hrest _ (by simp)]
      simp
    | succ k =>
      obtain ⟨before, w, hbefore, hw, hout⟩ := ih hrest hn
      refine ⟨before, w, pass_cons_eq_ok.2 ⟨v, hv, hbefore⟩, hw, ?_⟩
      rwa [Array.size_push, Nat.add_assoc, Nat.add_comm 1 k] at hout

section Table

variable {t : Tree} {count : Nat} {out : Array (Option Float)}
  (h : E.pass #[] (t.nodes.toList.take count) = .ok out)

include h

theorem size_of_pass_take : out.size = min count t.nodes.size := by
  have hsize := size_of_pass h
  rwa [Array.size_empty, Nat.zero_add, List.length_take, Array.length_toList] at hsize

/-- The value of a node in a pass over the first nodes of a table. -/
theorem valueAt_of_pass_take {k : Nat} {n : Node} (hn : t.nodes[k]? = some n) (hk : k < count) :
    ∃ before v, E.pass #[] (t.nodes.toList.take k) = .ok before ∧ E.valueAt before n = .ok v ∧
      out[k]? = some v := by
  have htake : (t.nodes.toList.take count)[k]? = some n := by
    rw [List.getElem?_take_of_lt hk, Array.getElem?_toList, hn]
  obtain ⟨before, v, hbefore, hv, hout⟩ := valueAt_of_pass h htake
  rw [List.take_take, Nat.min_eq_left (Nat.le_of_lt hk)] at hbefore
  rw [Array.size_empty, Nat.zero_add] at hout
  exact ⟨before, v, hbefore, hv, hout⟩

end Table

/-- Evaluation fails at a node that the pass gets to, or else the root is a variable that is
null. -/
theorem numberOf_eq_error {t : Tree} (ht : t.Made) {f : Failure} (h : E.numberOf t = .error f) :
    (∃ k n before, t.nodes[k]? = some n ∧ E.pass #[] (t.nodes.toList.take k) = .ok before ∧
      E.valueAt before n = .error f) ∨
    ∃ n name, t.rootNode? = some n ∧ n.item = .var name ∧ E.bindings.get? name = some .null ∧
      f = E.failureAt n.position (.nullOperand none) := by
  rw [numberOf, bind_eq_error] at h
  rcases h with hpass | ⟨results, hpass, hroot⟩
  · obtain ⟨k, n, before, hk, hbefore, hvalue⟩ := pass_eq_error hpass
    exact .inl ⟨k, n, before, by rwa [Array.getElem?_toList] at hk, hbefore, hvalue⟩
  · -- the pass got to the root, and its value is none
    obtain ⟨n, hn⟩ := ht.exists_rootNode
    have hlist : t.nodes.toList[t.root]? = some n := by rwa [Array.getElem?_toList]
    obtain ⟨before, v, _, hv, hresult⟩ := valueAt_of_pass hpass hlist
    rw [Array.size_empty, Nat.zero_add] at hresult
    rw [Tree.rootNode?, hn, hresult] at hroot
    cases v with
    | some x => cases hroot
    | none =>
      obtain ⟨name, hitem, hnull⟩ := (none_of_valueAt hv).1 rfl
      refine .inr ⟨n, name, hn, hitem, hnull, ?_⟩
      cases hpolicy : E.policy <;> rw [hpolicy] at hroot <;> cases hroot <;> rfl

/-! ## Two passes -/

/-- Where the values of the nodes correspond the passes go alike. -/
theorem pass_map {φ : Option Float → Option Float} : ∀ {nodes : List Node}
    {results : Array (Option Float)}, (∀ k n, nodes[k]? = some n →
      ∀ before : Array (Option Float), before.size = results.size + k →
        E'.valueAt (before.map φ) n = (E.valueAt before n).map φ) →
    E'.pass (results.map φ) nodes = (E.pass results nodes).map (·.map φ)
  | [], _, _ => rfl
  | n :: nodes, results, h => by
    rw [pass, pass, h 0 n rfl results rfl]
    cases E.valueAt results n with
    | error => rfl
    | ok v =>
      have hrest : E'.pass ((results.push v).map φ) nodes =
          (E.pass (results.push v) nodes).map (·.map φ) := by
        refine pass_map fun k m hm before hsize => h (k + 1) m hm before ?_
        rw [hsize, Array.size_push]
        omega
      rw [Array.map_push] at hrest
      exact hrest

theorem pass_congr {nodes : List Node}
    (h : ∀ n ∈ nodes, ∀ before, E'.valueAt before n = E.valueAt before n)
    (results : Array (Option Float)) : E'.pass results nodes = E.pass results nodes := by
  have hmap : E'.pass (results.map id) nodes = (E.pass results nodes).map (·.map id) := by
    refine pass_map fun k n hn before _ => ?_
    rw [Array.map_id, h n (List.mem_of_getElem? hn)]
    cases E.valueAt before n <;> simp [Except.map]
  rw [Array.map_id] at hmap
  rw [hmap]
  cases E.pass results nodes <;> simp [Except.map]

end Evaluator

theorem Tree.evaluate_eq (t : Tree) (bindings : Bindings) (policy : NullPolicy) :
    t.evaluate bindings policy = Evaluator.numberOf ⟨bindings, policy, t.source⟩ t := by
  simp [Tree.evaluate, Evaluator.evaluate]

/-- **A tree looks up its variables only.** -/
theorem Tree.evaluate_congr {t : Tree} {bindings bindings' : Bindings}
    (h : ∀ name ∈ t.variableNames, bindings'.get? name = bindings.get? name)
    (policy : NullPolicy) : t.evaluate bindings' policy = t.evaluate bindings policy := by
  have hpass : Evaluator.pass ⟨bindings', policy, t.source⟩ #[] t.nodes.toList =
      Evaluator.pass ⟨bindings, policy, t.source⟩ #[] t.nodes.toList := by
    refine Evaluator.pass_congr (fun n hn before => ?_) #[]
    cases hitem : n.item with
    | number x => rw [Evaluator.valueAt_number hitem, Evaluator.valueAt_number hitem]
    | var name =>
      rw [Evaluator.valueAt_var hitem, Evaluator.valueAt_var hitem, Evaluator.variableAt,
        h name (mem_variableNames.2 ⟨n, hn, hitem⟩)]
      rfl
    | operation o =>
      rw [Evaluator.valueAt_operation hitem, Evaluator.valueAt_operation hitem]
      rfl
  rw [evaluate_eq, evaluate_eq, Evaluator.numberOf, hpass]
  rfl

end Reckon
