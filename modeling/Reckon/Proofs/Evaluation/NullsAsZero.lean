/-
Treating nulls as zero is giving zeros in the first place
(`Tree.Made.evaluate_zeroNulls`): the outcome, be it a number or a failure with
all it tells, is that of the bindings with every null replaced, under any
policy. So where no variable of a tree is null the policies do not differ.

Nulls are treated at two places, before a reducer and at the root. The pass over
the replaced bindings has zeros there already: its value of a node is the other
pass's value with null made zero (`Evaluator.pass_zeroNulls`).
-/
import Reckon.Proofs.Evaluation.Pass

namespace Reckon

/-! ## Replacing nulls -/

/-- Zero in the place of null. -/
def Datum.zeroNull : Datum → Datum
  | .null => .real 0.0
  | d => d

/-- The bindings with every null replaced by zero. -/
def Bindings.zeroNulls (b : Bindings) : Bindings := b.map fun p => (p.1, p.2.zeroNull)

theorem Bindings.get?_zeroNulls (b : Bindings) (name : String) :
    b.zeroNulls.get? name = (b.get? name).map Datum.zeroNull := by
  induction b with
  | nil => rfl
  | cons p b ih =>
    rw [zeroNulls, List.map_cons, get?_cons, get?_cons]
    split
    · rfl
    · exact ih

/-- Where a name is not null it has the same value. -/
theorem Bindings.get?_zeroNulls_of_ne {b : Bindings} {name : String}
    (h : b.get? name ≠ some .null) : b.zeroNulls.get? name = b.get? name := by
  rw [get?_zeroNulls]
  cases hd : b.get? name with
  | none => rfl
  | some d =>
    cases d with
    | null => exact absurd hd h
    | _ => rfl

/-- A value with null made zero. -/
def zeroed (v : Option Float) : Option Float := some (v.getD 0.0)

/-- Where there are no nulls the policies admit the same. -/
theorem NullPolicy.admit_zeroed (policy : NullPolicy) (operands : List (Option Float)) :
    policy.admit (operands.map zeroed) = nullAsZero.admit operands := by
  have hids : (operands.map zeroed).filterMap id = operands.map (Option.getD · 0.0) := by
    rw [List.filterMap_map]
    exact congrFun List.filterMap_eq_map operands
  have hsome : (operands.map zeroed).all Option.isSome = true := by simp [zeroed]
  unfold NullPolicy.admit
  cases policy with
  | nullAsZero => simp [zeroed, Function.comp_def]
  | dropNull => simp only [hids]
  | throwOnNull => simp only [hids, hsome, if_true]

namespace Evaluator

variable {bindings : Bindings} {policy : NullPolicy} {source : Option String}

/-! ## Nodes -/

theorem variableAt_zeroNulls (position : Int) (name : String) :
    variableAt ⟨bindings.zeroNulls, policy, source⟩ position name =
      (variableAt ⟨bindings, .nullAsZero, source⟩ position name).map zeroed := by
  simp only [variableAt, Bindings.get?_zeroNulls]
  cases bindings.get? name with
  | none => rfl
  | some d =>
    cases d with
    | int i =>
      simp only [Option.map_some, Datum.zeroNull, numberAt]
      cases intToFloat? i <;> rfl
    | _ => rfl

theorem operands_zeroed {n : Node} {before : Array (Option Float)}
    (h : ∀ child ∈ n.children, child < before.size) :
    n.operands (before.map zeroed) = (n.operands before).map zeroed := by
  rw [Node.operands, Node.operands, List.map_map]
  refine List.map_congr_left fun child hchild => ?_
  simp [h child hchild]

theorem valueAt_zeroNulls {n : Node} {before : Array (Option Float)}
    (h : ∀ child ∈ n.children, child < before.size) :
    valueAt ⟨bindings.zeroNulls, policy, source⟩ (before.map zeroed) n =
      (valueAt ⟨bindings, .nullAsZero, source⟩ before n).map zeroed := by
  cases hitem : n.item with
  | number x =>
    rw [valueAt_number hitem, valueAt_number hitem]
    rfl
  | var name => rw [valueAt_var hitem, valueAt_var hitem, variableAt_zeroNulls]
  | operation o =>
    rw [valueAt_operation hitem, valueAt_operation hitem, operands_zeroed h]
    simp only [NullPolicy.admit_zeroed]
    cases NullPolicy.nullAsZero.admit (n.operands before) with
    | none => rfl
    | some numbers =>
      have happly : applyAt ⟨bindings.zeroNulls, policy, source⟩ n.position o numbers =
          applyAt ⟨bindings, .nullAsZero, source⟩ n.position o numbers :=
        applyAt_congr rfl n.position o numbers
      simp only [happly]
      cases applyAt ⟨bindings, .nullAsZero, source⟩ n.position o numbers <;> rfl

/-! ## Trees -/

theorem pass_zeroNulls {t : Tree} (ht : t.Made) :
    pass ⟨bindings.zeroNulls, policy, source⟩ #[] t.nodes.toList =
      (pass ⟨bindings, .nullAsZero, source⟩ #[] t.nodes.toList).map (·.map zeroed) := by
  have hmap : pass ⟨bindings.zeroNulls, policy, source⟩ (Array.map zeroed #[]) t.nodes.toList =
      (pass ⟨bindings, .nullAsZero, source⟩ #[] t.nodes.toList).map (·.map zeroed) := by
    refine pass_map fun k n hn before hsize => valueAt_zeroNulls fun child hchild => ?_
    rw [Array.getElem?_toList] at hn
    have := ht.child_lt hn hchild
    rw [Array.size_empty] at hsize
    omega
  rwa [Array.map_empty] at hmap

theorem numberOf_zeroNulls {t : Tree} (ht : t.Made) :
    numberOf ⟨bindings.zeroNulls, policy, source⟩ t =
      numberOf ⟨bindings, .nullAsZero, source⟩ t := by
  rw [numberOf, numberOf, pass_zeroNulls ht]
  cases hpass : pass ⟨bindings, .nullAsZero, source⟩ #[] t.nodes.toList with
  | error => rfl
  | ok out =>
    have hroot : t.root < out.size := by
      have hsize := size_of_pass hpass
      have hlast := ht.root_last
      rw [Array.size_empty, Array.length_toList] at hsize
      omega
    have hzeroed : ((out.map zeroed)[t.root]?).join = some (out[t.root].getD 0.0) := by
      simp [hroot, zeroed]
    have hvalue : (out[t.root]?).join = out[t.root] := by simp [hroot]
    simp only [Except.map, bind, Except.bind, hzeroed, hvalue]
    cases out[t.root] <;> rfl

end Evaluator

/-- **Nulls as zero are zeros.** A tree has under that policy the outcome that it has under any
policy when zero is given for every null. Where none of its variables is null it has the same
outcome under all policies. -/
theorem Tree.Made.evaluate_zeroNulls {t : Tree} (ht : t.Made) (bindings : Bindings) :
    (∀ policy, t.evaluate bindings .nullAsZero = t.evaluate bindings.zeroNulls policy) ∧
      ((∀ name ∈ t.variableNames, bindings.get? name ≠ some .null) →
        ∀ policy policy', t.evaluate bindings policy = t.evaluate bindings policy') := by
  have hzero (policy : NullPolicy) :
      t.evaluate bindings .nullAsZero = t.evaluate bindings.zeroNulls policy := by
    rw [evaluate_eq, evaluate_eq, Evaluator.numberOf_zeroNulls ht]
  refine ⟨hzero, fun hnone policy policy' => ?_⟩
  have hsame (policy : NullPolicy) :
      t.evaluate bindings.zeroNulls policy = t.evaluate bindings policy :=
    evaluate_congr (fun name hname => Bindings.get?_zeroNulls_of_ne (hnone name hname)) policy
  calc t.evaluate bindings policy
    _ = t.evaluate bindings.zeroNulls policy := (hsame policy).symm
    _ = t.evaluate bindings .nullAsZero := (hzero policy).symm
    _ = t.evaluate bindings.zeroNulls policy' := hzero policy'
    _ = t.evaluate bindings policy' := hsame policy'

/-- A null operand is zero, and without nulls dropping them and refusing them are the same. -/
theorem Tree.evaluate_zeroNulls_maximum : ∃ t,
    parseText "MAX(x,-2)" .standard .standard = .ok t ∧ t.Made ∧
      t.evaluate [("x", .null)] .nullAsZero = t.evaluate [("x", .real 0.0)] .throwOnNull ∧
      (∀ name ∈ t.variableNames, Bindings.get? [("x", .int 3)] name ≠ some .null) ∧
      t.evaluate [("x", .int 3)] .dropNull = t.evaluate [("x", .int 3)] .throwOnNull := by
  have hok : (parseText "MAX(x,-2)" .standard .standard).isOk = true := by decide +kernel
  obtain ⟨t, ht⟩ := exists_of_isOk hok
  have hmade := Tree.made_of_parseText ht
  have hthree (name : String) : Bindings.get? [("x", .int 3)] name ≠ some .null := by
    rw [Bindings.get?_cons]
    split <;> simp [Bindings.get?]
  exact ⟨t, ht, hmade, (hmade.evaluate_zeroNulls [("x", .null)]).1 .throwOnNull,
    fun name _ => hthree name,
    (hmade.evaluate_zeroNulls [("x", .int 3)]).2 (fun name _ => hthree name) .dropNull .throwOnNull⟩

end Reckon
