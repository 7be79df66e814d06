/-
Which nodes a builder can be made a tree under (`Builder.build_iff`): the one
that has no parent, if there is only one.

Parents stand behind their children, so whatever node one begins at, going up
ends at a node without a parent. Where there is one such node all others are
below it, and it is the last.
-/
import Reckon.Proofs.Tree.Building

namespace Reckon

namespace Builder

/-- The node of the index is there and has no parent. -/
def Parentless (b : Builder) (i : Nat) : Prop := i < b.size ∧ parentAt b.slots i = none

/-- The only node without a parent. -/
def Sole (b : Builder) (i : Nat) : Prop := b.Parentless i ∧ ∀ j, b.Parentless j → j = i

/-- Why no tree is made under a root: it is not there, it has a parent, or another node has none
either. -/
inductive Refuses (b : Builder) (root : Int) : BuildError → Prop
  | unknownRoot : (∀ i : Nat, root = i → b.size ≤ i) → Refuses b root (.unknownRoot root)
  | rootWithParent {i p : Nat} : root = i → parentAt b.slots i = some p →
      Refuses b root (.rootWithParent root)
  | unreachable {i j : Nat} : root = i → b.Parentless i → b.Parentless j → j ≠ i →
      Refuses b root .unreachable

variable {b : Builder}

/-! ## Going up -/

/-- A parent lists its child, and stands behind it. -/
theorem Reached.parent_of_some (hb : b.Reached) {i p : Nat} (h : parentAt b.slots i = some p) :
    i < p ∧ ∃ s, b.slots[p]? = some s ∧ i ∈ s.children := by
  have hmem := (hb.linked.mem_iff p i).2 h
  exact ⟨hb.child_lt p i hmem, mem_childrenAt.1 hmem⟩

/-- All nodes are below the only one without a parent. -/
theorem Reached.below_of_sole (hb : b.Reached) {root : Nat} (h : b.Sole root) (k : Nat)
    (hk : k < b.size) : Below b.cells root k := by
  cases hparent : parentAt b.slots k with
  | none => exact h.2 k ⟨hk, hparent⟩ ▸ .refl
  | some p =>
    obtain ⟨hlt, s, hs, hmem⟩ := hb.parent_of_some hparent
    have hp : p < b.size := (Array.getElem?_eq_some_iff.1 hs).1
    have hcell : b.cells[p]? = some s.cell := by rw [getElem?_cells, hs, Option.map_some]
    exact (hb.below_of_sole h p hp).snoc hcell hmem
termination_by b.size - k

/-! ## Building -/

theorem slot?_eq_some_iff {index : Int} {slot : Slot} :
    b.slot? index = some slot ↔ ∃ i : Nat, index = i ∧ b.slots[i]? = some slot := by
  unfold slot?
  constructor
  · intro h
    split at h
    · cases h
    · exact ⟨index.toNat, by omega, h⟩
  · rintro ⟨i, rfl, h⟩
    simpa using h

theorem size_of_build {root : Int} {source : Option String} {t : Tree}
    (h : b.build root source = .ok t) : t.size = b.size := by
  rw [← length_cells, ← (build_eq_ok h).1, Tree.length_cells]

/-- A tree is made under the only node without a parent. -/
theorem Reached.build_of_sole (hb : b.Reached) {root : Nat} (h : b.Sole root)
    (source : Option String) : ∃ t, b.build root source = .ok t :=
  hb.exists_build source h.1.1 h.1.2 (hb.below_of_sole h)

/-- A tree is made under no other node. -/
theorem Reached.sole_of_build (hb : b.Reached) {root : Int} {source : Option String} {t : Tree}
    (h : b.build root source = .ok t) : root = t.root ∧ b.Sole t.root := by
  obtain ⟨_, hroot, _⟩ := build_eq_ok h
  obtain ⟨⟨slot, hslot, hparent⟩, _, _⟩ := build_made h
  rw [← hroot] at hslot
  refine ⟨?_, ⟨(Array.getElem?_eq_some_iff.1 hslot).1, by simp [parentAt, hslot, hparent]⟩,
    fun j hj => ?_⟩
  · cases hindex : b.slot? root with
    | none => simp [build, hindex] at h
    | some =>
      obtain ⟨i, rfl, _⟩ := slot?_eq_some_iff.1 hindex
      omega
  · refine Decidable.by_contra fun hne => ?_
    obtain ⟨p, hp⟩ := hb.exists_parentAt h (size_of_build h ▸ hj.1) hne
    rw [hj.2] at hp
    cases hp

/-- What is refused is refused for a reason. -/
theorem Reached.refuses_of_build (hb : b.Reached) {root : Int} {source : Option String}
    {e : BuildError} (h : b.build root source = .error e) : b.Refuses root e := by
  cases hindex : b.slot? root with
  | none =>
    simp only [build, hindex] at h
    obtain rfl := Except.error.inj h
    refine .unknownRoot fun i hi => ?_
    subst hi
    simpa [slot?, size] using hindex
  | some slot =>
    obtain ⟨i, rfl, hslot⟩ := slot?_eq_some_iff.1 hindex
    cases hparent : slot.parent with
    | some p =>
      simp only [build, hindex, hparent, Option.isSome_some, if_true] at h
      obtain rfl := Except.error.inj h
      exact .rootWithParent (p := p) rfl (by simp [parentAt, hslot, hparent])
    | none =>
      have hi : b.Parentless i :=
        ⟨(Array.getElem?_eq_some_iff.1 hslot).1, by simp [parentAt, hslot, hparent]⟩
      -- were there no other, the tree would have been made
      have hother : ∃ j, b.Parentless j ∧ j ≠ i := by
        refine Classical.byContradiction fun hnone => ?_
        have hsole : b.Sole i := ⟨hi, fun j hj => Classical.byContradiction fun hne =>
          hnone ⟨j, hj, hne⟩⟩
        obtain ⟨t, ht⟩ := hb.build_of_sole hsole source
        rw [h] at ht
        cases ht
      obtain ⟨j, hj, hne⟩ := hother
      simp only [build, hindex, hparent, Option.isSome_none, Bool.false_eq_true, if_false] at h
      split at h
      · obtain rfl := Except.error.inj h
        exact .unreachable rfl hi hj hne
      · cases h

/-- **A tree is made exactly under the only node without a parent.** After any calls, accepted or
refused, a root is accepted if it is there, has no parent and is the only such node; otherwise it is
refused for one of these reasons. An accepted root is the node added last, so there is at most one,
and there is one exactly if one node alone has no parent. -/
theorem build_iff (calls : List Call) (source : Option String) :
    (∀ root : Int, (∃ t, (after calls).build root source = .ok t) ↔
      ∃ i : Nat, root = i ∧ (after calls).Sole i) ∧
    (∀ root e, (after calls).build root source = .error e →
      (after calls).Refuses root e ∧ e.fault.kind = .value) ∧
    (∀ root t, (after calls).build root source = .ok t → root + 1 = (after calls).size ∧
      ∀ root' t', (after calls).build root' source = .ok t' → root' = root) ∧
    ((∃ root t, (after calls).build root source = .ok t) ↔ ∃ i, (after calls).Sole i) := by
  have hb := reached_after calls
  generalize after calls = b at hb
  have hsole (root : Int) : (∃ t, b.build root source = .ok t) ↔
      ∃ i : Nat, root = i ∧ b.Sole i := by
    constructor
    · rintro ⟨t, ht⟩
      exact ⟨t.root, hb.sole_of_build ht⟩
    · rintro ⟨i, rfl, hi⟩
      exact hb.build_of_sole hi source
  refine ⟨hsole, fun root e he => ⟨hb.refuses_of_build he, rfl⟩, fun root t ht => ?_, ?_⟩
  · obtain ⟨hroot, hsole⟩ := hb.sole_of_build ht
    refine ⟨?_, fun root' t' ht' => ?_⟩
    · have hlast := hb.root_last ht
      have hsize := size_of_build ht
      omega
    · obtain ⟨hroot', hsole'⟩ := hb.sole_of_build ht'
      rw [hroot', hroot, hsole.2 t'.root hsole'.1]
  · simp only [hsole]
    exact ⟨fun ⟨_, i, _, hi⟩ => ⟨i, hi⟩, fun ⟨i, hi⟩ => ⟨i, i, rfl, hi⟩⟩

/-- A negated variable is a tree, and two variables are none. -/
theorem build_iff_variables :
    (∃ t, (after [.var "x" 1, .operation .negation [0] 0, .operation .negation [0] 0]).build 1
      none = .ok t) ∧
    ∀ root, ¬∃ t, (after [.var "x" 0, .var "y" 2]).build root none = .ok t := by
  refine ⟨((build_iff _ none).1 1).2 ⟨1, rfl, ⟨by decide +kernel, rfl⟩, ?_⟩, fun root h => ?_⟩
  · rintro j ⟨hj, hparent⟩
    have hsize : (after [.var "x" 1, .operation .negation [0] 0,
      .operation .negation [0] 0]).size = 2 := rfl
    rw [hsize] at hj
    match j, hj with
    | 0, _ => cases hparent
    | 1, _ => rfl
  · obtain ⟨i, _, _, hsole⟩ := ((build_iff _ none).1 root).1 h
    have hx := hsole 0 ⟨by decide +kernel, rfl⟩
    have hy := hsole 1 ⟨by decide +kernel, rfl⟩
    omega

end Builder

end Reckon
