/-
A builder tells who is under whom twice: a parent lists its children, and a
child names its parent. Whatever calls are made, accepted or refused, the two
agree (`Builder.Linked`): no node is in two lists or twice in one, and every
node has as many children as its item takes.

A call that is refused leaves the builder as it is, so what holds of every
reached builder holds after any calls (`Builder.reached_after`).
-/
import Mathlib.Data.List.Nodup
import Reckon.Proofs.Tree.Built

namespace Reckon

/-- How many children a node may have: a number or a variable has none. -/
def Item.Takes : Item → Nat → Prop
  | .number _, count | .var _, count => count = 0
  | .operation o, count => o.accepts count = true

namespace Builder

/-! ## Calls -/

/-- What a builder can be asked to do. -/
inductive Call where
  | number (value : Float) (position : Int)
  | var (name : String) (position : Int)
  | operation (o : Operation) (children : List Int) (position : Int)
  | build (root : Int) (source : Option String)

/-- The builder after a call. Building and what is refused leave it as it is. -/
def call (b : Builder) : Call → Builder
  | .number value position => (b.addLeaf (.number value) position).2
  | .var name position => (b.addLeaf (.var name) position).2
  | .operation o children position =>
    match b.addOperation o children position with
    | .ok (_, b') => b'
    | .error _ => b
  | .build _ _ => b

/-- The builder after calls on an empty one. -/
def after (calls : List Call) : Builder := calls.foldl call {}

theorem Reached.call {b : Builder} (h : b.Reached) : ∀ c : Call, (b.call c).Reached
  | .number value position => h.number value position
  | .var name position => h.var name position
  | .operation o children position => by
    simp only [Builder.call]
    split
    · next hadd => exact h.operation hadd
    · exact h
  | .build _ _ => h

theorem Reached.calls {b : Builder} (h : b.Reached) : ∀ calls : List Call,
    (calls.foldl Builder.call b).Reached
  | [] => h
  | c :: calls => (h.call c).calls calls

/-- Calls lead to reached builders only. -/
theorem reached_after (calls : List Call) : (after calls).Reached := Reached.empty.calls calls

/-! ## Parents and children -/

/-- The children that the node of an index lists. -/
def childrenAt (slots : Array Slot) (index : Nat) : List Nat :=
  ((slots[index]?).map (·.children)).getD []

/-- The parent that the node of an index names. -/
def parentAt (slots : Array Slot) (index : Nat) : Option Nat := (slots[index]?).bind (·.parent)

/-- Lists of children and named parents agree, and are as the items allow. -/
structure Linked (slots : Array Slot) : Prop where
  mem_iff : ∀ p i, i ∈ childrenAt slots p ↔ parentAt slots i = some p
  nodup : ∀ p, (childrenAt slots p).Nodup
  takes : ∀ (i : Nat) (s : Slot), slots[i]? = some s → s.item.Takes s.children.length

theorem childrenAt_of_le {slots : Array Slot} {i : Nat} (h : slots.size ≤ i) :
    childrenAt slots i = [] := by
  simp [childrenAt, Array.getElem?_eq_none h]

theorem parentAt_of_le {slots : Array Slot} {i : Nat} (h : slots.size ≤ i) :
    parentAt slots i = none := by
  simp [parentAt, Array.getElem?_eq_none h]

/-- Adopting changes the parents of the children and nothing else. -/
theorem getElem?_adopt (slots : Array Slot) (parent : Nat) (children : List Nat) (i : Nat) :
    (adopt slots parent children)[i]? =
      if i ∈ children then (slots[i]?).map fun s => { s with parent := some parent }
      else slots[i]? := by
  unfold adopt
  induction children generalizing slots with
  | nil => simp
  | cons child children ih =>
    rw [List.foldl_cons, ih, Array.getElem?_modify]
    by_cases hchild : child = i
    · subst hchild
      cases slots[child]? <;> simp
    · have hne : ¬i = child := fun h => hchild h.symm
      simp [hchild, hne]

theorem childrenAt_adopt (slots : Array Slot) (parent : Nat) (children : List Nat) (i : Nat) :
    childrenAt (adopt slots parent children) i = childrenAt slots i := by
  rw [childrenAt, getElem?_adopt, childrenAt]
  split
  · cases slots[i]? <;> rfl
  · rfl

theorem childrenAt_push (slots : Array Slot) (s : Slot) (i : Nat) :
    childrenAt (slots.push s) i = if i = slots.size then s.children else childrenAt slots i := by
  rw [childrenAt, Array.getElem?_push]
  split
  · rfl
  · rfl

theorem parentAt_adopt_push {slots : Array Slot} {s : Slot} {parent : Nat} {children : List Nat}
    (hs : s.parent = none) (hlt : ∀ child ∈ children, child < slots.size) (i : Nat) :
    parentAt (adopt (slots.push s) parent children) i =
      if i ∈ children then some parent else parentAt slots i := by
  rw [parentAt, getElem?_adopt, Array.getElem?_push]
  by_cases hi : i ∈ children
  · have hne : i ≠ slots.size := Nat.ne_of_lt (hlt i hi)
    simp [hi, hne, Array.getElem?_eq_getElem (hlt i hi)]
  · rw [if_neg hi, if_neg hi]
    by_cases heq : i = slots.size
    · simp [heq, hs, parentAt_of_le]
    · rw [if_neg heq, parentAt]

/-- Children without parents can be put under a new node. -/
theorem Linked.adopt_push {slots : Array Slot} {s : Slot} (h : Linked slots)
    (hs : s.parent = none) (htakes : s.item.Takes s.children.length) (hnodup : s.children.Nodup)
    (hfree : ∀ child ∈ s.children, child < slots.size ∧ parentAt slots child = none) :
    Linked (adopt (slots.push s) slots.size s.children) where
  mem_iff := fun p i => by
    rw [childrenAt_adopt, childrenAt_push,
      parentAt_adopt_push hs fun child hchild => (hfree child hchild).1]
    by_cases hi : i ∈ s.children
    · -- a child that was free is under the new node and in no older list
      have hold : i ∉ childrenAt slots p := by
        rw [h.mem_iff, (hfree i hi).2]
        exact nofun
      by_cases hp : p = slots.size
      · simp [hi, hp]
      · have hne : ¬slots.size = p := fun e => hp e.symm
        simp [hi, hp, hold, hne]
    · by_cases hp : p = slots.size
      · subst hp
        have hnone : ¬parentAt slots i = some slots.size := by
          rw [← h.mem_iff, childrenAt_of_le (Nat.le_refl _)]
          exact List.not_mem_nil
        simp [hi, hnone]
      · simp [hi, hp, h.mem_iff]
  nodup := fun p => by
    rw [childrenAt_adopt, childrenAt_push]
    split
    · exact hnodup
    · exact h.nodup p
  takes := fun i s' hi => by
    rw [getElem?_adopt, Array.getElem?_push] at hi
    have hcase : ∀ s', (if i = slots.size then some s else slots[i]?) = some s' →
        s'.item.Takes s'.children.length := fun s' hs' => by
      split at hs'
      · exact Option.some.inj hs' ▸ htakes
      · exact h.takes i s' hs'
    split at hi
    · obtain ⟨s'', hs'', rfl⟩ := Option.map_eq_some_iff.1 hi
      exact hcase s'' hs''
    · exact hcase s' hi

/-- Every child that passes the check is there and has no parent. -/
theorem checkChildren_free {b : Builder} : ∀ {children : List Int},
    b.checkChildren children = .ok () → ∀ child ∈ children,
      0 ≤ child ∧ child.toNat < b.slots.size ∧ parentAt b.slots child.toNat = none
  | [], _ => by simp
  | child :: rest, h => by
    unfold checkChildren at h
    split at h
    · cases h
    next slot hslot =>
    split at h
    · cases h
    next hparent =>
    intro c hc
    rcases List.mem_cons.1 hc with rfl | hc
    · unfold slot? at hslot
      split at hslot
      · cases hslot
      next hneg =>
      refine ⟨Int.not_lt.1 hneg, (Array.getElem?_eq_some_iff.1 hslot).1, ?_⟩
      simpa [parentAt, hslot] using hparent
    · exact checkChildren_free h c hc

/-- **Parents and children agree in every reached builder.** -/
theorem Reached.linked {b : Builder} (h : b.Reached) : Linked b.slots := by
  induction h with
  | empty => constructor <;> simp [childrenAt, parentAt]
  | number value position _ ih =>
    exact ih.adopt_push (s := { item := .number value, position }) rfl rfl List.nodup_nil (by simp)
  | var name position _ ih =>
    exact ih.adopt_push (s := { item := .var name, position }) rfl rfl List.nodup_nil (by simp)
  | @operation b o children position index b' _ hadd ih =>
    obtain ⟨haccepts, hnodup, hcheck, _, hslots⟩ := addOperation_checked hadd
    have hfree := checkChildren_free hcheck
    rw [hslots]
    refine ih.adopt_push
      (s := { item := .operation o, children := children.map Int.toNat, position }) rfl ?_
      (hnodup.map_on fun c hc c' hc' heq => ?_) fun child hchild => ?_
    · simpa [Item.Takes] using haccepts
    · have := (hfree c hc).1
      have := (hfree c' hc').1
      omega
    · obtain ⟨c, hc, rfl⟩ := List.mem_map.1 hchild
      exact (hfree c hc).2

end Builder

end Reckon
