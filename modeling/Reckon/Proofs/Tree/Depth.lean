/-
Every tree that a builder makes is one, whatever calls were made before
(`Builder.build_rooted`): its last node is the root, every other node is listed
once, by the parent it names, and is one deeper than that.

Depths are handed down in one pass over the table, from the root to index zero.
A node's depth is not changed once the pass has gone by it, since its children
stand before it and it has no second parent (`HandedDown`). The greatest depth
is the height of the expression that the tree shows.
-/
import Reckon.Operation.Arithmetic
import Reckon.Proofs.Tree.Linked

namespace Reckon

namespace Builder

/-! ## The pass -/

theorem getElem?_setAll (depth : Option Nat) (children : List Nat) (depths : Array (Option Nat))
    (i : Nat) :
    (children.foldl (fun depths child => depths.setIfInBounds child depth) depths)[i]? =
      if i ∈ children ∧ i < depths.size then some depth else depths[i]? := by
  induction children generalizing depths with
  | nil => simp
  | cons child children ih =>
    rw [List.foldl_cons, ih, Array.size_setIfInBounds, Array.getElem?_setIfInBounds]
    by_cases hchild : child = i
    · subst hchild
      by_cases hlt : child < depths.size <;> simp [hlt]
    · have hne : ¬i = child := fun h => hchild h.symm
      simp [hchild, hne]

theorem deepen_of_none {slots : Array Slot} {depths : Array (Option Nat)} {index : Nat}
    (h : (depths[index]?).join = none) : deepen slots depths index = depths := by
  simp [deepen, h]

theorem getElem?_deepen {slots : Array Slot} {depths : Array (Option Nat)} {index d : Nat}
    (h : depths[index]? = some (some d)) (i : Nat) :
    (deepen slots depths index)[i]? =
      if i ∈ childrenAt slots index ∧ i < depths.size then some (some (d + 1))
      else depths[i]? := by
  unfold deepen childrenAt
  cases slots[index]? with
  | none => simp
  | some slot =>
    rw [h]
    exact getElem?_setAll _ _ _ _

/-- The root has depth one, and from an index on all nodes that have a depth have handed it down. -/
structure HandedDown (slots : Array Slot) (root index : Nat) (depths : Array (Option Nat)) :
    Prop where
  size : depths.size = slots.size
  root : depths[root]? = some (some 1)
  child : ∀ p i d, index ≤ p → i ∈ childrenAt slots p → depths[p]? = some (some d) →
    depths[i]? = some (some (d + 1))

section Pass

variable {slots : Array Slot} {root : Nat} (hlinked : Linked slots)
  (hbefore : ∀ p, ∀ i ∈ childrenAt slots p, i < p) (hroot : parentAt slots root = none)

include hlinked hbefore hroot

theorem HandedDown.deepen {index : Nat} {depths : Array (Option Nat)}
    (h : HandedDown slots root (index + 1) depths) :
    HandedDown slots root index (Builder.deepen slots depths index) := by
  cases hd : (depths[index]?).join with
  | none =>
    rw [deepen_of_none hd]
    refine ⟨h.size, h.root, fun p i d hp hi hpd => ?_⟩
    rcases Nat.eq_or_lt_of_le hp with rfl | hp
    · simp [hpd] at hd
    · exact h.child p i d hp hi hpd
  | some d =>
    rw [Option.join_eq_some_iff] at hd
    refine ⟨by rw [size_deepen, h.size], ?_, fun p i d' hp hi hpd => ?_⟩
    · have hno : root ∉ childrenAt slots index := by
        rw [hlinked.mem_iff, hroot]
        exact nofun
      simp [getElem?_deepen hd, hno, h.root]
    · -- the depth of `p` is final: it is not among the children handed down to here
      have hp' : p ∉ childrenAt slots index := fun hmem => by
        have := hbefore index p hmem
        omega
      rw [getElem?_deepen hd] at hpd ⊢
      rw [if_neg fun hmem => hp' hmem.1] at hpd
      rcases Nat.eq_or_lt_of_le hp with rfl | hlt
      · obtain rfl : d = d' := by simpa using hd.symm.trans hpd
        have hsize : i < depths.size := by
          have := hbefore index i hi
          have := (Array.getElem?_eq_some_iff.1 hd).1
          omega
        rw [if_pos ⟨hi, hsize⟩]
      · have hother : i ∉ childrenAt slots index := fun hmem => by
          have := (hlinked.mem_iff p i).1 hi
          rw [(hlinked.mem_iff index i).1 hmem, Option.some.injEq] at this
          omega
        rw [if_neg fun hmem => hother hmem.1]
        exact h.child p i d' hlt hi hpd

theorem HandedDown.descend : ∀ {index : Nat} {depths : Array (Option Nat)},
    HandedDown slots root (index + 1) depths →
      HandedDown slots root 0 (Builder.descend slots index depths)
  | 0, _, h => h.deepen hlinked hbefore hroot
  | index + 1, _, h => by
    rw [Builder.descend]
    exact descend (h.deepen hlinked hbefore hroot)

/-- **The pass hands every depth down.** -/
theorem handedDown (hlt : root < slots.size) :
    HandedDown slots root 0 (depthsFrom slots root) := by
  refine HandedDown.descend hlinked hbefore hroot ⟨by simp, by simp [hlt], ?_⟩
  intro p i d hp _ hpd
  have hne : root ≠ p := by omega
  simp [Array.getElem?_setIfInBounds_ne hne, Array.getElem?_replicate] at hpd

end Pass

end Builder

/-! ## Height -/

namespace Expr

mutual

/-- The number of nodes from the top down to the deepest number or variable. -/
def height : Expr → Nat
  | number _ _ | var _ _ => 1
  | apply _ operands _ => heightAll operands + 1
termination_by structural e => e

/-- The greatest height, zero if there are no expressions. -/
def heightAll : List Expr → Nat
  | [] => 0
  | e :: es => max (height e) (heightAll es)
termination_by structural es => es

end

theorem height_pos (e : Expr) : 0 < e.height := by
  cases e <;> simp [height]

theorem height_le_heightAll {e : Expr} {es : List Expr} (h : e ∈ es) :
    e.height ≤ heightAll es := by
  induction es with
  | nil => cases h
  | cons e' es ih =>
    rw [heightAll]
    rcases List.mem_cons.1 h with rfl | h
    · exact Nat.le_max_left _ _
    · exact Nat.le_trans (ih h) (Nat.le_max_right _ _)

end Expr

/-- Children are one deeper than their parents. -/
def Deepens (table : List Cell) (depth : Nat → Nat) : Prop :=
  ∀ (i : Nat) (c : Cell), table[i]? = some c → ∀ child ∈ c.children, depth child = depth i + 1

section Height

variable {table : List Cell} {depth : Nat → Nat}

/-- Nothing below a node is deeper than its expression is high. -/
theorem Below.depth_lt (hdepth : Deepens table depth) {i k : Nat} (h : Below table i k) :
    ∀ {e : Expr}, Shows table i e → depth k < depth i + e.height := by
  induction h with
  | refl =>
    intro e _
    have := e.height_pos
    omega
  | @child i c child k hcell hmem _ ih =>
    intro e he
    rcases he.cell hcell with ⟨hnil, _⟩ | ⟨o, es, rfl, _, hes⟩
    · simp [hnil] at hmem
    · obtain ⟨e', he', hshows⟩ := hes.exists_of_mem hmem
      have hk := ih hshows
      have hchild := hdepth i c hcell child hmem
      have hle := Expr.height_le_heightAll he'
      rw [Expr.height]
      omega

mutual

/-- Something below a node is as deep as its expression is high. -/
theorem Shows.exists_deepest (hdepth : Deepens table depth) : ∀ {e : Expr} {i : Nat},
    Shows table i e → ∃ k, Below table i k ∧ depth k + 1 = depth i + e.height
  | .number _ _, i, _ | .var _ _, i, _ => ⟨i, .refl, rfl⟩
  | .apply o [] p, i, _ => ⟨i, .refl, rfl⟩
  | .apply o (e :: es) p, i, ⟨children, hcell, hes⟩ => by
    obtain ⟨child, hmem, k, hk, hdeep⟩ :=
      ShowsAll.exists_deepest hdepth hes (by simp) (hdepth i _ hcell)
    refine ⟨k, .child hcell hmem hk, ?_⟩
    rw [Expr.height]
    omega

theorem ShowsAll.exists_deepest (hdepth : Deepens table depth) {d : Nat} :
    ∀ {es : List Expr} {children : List Nat}, ShowsAll table children es → es ≠ [] →
      (∀ child ∈ children, depth child = d) →
        ∃ child ∈ children, ∃ k, Below table child k ∧ depth k + 1 = d + Expr.heightAll es
  | [], _, _, hne, _ => absurd rfl hne
  | e :: es, _, ⟨i, rest, hcons, he, hes⟩, _, hd => by
    subst hcons
    rw [Expr.heightAll]
    by_cases hhigh : Expr.heightAll es ≤ e.height
    · obtain ⟨k, hk, hdeep⟩ := Shows.exists_deepest hdepth he
      refine ⟨i, List.mem_cons_self, k, hk, ?_⟩
      rw [hdeep, hd i List.mem_cons_self, Nat.max_eq_left hhigh]
    · have hne : es ≠ [] := by
        rintro rfl
        exact hhigh (Nat.zero_le _)
      obtain ⟨child, hmem, k, hk, hdeep⟩ := ShowsAll.exists_deepest hdepth hes hne
        fun c hc => hd c (List.mem_cons_of_mem _ hc)
      refine ⟨child, List.mem_cons_of_mem _ hmem, k, hk, ?_⟩
      rw [hdeep, Nat.max_eq_right (by omega)]

end

end Height

/-! ## Trees -/

/-- The table is a tree: the last node is its root, and every other node is listed by its parent,
which stands behind it, and is one deeper. -/
structure Tree.Rooted (t : Tree) : Prop where
  root_last : t.root + 1 = t.size
  index : ∀ (i : Nat) (n : Node), t.nodes[i]? = some n → n.index = i
  parent_eq_none_iff : ∀ (i : Nat) (n : Node), t.nodes[i]? = some n →
    (n.parent = none ↔ i = t.root)
  child_lt : ∀ (i : Nat) (n : Node), t.nodes[i]? = some n → ∀ child ∈ n.children, child < i
  /-- The parent lists the node once, and no other node lists it. -/
  listed : ∀ (i : Nat) (n : Node), t.nodes[i]? = some n → i ≠ t.root →
    ∃ (p : Nat) (m : Node), n.parent = some p ∧ t.nodes[p]? = some m ∧ m.children.count i = 1 ∧
      ∀ (q : Nat) (m' : Node), t.nodes[q]? = some m' → q ≠ p → i ∉ m'.children
  takes : ∀ (i : Nat) (n : Node), t.nodes[i]? = some n → n.item.Takes n.children.length
  depth_root : ∀ n : Node, t.nodes[t.root]? = some n → n.depth = 1
  depth_child : ∀ (i p : Nat) (n m : Node), t.nodes[i]? = some n → n.parent = some p →
    t.nodes[p]? = some m → n.depth = m.depth + 1

theorem Below.le {table : List Cell} (hordered : Ordered table) {i k : Nat}
    (h : Below table i k) : k ≤ i := by
  induction h with
  | refl => exact Nat.le_refl _
  | child hcell hmem _ ih => exact Nat.le_trans ih (Nat.le_of_lt ((hordered _ _ hcell).1 _ hmem))

/-- Below a node there are only the node itself and what is listed somewhere. -/
theorem Below.eq_or_listed {table : List Cell} {i k : Nat} (h : Below table i k) :
    k = i ∨ ∃ (p : Nat) (c : Cell), table[p]? = some c ∧ k ∈ c.children := by
  induction h with
  | refl => exact .inl rfl
  | child hcell hmem _ ih =>
    rcases ih with rfl | hlisted
    · exact .inr ⟨_, _, hcell, hmem⟩
    · exact .inr hlisted

theorem foldl_max_le_iff {α : Type} (f : α → Nat) : ∀ (l : List α) (a n : Nat),
    l.foldl (fun most x => max most (f x)) a ≤ n ↔ a ≤ n ∧ ∀ x ∈ l, f x ≤ n
  | [], a, n => by simp
  | x :: l, a, n => by
    rw [List.foldl_cons, foldl_max_le_iff f l, Nat.max_le, and_assoc, List.forall_mem_cons]

namespace Builder

theorem getElem?_cells (b : Builder) (i : Nat) : b.cells[i]? = (b.slots[i]?).map Slot.cell := by
  simp [cells]

theorem mem_childrenAt {slots : Array Slot} {p i : Nat} :
    i ∈ childrenAt slots p ↔ ∃ s, slots[p]? = some s ∧ i ∈ s.children := by
  unfold childrenAt
  cases slots[p]? <;> simp

theorem Reached.child_lt {b : Builder} (hb : b.Reached) (p : Nat) :
    ∀ i ∈ childrenAt b.slots p, i < p := by
  intro i hi
  obtain ⟨s, hs, hmem⟩ := mem_childrenAt.1 hi
  have hcell : b.cells[p]? = some s.cell := by rw [getElem?_cells, hs, Option.map_some]
  exact (hb.ordered p _ hcell).1 i hmem

/-- Where all indices have depths, the depth of an index is the one there. -/
theorem getElem?_of_total {depths : Array (Option Nat)} (h : depths.any Option.isNone = false)
    {i : Nat} (hi : i < depths.size) : depths[i]? = some (some (depthAt depths i)) := by
  have hsome : depths[i].isNone = false := by
    rw [← Bool.not_eq_true]
    intro hnone
    rw [Array.any_eq_true.2 ⟨i, hi, hnone⟩] at h
    cases h
  obtain ⟨d, hd⟩ := Option.isSome_iff_exists.1 (Option.isNone_eq_false_iff.1 hsome)
  simp [depthAt, hi, hd]

theorem foldl_depths_le_iff {depths : Array (Option Nat)} (h : depths.any Option.isNone = false)
    (most : Nat) : depths.foldl (fun most d => max most (d.getD 1)) 1 ≤ most ↔
      1 ≤ most ∧ ∀ i < depths.size, depthAt depths i ≤ most := by
  have hdepth (i : Nat) (hi : i < depths.size) : (depths[i]).getD 1 = depthAt depths i := by
    have hi' := getElem?_of_total h hi
    rw [Array.getElem?_eq_getElem hi, Option.some.injEq] at hi'
    rw [hi', Option.getD_some]
  rw [← Array.foldl_toList, foldl_max_le_iff (fun d : Option Nat => d.getD 1)]
  refine and_congr_right fun _ => ⟨fun hall i hi => ?_, fun hall d hd => ?_⟩
  · rw [← hdepth i hi]
    exact hall _ (by simp)
  · obtain ⟨i, hi, rfl⟩ := List.getElem_of_mem hd
    simpa [hdepth i hi] using hall i hi

section Build

variable {b : Builder} {root : Int} {source : Option String} {t : Tree} (hb : b.Reached)
  (h : b.build root source = .ok t)

/-- The nodes of the tree are the slots of the builder, each with the depth handed down to it. -/
theorem getElem?_build_nodes (h : b.build root source = .ok t) {i : Nat} {n : Node} :
    t.nodes[i]? = some n ↔
      ∃ s, b.slots[i]? = some s ∧ nodeOf (depthsFrom b.slots t.root) i s = n := by
  obtain ⟨_, _, rfl⟩ := build_made h
  simp [Array.getElem?_mapIdx, Option.map_eq_some_iff]

include hb h

theorem Reached.handedDown : HandedDown b.slots t.root 0 (depthsFrom b.slots t.root) := by
  obtain ⟨⟨slot, hslot, hparent⟩, _, rfl⟩ := build_made h
  exact Builder.handedDown hb.linked hb.child_lt (by simp [parentAt, hslot, hparent])
    (Array.getElem?_eq_some_iff.1 hslot).1

theorem Reached.deepens : Deepens t.cells (depthAt (depthsFrom b.slots t.root)) := by
  have hdown := hb.handedDown h
  obtain ⟨hcells, hroot, _, _, htotal⟩ := build_eq_ok h
  rw [← hroot] at htotal
  intro p c hc child hchild
  rw [hcells, getElem?_cells, Option.map_eq_some_iff] at hc
  obtain ⟨s, hs, rfl⟩ := hc
  have hp : p < (depthsFrom b.slots t.root).size :=
    hdown.size ▸ (Array.getElem?_eq_some_iff.1 hs).1
  have hd := hdown.child p child _ (Nat.zero_le p) (mem_childrenAt.2 ⟨s, hs, hchild⟩)
    (getElem?_of_total htotal hp)
  simp [depthAt, hd]

/-- The depth of the tree is the height of the expression that it shows. -/
theorem Reached.depth_eq_height {e : Expr} (he : t.Shows e) : t.depth = e.height := by
  have hdeepens := hb.deepens h
  have hdown := hb.handedDown h
  obtain ⟨hordered, hlt⟩ := hb.ordered_build h
  obtain ⟨hcells, hroot, _, _, htotal⟩ := build_eq_ok h
  have hsize : (depthsFrom b.slots t.root).size = t.cells.length := by
    rw [hdown.size, hcells, length_cells, size]
  have hone : depthAt (depthsFrom b.slots t.root) t.root = 1 := by simp [depthAt, hdown.root]
  have hmost : t.depth =
      (depthsFrom b.slots t.root).foldl (fun most d => max most (d.getD 1)) 1 := by
    obtain ⟨_, _, rfl⟩ := build_made h
    rfl
  rw [← hroot] at htotal
  refine Nat.le_antisymm ?_ ?_
  · rw [hmost, foldl_depths_le_iff htotal, hsize]
    refine ⟨e.height_pos, fun i hi => ?_⟩
    have := (build_below h i hi).depth_lt hdeepens he
    omega
  · obtain ⟨k, hk, hdeep⟩ := Shows.exists_deepest hdeepens he
    have hall := ((foldl_depths_le_iff htotal _).1 (Nat.le_of_eq hmost.symm)).2
    have := hall k (hsize ▸ Nat.lt_of_le_of_lt (hk.le hordered) hlt)
    omega

/-- All nodes are below the root, so it is the last. -/
theorem Reached.root_last : t.root + 1 = t.size := by
  obtain ⟨hordered, hlt⟩ := hb.ordered_build h
  have hsize := t.length_cells
  have hle := (build_below h (t.size - 1) (by omega)).le hordered
  omega

/-- Every node but the root is listed. -/
theorem Reached.exists_parentAt {i : Nat} (hi : i < t.size) (hne : i ≠ t.root) :
    ∃ p, parentAt b.slots i = some p := by
  obtain ⟨hcells, _⟩ := build_eq_ok h
  have hsize := t.length_cells
  rcases (build_below h i (by omega)).eq_or_listed with rfl | ⟨p, c, hc, hmem⟩
  · exact absurd rfl hne
  · rw [hcells, getElem?_cells, Option.map_eq_some_iff] at hc
    obtain ⟨s, hs, rfl⟩ := hc
    exact ⟨p, (hb.linked.mem_iff p i).1 (mem_childrenAt.2 ⟨s, hs, hmem⟩)⟩

theorem Reached.rooted : t.Rooted := by
  have hlinked := hb.linked
  have hdown := hb.handedDown h
  obtain ⟨⟨slot, hslot, hparent⟩, htotal, _⟩ := build_made h
  obtain ⟨_, hroot, hlt, _⟩ := build_eq_ok h
  rw [← hroot] at hslot htotal hlt
  have hnode {i : Nat} {n : Node} (hn : t.nodes[i]? = some n) := (getElem?_build_nodes h).1 hn
  have hchildren {i : Nat} {n : Node} (hn : t.nodes[i]? = some n) :
      n.children = childrenAt b.slots i := by
    obtain ⟨s, hs, rfl⟩ := hnode hn
    simp [childrenAt, hs, nodeOf]
  have hparents {i : Nat} {n : Node} (hn : t.nodes[i]? = some n) :
      n.parent = parentAt b.slots i := by
    obtain ⟨s, hs, rfl⟩ := hnode hn
    simp [parentAt, hs, nodeOf]
  have hdepths {i : Nat} {n : Node} (hn : t.nodes[i]? = some n) :
      n.depth = depthAt (depthsFrom b.slots t.root) i := by
    obtain ⟨s, hs, rfl⟩ := hnode hn
    rfl
  exact {
    root_last := hb.root_last h
    index := fun i n hn => by
      obtain ⟨s, hs, rfl⟩ := hnode hn
      rfl
    parent_eq_none_iff := fun i n hn => by
      rw [hparents hn]
      constructor
      · intro hnone
        refine Decidable.by_contra fun hne => ?_
        obtain ⟨p, hp⟩ := hb.exists_parentAt h (Array.getElem?_eq_some_iff.1 hn).1 hne
        rw [hnone] at hp
        cases hp
      · rintro rfl
        simp [parentAt, hslot, hparent]
    child_lt := fun i n hn => hchildren hn ▸ hb.child_lt i
    listed := fun i n hn hne => by
      obtain ⟨p, hp⟩ := hb.exists_parentAt h (Array.getElem?_eq_some_iff.1 hn).1 hne
      have hmem := (hlinked.mem_iff p i).2 hp
      obtain ⟨s, hs, _⟩ := mem_childrenAt.1 hmem
      have hm := (getElem?_build_nodes h).2 ⟨s, hs, rfl⟩
      refine ⟨p, _, (hparents hn).trans hp, hm, ?_, fun q m' hq hqp hmem' => hqp ?_⟩
      · rw [hchildren hm]
        exact List.count_eq_one_of_mem (hlinked.nodup p) hmem
      · rw [hchildren hq, hlinked.mem_iff, hp, Option.some.injEq] at hmem'
        exact hmem'.symm
    takes := fun i n hn => by
      obtain ⟨s, hs, rfl⟩ := hnode hn
      exact hlinked.takes i s hs
    depth_root := fun n hn => by
      rw [hdepths hn]
      simp [depthAt, hdown.root]
    depth_child := fun i p n m hn hp hm => by
      rw [hparents hn, ← hlinked.mem_iff] at hp
      have hlt : p < (depthsFrom b.slots t.root).size := by
        obtain ⟨s, hs, _⟩ := hnode hm
        exact hdown.size ▸ (Array.getElem?_eq_some_iff.1 hs).1
      have hd := hdown.child p i _ (Nat.zero_le p) hp (getElem?_of_total htotal hlt)
      rw [hdepths hn, hdepths hm, depthAt, hd]
      rfl }

end Build

/-- **What is built is a tree.** After any calls, accepted or refused, every tree that building
gives has its root last, every other node listed once, by its parent, and as many children at every
node as its item takes; depths are counted from the root, and the depth of the tree is the height
of the one expression that it shows. -/
theorem build_rooted (calls : List Call) {root : Int} {source : Option String} {t : Tree}
    (h : (after calls).build root source = .ok t) :
    t.Rooted ∧ ∃ e, t.Shows e ∧ (∀ e', t.Shows e' → e' = e) ∧ t.depth = e.height := by
  have hb := reached_after calls
  obtain ⟨hordered, hroot⟩ := hb.ordered_build h
  obtain ⟨e, he⟩ := hordered.exists_shows t.root hroot
  exact ⟨hb.rooted h, e, he, fun e' he' => Shows.unique he' he, hb.depth_eq_height h he⟩

/-- A variable may be negated once; a negation of nothing and a second one are refused. -/
theorem build_rooted_negation :
    let calls : List Call := [.var "x" 1, .operation .negation [] 0, .operation .negation [0] 0,
      .build 0 none, .operation .negation [0] 0]
    ∃ t, (after calls).build 1 none = .ok t ∧ t.Rooted ∧ ∃ e, t.Shows e ∧ t.depth = e.height := by
  intro calls
  have hok : ((after calls).build 1 none).isOk = true := by decide +kernel
  obtain ⟨t, ht⟩ := exists_of_isOk hok
  obtain ⟨hrooted, e, he, _, hdepth⟩ := build_rooted calls ht
  exact ⟨t, ht, hrooted, e, he, hdepth⟩

end Builder

end Reckon
