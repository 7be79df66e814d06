/-
Walking through a tree with a stack is going through it by recursion: each node
first, and then what is below its children, from left to right
(`Tree.Made.walk_eq`). The loop comes to an end (`Tree.Walks`), since children
stand before their parents, and it comes by every node once, since a node is in
no second list of children: what is below one child of a node is not below
another (`Tree.Rooted.eq_of_below`).
-/
import Mathlib.Data.List.Nodup
import Reckon.Proofs.Tree.Made

namespace Reckon

namespace Tree

variable {t : Tree}

/-- The nodes from an index down in pre-order: the node there, and then those from its children
down, from left to right. Children that do not stand before their parent are passed over. -/
def preorder (t : Tree) (i : Nat) : List Node :=
  match t.nodes[i]? with
  | none => []
  | some n => n :: n.children.flatMap fun child => if child < i then t.preorder child else []
termination_by i

/-- The loop over a stack of indices comes to an end, and these are the nodes that it has come by:
each turn takes the top from the stack, and its children go on the stack in its place. -/
inductive Walks (t : Tree) : List Nat → List Node → Prop
  | done : Walks t [] []
  | turn {i n stack ns} : t.nodes[i]? = some n → Walks t (n.children ++ stack) ns →
      Walks t (i :: stack) (n :: ns)

/-- A count of turns that is large enough changes nothing. -/
theorem Walks.walkFrom_eq {stack : List Nat} {ns : List Node} (h : t.Walks stack ns) :
    ∀ {count : Nat}, ns.length ≤ count → t.walkFrom count stack = ns := by
  induction h with
  | done =>
    intro count _
    cases count <;> rfl
  | turn hn _ ih =>
    intro count hcount
    obtain ⟨count, rfl⟩ : ∃ m, count = m + 1 := ⟨count - 1, by simp at hcount; omega⟩
    simp only [walkFrom, hn]
    rw [ih (by simpa using hcount)]

theorem exists_of_getElem?_cells {p : Nat} {c : Cell} (hc : t.cells[p]? = some c) :
    ∃ n, t.nodes[p]? = some n ∧ n.cell = c := by
  simpa [cells] using hc

theorem cell_eq {p : Nat} {n : Node} {c : Cell} (hn : t.nodes[p]? = some n)
    (hc : t.cells[p]? = some c) : n.cell = c :=
  Option.some.inj ((getElem?_cells hn).symm.trans hc)

/-- What is below a node is the node itself, or it is listed by something below the node. -/
theorem eq_or_listed_of_below {i k : Nat} (h : Below t.cells i k) :
    k = i ∨ ∃ p n, t.nodes[p]? = some n ∧ k ∈ n.children ∧ Below t.cells i p := by
  induction h with
  | refl => exact .inl rfl
  | child hcell hmem _ ih =>
    obtain ⟨n, hn, rfl⟩ := exists_of_getElem?_cells hcell
    rcases ih with rfl | ⟨p, m, hm, hk, hbelow⟩
    · exact .inr ⟨_, n, hn, hmem, .refl⟩
    · exact .inr ⟨p, m, hm, hk, .child hcell hmem hbelow⟩

namespace Rooted

variable (ht : t.Rooted)

include ht

/-! ## Parents and children -/

theorem exists_node {i : Nat} (h : i ≤ t.root) : ∃ n, t.nodes[i]? = some n := by
  have hlast : t.root + 1 = t.nodes.size := ht.root_last
  exact ⟨_, Array.getElem?_eq_getElem (by omega)⟩

theorem le_root {i : Nat} {n : Node} (hn : t.nodes[i]? = some n) : i ≤ t.root := by
  have hlast : t.root + 1 = t.nodes.size := ht.root_last
  have := (Array.getElem?_eq_some_iff.1 hn).1
  omega

section Children

variable {p i : Nat} {n : Node} (hn : t.nodes[p]? = some n) (hmem : i ∈ n.children)

include hn hmem

theorem lt_root_of_mem : i < t.root :=
  Nat.lt_of_lt_of_le (ht.child_lt p n hn i hmem) (ht.le_root hn)

/-- No two nodes list the same one. -/
theorem eq_of_mem {q : Nat} {m : Node} (hm : t.nodes[q]? = some m) (hmem' : i ∈ m.children) :
    p = q := by
  have hlt := ht.lt_root_of_mem hn hmem
  obtain ⟨l, hl⟩ := ht.exists_node (Nat.le_of_lt hlt)
  obtain ⟨parent, _, _, _, _, hother⟩ := ht.listed i l hl (Nat.ne_of_lt hlt)
  have heq {q : Nat} {m : Node} (hm : t.nodes[q]? = some m) (hmem : i ∈ m.children) :
      q = parent :=
    Decidable.by_contra fun hne => hother q m hm hne hmem
  exact (heq hn hmem).trans (heq hm hmem').symm

theorem count_children : n.children.count i = 1 := by
  have hlt := ht.lt_root_of_mem hn hmem
  obtain ⟨l, hl⟩ := ht.exists_node (Nat.le_of_lt hlt)
  obtain ⟨parent, m, _, hm, hcount, _⟩ := ht.listed i l hl (Nat.ne_of_lt hlt)
  obtain rfl := ht.eq_of_mem hn hmem hm (List.count_pos_iff.1 (by omega))
  obtain rfl := Option.some.inj (hn.symm.trans hm)
  exact hcount

end Children

theorem nodup_children {p : Nat} {n : Node} (hn : t.nodes[p]? = some n) : n.children.Nodup := by
  rw [List.nodup_iff_count_le_one]
  intro i
  by_cases hmem : i ∈ n.children
  · exact Nat.le_of_eq (ht.count_children hn hmem)
  · rw [List.count_eq_zero_of_not_mem hmem]
    exact Nat.zero_le 1

theorem le_of_below {i k : Nat} (h : Below t.cells i k) : k ≤ i := by
  induction h with
  | refl => exact Nat.le_refl _
  | child hcell hmem _ ih =>
    obtain ⟨n, hn, rfl⟩ := exists_of_getElem?_cells hcell
    exact Nat.le_trans ih (Nat.le_of_lt (ht.child_lt _ n hn _ hmem))

/-- All nodes are below the root: going up from a node ends there. -/
theorem below_root {k : Nat} {n : Node} (hn : t.nodes[k]? = some n) : Below t.cells t.root k := by
  by_cases hroot : k = t.root
  · exact hroot ▸ .refl
  · obtain ⟨p, m, _, hm, hcount, _⟩ := ht.listed k n hn hroot
    have hmem : k ∈ m.children := List.count_pos_iff.1 (by omega)
    have hlt := ht.child_lt p m hm k hmem
    have hle := ht.le_root hm
    exact (below_root hm).snoc (getElem?_cells hm) hmem
termination_by t.root - k

/-- What is below two children of a node tells that they are one: the parents of a node that is
below both are below both. -/
theorem eq_of_below {p c c' : Nat} {n : Node} (hn : t.nodes[p]? = some n) (hc : c ∈ n.children)
    (hc' : c' ∈ n.children) {k : Nat} (h : Below t.cells c k) (h' : Below t.cells c' k) :
    c = c' := by
  -- a child is below no other: else its parent would be, and that stands behind both
  have hchild {c c' : Nat} (hc : c ∈ n.children) (hc' : c' ∈ n.children)
      (h : Below t.cells c' c) : c = c' := by
    rcases eq_or_listed_of_below h with heq | ⟨q, m, hm, hmem, hbelow⟩
    · exact heq
    · obtain rfl := ht.eq_of_mem hn hc hm hmem
      have hlt := ht.child_lt p n hn c' hc'
      have hle := ht.le_of_below hbelow
      omega
  rcases eq_or_listed_of_below h with rfl | ⟨q, m, hm, hmem, hbelow⟩
  · exact hchild hc hc' h'
  rcases eq_or_listed_of_below h' with rfl | ⟨q', m', hm', hmem', hbelow'⟩
  · exact (hchild hc' hc h).symm
  · obtain rfl := ht.eq_of_mem hm hmem hm' hmem'
    have hlt := ht.child_lt q m hm k hmem
    have hle := ht.le_root hm
    exact eq_of_below hn hc hc' hbelow hbelow'
termination_by t.root - k

/-! ## Pre-order -/

theorem preorder_eq {i : Nat} {n : Node} (hn : t.nodes[i]? = some n) :
    t.preorder i = n :: n.children.flatMap t.preorder := by
  rw [preorder, hn]
  refine congrArg (n :: ·) (List.flatMap_congr fun child hchild => ?_)
  rw [if_pos (ht.child_lt i n hn child hchild)]

/-- The nodes from an index down are those below it. -/
theorem mem_preorder_iff {i : Nat} (hi : i ≤ t.root) {m : Node} :
    m ∈ t.preorder i ↔ ∃ k, Below t.cells i k ∧ t.nodes[k]? = some m := by
  induction i using Nat.strongRecOn with
  | ind i ih =>
  obtain ⟨n, hn⟩ := ht.exists_node hi
  have hchildren (child : Nat) (hchild : child ∈ n.children) :=
    ih child (ht.child_lt i n hn child hchild) (Nat.le_of_lt (ht.lt_root_of_mem hn hchild))
  rw [ht.preorder_eq hn, List.mem_cons, List.mem_flatMap]
  constructor
  · rintro (rfl | ⟨child, hchild, hm⟩)
    · exact ⟨i, .refl, hn⟩
    · obtain ⟨k, hbelow, hk⟩ := (hchildren child hchild).1 hm
      exact ⟨k, .child (getElem?_cells hn) hchild hbelow, hk⟩
  · rintro ⟨k, hbelow, hk⟩
    cases hbelow with
    | refl => exact .inl (Option.some.inj (hk.symm.trans hn))
    | @child _ c child _ hcell hchild hbelow =>
      obtain rfl := cell_eq hn hcell
      exact .inr ⟨child, hchild, (hchildren child hchild).2 ⟨k, hbelow, hk⟩⟩

/-- No node comes twice, and none behind one that it lists. -/
theorem pairwise_preorder {i : Nat} (hi : i ≤ t.root) :
    (t.preorder i).Pairwise fun n m => n ≠ m ∧ n.index ∉ m.children := by
  induction i using Nat.strongRecOn with
  | ind i ih =>
  obtain ⟨n, hn⟩ := ht.exists_node hi
  have hle (child : Nat) (hchild : child ∈ n.children) : child ≤ t.root :=
    Nat.le_of_lt (ht.lt_root_of_mem hn hchild)
  rw [ht.preorder_eq hn, List.pairwise_cons]
  refine ⟨fun m hm => ?_, List.pairwise_flatMap.2 ⟨fun child hchild =>
    ih child (ht.child_lt i n hn child hchild) (hle child hchild), ?_⟩⟩
  · obtain ⟨child, hchild, hm⟩ := List.mem_flatMap.1 hm
    obtain ⟨k, hbelow, hk⟩ := (ht.mem_preorder_iff (hle child hchild)).1 hm
    have hlt : k < i := Nat.lt_of_le_of_lt (ht.le_of_below hbelow) (ht.child_lt i n hn child hchild)
    have hindex := ht.index i n hn
    refine ⟨fun heq => ?_, fun hmem => ?_⟩
    · have := ht.index k m hk
      rw [← heq] at this
      omega
    · have := ht.child_lt k m hk _ hmem
      omega
  · refine (ht.nodup_children hn).imp_of_mem fun {c c'} hc hc' hne m hm m' hm' => ?_
    obtain ⟨k, hbelow, hk⟩ := (ht.mem_preorder_iff (hle c hc)).1 hm
    obtain ⟨k', hbelow', hk'⟩ := (ht.mem_preorder_iff (hle c' hc')).1 hm'
    refine ⟨fun heq => hne ?_, fun hmem => hne ?_⟩
    · obtain rfl : k = k' := by rw [← ht.index k m hk, ← ht.index k' m' hk', heq]
      exact ht.eq_of_below hn hc hc' hbelow hbelow'
    · rw [ht.index k m hk] at hmem
      exact ht.eq_of_below hn hc hc' hbelow (hbelow'.snoc (getElem?_cells hk') hmem)

theorem nodup_nodes : t.nodes.toList.Nodup := by
  rw [List.nodup_iff_pairwise_ne, List.pairwise_iff_getElem]
  intro i j hi hj hlt heq
  have hindex (k : Nat) (hk : k < t.nodes.toList.length) : t.nodes.toList[k].index = k :=
    ht.index k _ (by simp)
  have := hindex i hi
  rw [heq, hindex j hj] at this
  omega

/-- The nodes from the root down are all nodes, each once. -/
theorem preorder_perm : (t.preorder t.root).Perm t.nodes.toList := by
  have hnodup : (t.preorder t.root).Nodup :=
    (ht.pairwise_preorder (Nat.le_refl _)).imp And.left
  refine (List.perm_ext_iff_of_nodup hnodup ht.nodup_nodes).2 fun m => ?_
  rw [ht.mem_preorder_iff (Nat.le_refl _), List.mem_iff_getElem?]
  simp only [Array.getElem?_toList]
  exact ⟨fun ⟨k, _, hk⟩ => ⟨k, hk⟩, fun ⟨k, hk⟩ => ⟨k, ht.below_root hk, hk⟩⟩

/-! ## The loop -/

/-- The loop comes by the nodes from the top of the stack down, and then by those of the rest. -/
theorem walks_cons {i : Nat} (hi : i ≤ t.root) {stack : List Nat} {ns : List Node}
    (h : t.Walks stack ns) : t.Walks (i :: stack) (t.preorder i ++ ns) := by
  induction i using Nat.strongRecOn generalizing stack ns with
  | ind i ih =>
  obtain ⟨n, hn⟩ := ht.exists_node hi
  rw [ht.preorder_eq hn, List.cons_append]
  refine .turn hn ?_
  have hchildren (children : List Nat) (hsub : children ⊆ n.children) :
      t.Walks (children ++ stack) (children.flatMap t.preorder ++ ns) := by
    induction children with
    | nil => exact h
    | cons child children ihchildren =>
      obtain ⟨hchild, hsub⟩ := List.cons_subset.1 hsub
      rw [List.flatMap_cons, List.append_assoc]
      exact ih child (ht.child_lt i n hn child hchild)
        (Nat.le_of_lt (ht.lt_root_of_mem hn hchild)) (ihchildren hsub)
  exact hchildren n.children (List.Subset.refl _)

theorem walks_root : t.Walks [t.root] (t.preorder t.root) := by
  simpa using ht.walks_cons (Nat.le_refl _) .done

theorem walk_eq_preorder : t.walk = t.preorder t.root :=
  ht.walks_root.walkFrom_eq (Nat.le_of_eq (by simpa [size] using ht.preorder_perm.length_eq))

end Rooted

theorem Made.rooted (ht : t.Made) : t.Rooted := by
  obtain ⟨b, root, source, hb, hbuild⟩ := ht.exists_build
  exact hb.rooted hbuild

/-- **Walking through a tree is going through it by recursion.** The loop over a stack comes to an
end, and the nodes that it has come by are the root and then those from its children down, from left
to right. They are all nodes, each once, and each stands before those that it lists. -/
theorem Made.walk_eq (ht : t.Made) :
    t.Walks [t.root] t.walk ∧ t.walk = t.preorder t.root ∧
    (∀ i n, t.nodes[i]? = some n → t.preorder i = n :: n.children.flatMap t.preorder) ∧
    t.walk.Perm t.nodes.toList ∧
    t.walk.Pairwise fun n m => n ≠ m ∧ n.index ∉ m.children := by
  have hrooted := ht.rooted
  rw [hrooted.walk_eq_preorder]
  exact ⟨hrooted.walks_root, rfl, fun i n hn => hrooted.preorder_eq hn, hrooted.preorder_perm,
    hrooted.pairwise_preorder (Nat.le_refl _)⟩

/-- A sum of a call and a number. -/
theorem Made.walk_eq_sum : ∃ t, parseText "MAX(1, -x) + 2" .standard .standard = .ok t ∧
    t.Walks [t.root] t.walk ∧ t.walk.map Node.index = [5, 3, 0, 2, 1, 4] ∧
    (t.preorder t.root).map Node.index = [5, 3, 0, 2, 1, 4] := by
  have hrun : (match parseText "MAX(1, -x) + 2" .standard .standard with
      | .ok t => t.walk.map Node.index == [5, 3, 0, 2, 1, 4]
      | .error _ => false) = true := by decide +kernel
  split at hrun
  · next t ht =>
    obtain ⟨hwalks, heq, _⟩ := (Tree.made_of_parseText ht).walk_eq
    exact ⟨t, ht, hwalks, beq_iff_eq.1 hrun, heq ▸ beq_iff_eq.1 hrun⟩
  · cases hrun

end Tree

end Reckon
