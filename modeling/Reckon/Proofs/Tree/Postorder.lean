/-
The nodes of a parsed tree are numbered in post-order: those below a node have
successive indices that end with its own, the parts below its children follow
each other in the order of the children, and the root comes last
(`Grammar.parse_postorder`).

The parser fills its builder so, part by part (`Grammar.growing`), and what is said
of whole parts of a table follows from that (`Filled`).
-/
import Reckon.Proofs.Grammar.Growth
import Reckon.Proofs.Tree.Preorder

namespace Reckon

/-! ## Parts of a table -/

/-- A node and all that is below it are what the table has from one index up to the node. -/
def Spans (table : List Cell) (first i : Nat) : Prop :=
  ∀ k, Below table i k ↔ first ≤ k ∧ k ≤ i

/-- Each node spans what begins where the one before it ends; together they reach from one index up
to another. -/
inductive SpansAll (table : List Cell) : Nat → List Nat → Nat → Prop
  | nil {first} : SpansAll table first [] first
  | cons {first i rest stop} : Spans table first i → SpansAll table (i + 1) rest stop →
      SpansAll table first (i :: rest) stop

namespace Filled

variable {table : List Cell} {first stop : Nat} {is : List Nat}

theorem le (h : Filled table first is stop) : first ≤ stop := by
  induction h with
  | nil => exact Nat.le_refl _
  | cons _ _ _ ih ih' => omega

theorem below_iff (h : Filled table first is stop) (k : Nat) :
    (∃ i ∈ is, Below table i k) ↔ first ≤ k ∧ k < stop := by
  induction h with
  | nil =>
    simp
  | @cons first i c rest stop hc hchildren hrest ih ih' =>
    have hle := hchildren.le
    have hle' := hrest.le
    have hi : Below table i k ↔ first ≤ k ∧ k ≤ i := by
      constructor
      · intro hbelow
        cases hbelow with
        | refl => exact ⟨hle, Nat.le_refl _⟩
        | @child _ c' child _ hcell hmem hbelow =>
          obtain rfl := Option.some.inj (hc.symm.trans hcell)
          have := ih.1 ⟨child, hmem, hbelow⟩
          omega
      · rintro ⟨hfirst, hlast⟩
        rcases Nat.lt_or_eq_of_le hlast with hlt | rfl
        · obtain ⟨child, hmem, hbelow⟩ := ih.2 ⟨hfirst, hlt⟩
          exact .child hc hmem hbelow
        · exact .refl
    simp only [List.mem_cons, exists_eq_or_imp, hi, ih']
    omega

/-- A node of a part spans what its children fill, and itself. -/
theorem spans {i : Nat} {c : Cell} (hc : table[i]? = some c)
    (h : Filled table first c.children i) : Spans table first i := fun k => by
  have := (Filled.cons hc h .nil).below_iff k
  simp only [List.mem_singleton, exists_eq_left] at this
  rw [this]
  omega

theorem spansAll (h : Filled table first is stop) : SpansAll table first is stop := by
  induction h with
  | nil => exact .nil
  | cons hc hchildren _ _ ih => exact .cons (spans hc hchildren) ih

/-- The children of every node of a part fill a part of it. -/
theorem exists_of_lt (h : Filled table first is stop) {k : Nat} (hfirst : first ≤ k)
    (hstop : k < stop) : ∃ c low, table[k]? = some c ∧ Filled table low c.children k := by
  induction h with
  | nil => omega
  | @cons first i c rest stop hc hchildren _ ih ih' =>
    rcases Nat.lt_trichotomy k i with hlt | rfl | hlt
    · exact ih hfirst hlt
    · exact ⟨c, first, hc, hchildren⟩
    · exact ih' hlt hstop

end Filled

/-! ## Post-order -/

namespace Tree

variable {t : Tree}

/-- The nodes from an index down in post-order: those from its children down, from left to right,
and then the node there. Children that do not stand before their parent are passed over. -/
def postorder (t : Tree) (i : Nat) : List Node :=
  match t.nodes[i]? with
  | none => []
  | some n => (n.children.flatMap fun child => if child < i then t.postorder child else []) ++ [n]
termination_by i

/-- The nodes from one index up to another. -/
def segment (t : Tree) (first stop : Nat) : List Node := (t.nodes.toList.take stop).drop first

theorem segment_append {first middle stop : Nat} (h : first ≤ middle) (h' : middle ≤ stop) :
    t.segment first middle ++ t.segment middle stop = t.segment first stop := by
  have hdrop (ns : List Node) : ns.drop middle = (ns.drop first).drop (middle - first) := by
    rw [List.drop_drop, Nat.add_sub_cancel' h]
  unfold segment
  rw [← Nat.min_eq_left h', ← List.take_take, List.drop_take, Nat.min_eq_left h', hdrop,
    List.take_append_drop]

theorem segment_self {i : Nat} {n : Node} (hn : t.nodes[i]? = some n) :
    t.segment i (i + 1) = [n] := by
  rw [← Array.getElem?_toList] at hn
  rw [segment, List.drop_take, Nat.add_sub_cancel_left]
  obtain ⟨hi, rfl⟩ := List.getElem?_eq_some_iff.1 hn
  rw [List.drop_eq_getElem_cons hi, List.take_succ_cons, List.take_zero]

theorem segment_all : t.segment 0 t.size = t.nodes.toList := by
  rw [segment, size, ← Array.length_toList, List.take_length, List.drop_zero]

namespace Rooted

variable (ht : t.Rooted)

include ht

theorem postorder_eq {i : Nat} {n : Node} (hn : t.nodes[i]? = some n) :
    t.postorder i = n.children.flatMap t.postorder ++ [n] := by
  rw [postorder, hn]
  refine congrArg (· ++ [n]) (List.flatMap_congr fun child hchild => ?_)
  rw [if_pos (ht.child_lt i n hn child hchild)]

/-- Where nodes fill a part of the table, their post-orders are the nodes of that part. -/
theorem flatMap_postorder {first stop : Nat} {is : List Nat} (h : Filled t.cells first is stop) :
    is.flatMap t.postorder = t.segment first stop := by
  induction h with
  | nil => simp [segment]
  | @cons first i c rest stop hc hchildren hrest ih ih' =>
    obtain ⟨n, hn, rfl⟩ := exists_of_getElem?_cells hc
    have hleft : n.children.flatMap t.postorder = t.segment first i := ih
    calc (i :: rest).flatMap t.postorder
        = (t.segment first i ++ [n]) ++ t.segment (i + 1) stop := by
          rw [List.flatMap_cons, ht.postorder_eq hn, hleft, ih']
      _ = (t.segment first i ++ t.segment i (i + 1)) ++ t.segment (i + 1) stop := by
          rw [segment_self hn]
      _ = t.segment first stop := by
          have hle := hchildren.le
          rw [segment_append hle (Nat.le_succ i), segment_append (by omega) hrest.le]

end Rooted

end Tree

/-- **Parsed trees are numbered in post-order.** Going by the indices is going from the root by
recursion, the children of each node from left to right and then the node; the root comes last. Each
node with all that is below it spans successive indices that end with its own, and what its children
span follows one behind the other, from where the node's own part begins up to the node. -/
theorem Grammar.parse_postorder {g : Grammar} {tokens : List Token} {t : Tree}
    (h : g.parse tokens = .ok t) :
    t.nodes.toList = t.postorder t.root ∧ t.root + 1 = t.size ∧
    ∀ (i : Nat) (n : Node), t.nodes[i]? = some n →
      n.index = i ∧ t.postorder i = n.children.flatMap t.postorder ++ [n] ∧
      ∃ first, t.postorder i = t.segment first (i + 1) ∧ Spans t.cells first i ∧
        SpansAll t.cells first n.children i := by
  obtain ⟨b, root, hb, hfilled, hbuild⟩ := exists_filled_of_parseWithin h
  have ht := hb.rooted hbuild
  obtain ⟨hcells, hroot, _⟩ := Builder.build_eq_ok hbuild
  have hlast : t.root + 1 = t.size := ht.root_last
  replace hfilled : Filled t.cells 0 [t.root] t.size := by
    rw [← t.length_cells, hcells, hroot, Builder.length_cells]
    exact hfilled
  refine ⟨?_, hlast, fun i n hn => ?_⟩
  · simpa [Tree.segment_all] using (ht.flatMap_postorder hfilled).symm
  · have hi : i < t.size := (Array.getElem?_eq_some_iff.1 hn).1
    obtain ⟨c, first, hc, hchildren⟩ := hfilled.exists_of_lt (Nat.zero_le i) hi
    obtain rfl := Tree.cell_eq hn hc
    refine ⟨ht.index i n hn, ht.postorder_eq hn, first, ?_, hchildren.spans hc,
      hchildren.spansAll⟩
    simpa using ht.flatMap_postorder (.cons hc hchildren .nil)

/-- A sum of a call and a number. The call spans the first four nodes: its first argument, what is
negated in the second, the negation, and itself. -/
theorem Grammar.parse_postorder_sum :
    ∃ t, Grammar.parse ⟨.standard, .standard, none⟩ [⟨.function, "MAX", 0⟩, ⟨.leftParen, "(", 3⟩,
        ⟨.number, "1", 4⟩, ⟨.comma, ",", 5⟩, ⟨.operator, "-", 7⟩, ⟨.identifier, "x", 8⟩,
        ⟨.rightParen, ")", 9⟩, ⟨.operator, "+", 11⟩, ⟨.number, "2", 13⟩, ⟨.finish, "", 14⟩] =
          .ok t ∧
      t.nodes.toList.map Node.children = [[], [], [1], [0, 2], [], [3, 4]] ∧
      t.nodes.toList = t.postorder t.root ∧ t.postorder 3 = t.segment 0 4 ∧
      Spans t.cells 0 3 ∧ SpansAll t.cells 0 [0, 2] 3 := by
  have hrun : (match Grammar.parse ⟨.standard, .standard, none⟩ [⟨.function, "MAX", 0⟩,
        ⟨.leftParen, "(", 3⟩, ⟨.number, "1", 4⟩, ⟨.comma, ",", 5⟩, ⟨.operator, "-", 7⟩,
        ⟨.identifier, "x", 8⟩, ⟨.rightParen, ")", 9⟩, ⟨.operator, "+", 11⟩, ⟨.number, "2", 13⟩,
        ⟨.finish, "", 14⟩] with
      | .ok t => t.nodes.toList.map Node.children == [[], [], [1], [0, 2], [], [3, 4]]
      | .error _ => false) = true := by decide +kernel
  split at hrun
  · next t ht =>
    have hchildren := beq_iff_eq.1 hrun
    obtain ⟨hall, _, hparts⟩ := Grammar.parse_postorder ht
    have hthird : (t.nodes.toList.map Node.children)[3]? = some [0, 2] := by rw [hchildren]; rfl
    obtain ⟨n, hn, hlist⟩ : ∃ n, t.nodes[3]? = some n ∧ n.children = [0, 2] := by
      simpa using hthird
    obtain ⟨_, _, first, hpost, hspans, hspansAll⟩ := hparts 3 n hn
    rw [hlist] at hspansAll
    obtain rfl : first = 0 := by
      cases hspansAll with
      | cons hfirst _ => exact Nat.le_zero.1 ((hfirst 0).1 .refl).1
    exact ⟨t, ht, hchildren, hall, hpost, hspans, hspansAll⟩
  · cases hrun

end Reckon
