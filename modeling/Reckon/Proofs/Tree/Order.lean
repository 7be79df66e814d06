/-
The order in which the nodes of a tree are written. An infix operator stands
between its two operands, and any other operation before all of its own, which
stand one behind the other (`Expr.Arranged`). Where every operation of an
expression is so arranged, it is in the tree that shows the expression
(`Tree.inOrder_of_shows`).

What stands below a node of a tree are the parts of the expression that the node
shows, so its positions are among those of the expression.
-/
import Reckon.Proofs.Tree.Built

namespace Reckon

/-- The operation is written between two operands. -/
def Operation.isInfix (o : Operation) : Bool := !o.isFunction && !o.isUnary

/-! ## Expressions -/

namespace Expr

mutual

/-- The positions of an expression and its parts, in the order of its cells. -/
def positions : Expr → List Int
  | number _ position | var _ position => [position]
  | apply _ operands position => positionsAll operands ++ [position]
termination_by structural e => e

def positionsAll : List Expr → List Int
  | [] => []
  | e :: es => positions e ++ positionsAll es
termination_by structural es => es

end

mutual

theorem map_position_cells : ∀ (e : Expr) (base : Nat),
    (e.cells base).map Cell.position = e.positions
  | number _ _, _ | var _ _, _ => rfl
  | apply _ operands _, base => by simp [cells, positions, map_position_cellsAll operands]

theorem map_position_cellsAll : ∀ (es : List Expr) (base : Nat),
    (cellsAll base es).map Cell.position = positionsAll es
  | [], _ => rfl
  | e :: es, base => by
    simp [cellsAll, positionsAll, map_position_cells e, map_position_cellsAll es]

end

@[simp] theorem positionsAll_append (es es' : List Expr) :
    positionsAll (es ++ es') = positionsAll es ++ positionsAll es' := by
  induction es with
  | nil => rfl
  | cons e es ih => simp [positionsAll, ih]

theorem positionsAll_apply (o : Operation) (es : List Expr) (position : Int) :
    (positionsAll [.apply o es position]).Perm (position :: positionsAll es) := by
  simp [positionsAll, positions, List.perm_append_singleton]

theorem mem_positionsAll {es : List Expr} {p : Int} :
    p ∈ positionsAll es ↔ ∃ e ∈ es, p ∈ e.positions := by
  induction es with
  | nil => simp [positionsAll]
  | cons e es ih => simp [positionsAll, ih]

theorem position_mem (e : Expr) : e.position ∈ e.positions := by
  cases e <;> simp [position, positions]

/-- All of one expression stands before all of another. -/
def Precedes (e e' : Expr) : Prop := ∀ p ∈ e.positions, ∀ p' ∈ e'.positions, p < p'

/-- An infix operator stands between its two operands, and any other operation before its operands.
These stand one behind the other. -/
structure Arranged (o : Operation) (operands : List Expr) (position : Int) : Prop where
  between : o.isInfix = true → ∃ left right, operands = [left, right] ∧
    (∀ p ∈ left.positions, p < position) ∧ ∀ p ∈ right.positions, position < p
  before : o.isInfix = false → ∀ e ∈ operands, ∀ p ∈ e.positions, position < p
  successive : operands.Pairwise Precedes

mutual

/-- All operations are arranged. -/
def InOrder : Expr → Prop
  | number _ _ | var _ _ => True
  | apply o operands position => InOrderAll operands ∧ Arranged o operands position
termination_by structural e => e

def InOrderAll : List Expr → Prop
  | [] => True
  | e :: es => InOrder e ∧ InOrderAll es
termination_by structural es => es

end

theorem inOrderAll_iff {es : List Expr} : InOrderAll es ↔ ∀ e ∈ es, e.InOrder := by
  induction es with
  | nil => simp [InOrderAll]
  | cons e es ih => simp [InOrderAll, ih]

/-- Expressions in order, one behind the other. -/
structure Successive (es : List Expr) : Prop where
  inOrder : InOrderAll es
  precedes : es.Pairwise Precedes

namespace Successive

variable {es es' : List Expr} {o : Operation} {position : Int}

theorem nil : Successive [] := ⟨trivial, .nil⟩

theorem single {e : Expr} (h : e.InOrder) : Successive [e] :=
  ⟨⟨h, trivial⟩, List.pairwise_singleton _ _⟩

theorem append (h : Successive es) (h' : Successive es')
    (hcross : ∀ e ∈ es, ∀ e' ∈ es', e.Precedes e') : Successive (es ++ es') where
  inOrder := by
    rw [inOrderAll_iff, List.forall_mem_append, ← inOrderAll_iff, ← inOrderAll_iff]
    exact ⟨h.inOrder, h'.inOrder⟩
  precedes := List.pairwise_append.2 ⟨h.precedes, h'.precedes, hcross⟩

/-- An infix operator between two expressions. -/
theorem between {left right : Expr} (h : Successive [left, right]) (ho : o.isInfix = true)
    (hleft : ∀ p ∈ left.positions, p < position) (hright : ∀ p ∈ right.positions, position < p) :
    Successive [.apply o [left, right] position] := by
  refine single ⟨h.inOrder, fun _ => ⟨left, right, rfl, hleft, hright⟩, ?_, h.precedes⟩
  simp [ho]

/-- Any other operation before expressions. -/
theorem before (h : Successive es) (ho : o.isInfix = false)
    (hes : ∀ e ∈ es, ∀ p ∈ e.positions, position < p) :
    Successive [.apply o es position] := by
  refine single ⟨h.inOrder, ?_, fun _ => hes, h.precedes⟩
  simp [ho]

end Successive

end Expr

/-! ## Tables -/

section Table

variable {table : List Cell} {i k : Nat} {e : Expr} {c : Cell}

/-- What holds between expressions holds between the indices that show them. -/
theorem ShowsAll.pairwise {R : Expr → Expr → Prop} {S : Nat → Nat → Prop}
    (hRS : ∀ {e e' i i'}, Shows table i e → Shows table i' e' → R e e' → S i i') :
    ∀ {es : List Expr} {children : List Nat}, ShowsAll table children es → es.Pairwise R →
      children.Pairwise S
  | [], children, h, _ => by
    obtain rfl : children = [] := h
    exact .nil
  | e :: es, _, ⟨i, rest, hcons, he, hes⟩, hpairwise => by
    subst hcons
    obtain ⟨hfirst, hrest⟩ := List.pairwise_cons.1 hpairwise
    refine List.pairwise_cons.2 ⟨fun i' hi' => ?_, hes.pairwise hRS hrest⟩
    obtain ⟨e', he', hshows⟩ := hes.exists_of_mem hi'
    exact hRS he hshows (hfirst e' he')

/-- Whatever is below a node has its position in the expression that the node shows. -/
theorem Below.position_mem (h : Below table i k) (hc : table[k]? = some c)
    (he : Shows table i e) : c.position ∈ e.positions := by
  have hoperands (o : Operation) (operands : List Expr) (p : Int)
      (hsub : (Expr.apply o operands p).positions ⊆ e.positions) :
      ∀ e' ∈ operands, e'.positions ⊆ e.positions := fun e' he' p' hp' =>
    hsub (List.mem_append_left _ (Expr.mem_positionsAll.2 ⟨e', he', hp'⟩))
  obtain ⟨e', he', hsub⟩ := h.exists_shows (P := fun e' => e'.positions ⊆ e.positions) hoperands he
    (List.Subset.refl _)
  have hposition : e'.position = c.position := by
    rcases he'.cell hc with ⟨_, _, hposition⟩ | ⟨_, _, rfl, _⟩
    · exact hposition
    · rfl
  exact hposition ▸ hsub e'.position_mem

end Table

/-! ## Trees -/

/-- One of the nodes at an index and below it stands at the position. -/
def Tree.Occupies (t : Tree) (i : Nat) (p : Int) : Prop :=
  ∃ k n, Below t.cells i k ∧ t.nodes[k]? = some n ∧ n.position = p

/-- An infix operator stands between its two children with all that is below these, and any other
operation before all that is below it. Children stand one behind the other. -/
structure Node.Arranged (t : Tree) (n : Node) : Prop where
  between : ∀ o, n.item = .operation o → o.isInfix = true →
    ∃ left right, n.children = [left, right] ∧
      (∀ p, t.Occupies left p → p < n.position) ∧ ∀ p, t.Occupies right p → n.position < p
  before : ∀ o, n.item = .operation o → o.isInfix = false →
    ∀ child ∈ n.children, ∀ p, t.Occupies child p → n.position < p
  successive : n.children.Pairwise fun c c' =>
    ∀ p p', t.Occupies c p → t.Occupies c' p' → p < p'

namespace Tree

variable {t : Tree}

/-- All nodes are arranged. -/
def InOrder (t : Tree) : Prop := ∀ n ∈ t.nodes.toList, n.Arranged t

theorem Occupies.mem {i : Nat} {p : Int} (h : t.Occupies i p) {e : Expr}
    (he : Reckon.Shows t.cells i e) : p ∈ e.positions := by
  obtain ⟨k, n, hbelow, hn, rfl⟩ := h
  exact hbelow.position_mem (getElem?_cells hn) he

/-- A node that shows an expression in order is arranged. -/
theorem arranged_of_shows {i : Nat} {n : Node} (hn : t.nodes[i]? = some n) {e : Expr}
    (he : Reckon.Shows t.cells i e) (hin : e.InOrder) : n.Arranged t := by
  rcases he.cell (getElem?_cells hn) with ⟨hnil, hleaf, _⟩ | ⟨o, operands, rfl, hitem, hall⟩
  · have hnil : n.children = [] := hnil
    exact ⟨fun o ho => absurd ho (hleaf o), fun o ho => absurd ho (hleaf o), hnil ▸ .nil⟩
  have hitem : n.item = .operation o := hitem
  have harranged : Expr.Arranged o operands n.position := hin.2
  refine ⟨fun o' ho' hinfix => ?_, fun o' ho' hinfix child hchild p hp => ?_, ?_⟩
  · obtain rfl := Item.operation.inj (hitem.symm.trans ho')
    obtain ⟨l, r, rfl, hl, hr⟩ := harranged.between hinfix
    obtain ⟨left, _, hchildren, hleft, right, _, rfl, hright, rfl⟩ := hall
    exact ⟨left, right, hchildren, fun p hp => hl p (hp.mem hleft),
      fun p hp => hr p (hp.mem hright)⟩
  · obtain rfl := Item.operation.inj (hitem.symm.trans ho')
    obtain ⟨e', he', hshows⟩ := hall.exists_of_mem hchild
    exact harranged.before hinfix e' he' p (hp.mem hshows)
  · exact hall.pairwise (fun he he' hprecedes p p' hp hp' =>
      hprecedes p (hp.mem he) p' (hp'.mem he')) harranged.successive

/-- **The tree of an expression in order is in order.** -/
theorem inOrder_of_shows {e : Expr} (hshows : t.Shows e) (hin : e.InOrder)
    (hbelow : ∀ k < t.cells.length, Below t.cells t.root k) : t.InOrder := by
  intro n hn
  obtain ⟨i, hi⟩ := List.mem_iff_getElem?.1 hn
  have hi : t.nodes[i]? = some n := by rwa [← Array.getElem?_toList]
  have hlt : i < t.cells.length := (List.getElem?_eq_some_iff.1 (getElem?_cells hi)).1
  obtain ⟨e', he', hin'⟩ := (hbelow i hlt).exists_shows
    (fun _ _ _ hin => Expr.inOrderAll_iff.1 hin.1) hshows hin
  exact arranged_of_shows hi he' hin'

end Tree

end Reckon
