/-
The tables that trees are laid out in. A cell is what a node says by itself:
its item, its children and its position. An expression has a table of its own,
in post-order (`Expr.cells`), and that is what the builder makes of it
(`Tree.ofExpr_eq_ok`). Where a table has the cells of an expression, the top
one shows the expression (`Shows`).
-/
import Reckon.Proofs.Expr
import Reckon.Proofs.Outcome

namespace Reckon

/-- A node without its place in the tree. -/
structure Cell where
  item : Item
  children : List Nat
  position : Int

def Node.cell (n : Node) : Cell := ⟨n.item, n.children, n.position⟩

def Slot.cell (s : Slot) : Cell := ⟨s.item, s.children, s.position⟩

/-- The cells of a tree, by index. -/
def Tree.cells (t : Tree) : List Cell := t.nodes.toList.map Node.cell

@[simp] theorem Tree.length_cells (t : Tree) : t.cells.length = t.size := by
  simp [cells, size]

theorem Tree.getElem?_cells {t : Tree} {i : Nat} {n : Node} (h : t.nodes[i]? = some n) :
    t.cells[i]? = some n.cell := by
  simp [cells, h]

def Builder.cells (b : Builder) : List Cell := b.slots.toList.map Slot.cell

/-! ## What a table shows -/

mutual

/-- The cell of an index is the top of an expression, with its operands below it in order. -/
def Shows (table : List Cell) (index : Nat) : Expr → Prop
  | .number value position => table[index]? = some ⟨.number value, [], position⟩
  | .var name position => table[index]? = some ⟨.var name, [], position⟩
  | .apply o operands position => ∃ children,
      table[index]? = some ⟨.operation o, children, position⟩ ∧ ShowsAll table children operands
termination_by structural e => e

/-- The cells of the indices are the tops of expressions. -/
def ShowsAll (table : List Cell) (indices : List Nat) : List Expr → Prop
  | [] => indices = []
  | e :: es => ∃ index rest, indices = index :: rest ∧ Shows table index e ∧ ShowsAll table rest es
termination_by structural es => es

end

/-- The root of the tree is the top of the expression. -/
def Tree.Shows (t : Tree) (e : Expr) : Prop := Reckon.Shows t.cells t.root e

/-! ## The table of an expression -/

namespace Expr

/-- The index of the top of an expression whose cells begin at an index. -/
def top (base : Nat) (e : Expr) : Nat := base + e.size - 1

/-- The tops of expressions that follow each other. -/
def tops (base : Nat) : List Expr → List Nat
  | [] => []
  | e :: es => e.top base :: tops (base + e.size) es

mutual

/-- The cells of an expression from an index on: those of the operands one after the other, and
then the top. -/
def cells (base : Nat) : Expr → List Cell
  | number value position => [⟨.number value, [], position⟩]
  | var name position => [⟨.var name, [], position⟩]
  | apply o operands position =>
    cellsAll base operands ++ [⟨.operation o, tops base operands, position⟩]
termination_by structural e => e

def cellsAll (base : Nat) : List Expr → List Cell
  | [] => []
  | e :: es => cells base e ++ cellsAll (base + size e) es
termination_by structural es => es

end

mutual

@[simp] theorem length_cells (base : Nat) : ∀ e : Expr, (e.cells base).length = e.size
  | number _ _ | var _ _ => by simp [cells, size]
  | apply _ operands _ => by simp [cells, size, length_cellsAll base operands]

@[simp] theorem length_cellsAll (base : Nat) :
    ∀ es : List Expr, (cellsAll base es).length = sizeAll es
  | [] => by simp [cellsAll, sizeAll]
  | e :: es => by simp [cellsAll, sizeAll, length_cells base e, length_cellsAll _ es]

end

mutual

/-- The cells of an expression show it. -/
theorem shows_cells {table : List Cell} {base : Nat} :
    ∀ (e : Expr) (before after : List Cell), table = before ++ (e.cells base ++ after) →
      before.length = base → Shows table (e.top base) e
  | number _ _, _, _, ht, hb => by simp [ht, hb, Shows, cells, top, size]
  | var _ _, _, _, ht, hb => by simp [ht, hb, Shows, cells, top, size]
  | apply _ operands _, before, after, ht, hb => by
    simp only [cells, List.append_assoc] at ht
    refine ⟨_, ?_, showsAll_cells operands before _ ht hb⟩
    simp [ht, hb, top, size]

theorem showsAll_cells {table : List Cell} {base : Nat} :
    ∀ (es : List Expr) (before after : List Cell),
      table = before ++ (cellsAll base es ++ after) → before.length = base →
      ShowsAll table (tops base es) es
  | [], _, _, _, _ => by simp [ShowsAll, tops]
  | e :: es, before, after, ht, hb => by
    simp only [cellsAll, List.append_assoc] at ht
    have hrest : table = (before ++ e.cells base) ++ (cellsAll (base + e.size) es ++ after) := by
      simp [ht]
    exact ⟨_, _, rfl, shows_cells e before _ ht hb,
      showsAll_cells es _ after hrest (by simp [hb])⟩

end

end Expr

/-! ## Building -/

namespace Builder

@[simp] theorem length_cells (b : Builder) : b.cells.length = b.size := by
  simp [cells, size]

@[simp] theorem cells_addLeaf (b : Builder) (item : Item) (position : Int) :
    (b.addLeaf item position).2.cells = b.cells ++ [⟨item, [], position⟩] := by
  simp [addLeaf, cells, Slot.cell]

/-- Adopting changes no cell. -/
theorem cells_adopt (slots : Array Slot) (parent : Nat) (children : List Nat) :
    (adopt slots parent children).toList.map Slot.cell = slots.toList.map Slot.cell := by
  unfold adopt
  induction children generalizing slots with
  | nil => rfl
  | cons child children ih =>
    rw [List.foldl_cons, ih, Array.toList_modify]
    refine List.ext_getElem? fun i => ?_
    rw [List.getElem?_map, List.getElem?_map, List.getElem?_modify]
    cases slots.toList[i]? with
    | none => rfl
    | some s =>
      simp only [Option.map_eq_map, Option.map_some, Slot.cell]
      split <;> rfl

/-- All that has been checked when an operation is added, and what is added. -/
theorem addOperation_checked {b b' : Builder} {o : Operation} {children : List Int}
    {position : Int} {index : Nat}
    (h : b.addOperation o children position = .ok (index, b')) :
    o.accepts children.length = true ∧ children.Nodup ∧ b.checkChildren children = .ok () ∧
      index = b.size ∧ b'.slots = adopt
        (b.slots.push { item := .operation o, children := children.map Int.toNat, position })
        b.size (children.map Int.toNat) := by
  unfold addOperation at h
  by_cases ha : o.accepts children.length = true
  · by_cases hn : children.Nodup
    · simp only [ha, hn, Bool.not_true, Bool.false_eq_true, if_false, decide_true,
        bind_eq_ok, pure_eq_ok, Prod.mk.injEq] at h
      obtain ⟨_, hcheck, rfl, rfl⟩ := h
      exact ⟨ha, hn, hcheck, rfl, rfl⟩
    · simp [ha, hn, throw, throwThe, MonadExceptOf.throw, bind, Except.bind] at h
  · simp [ha, throw, throwThe, MonadExceptOf.throw, bind, Except.bind] at h

theorem addOperation_eq_ok {b b' : Builder} {o : Operation} {children : List Int}
    {position : Int} {index : Nat}
    (h : b.addOperation o children position = .ok (index, b')) :
    index = b.size ∧ b.checkChildren children = .ok () ∧
      b'.cells = b.cells ++ [⟨.operation o, children.map Int.toNat, position⟩] := by
  obtain ⟨_, _, hcheck, hindex, hslots⟩ := addOperation_checked h
  refine ⟨hindex, hcheck, ?_⟩
  simp [cells, hslots, cells_adopt, Slot.cell]

mutual

/-- **Adding an expression adds its table.** -/
theorem addExpr_eq_ok : ∀ {e : Expr} {b b' : Builder} {index : Nat},
    b.addExpr e = .ok (index, b') →
      index = e.top b.size ∧ b'.cells = b.cells ++ e.cells b.size
  | .number _ _, b, b', index, h | .var _ _, b, b', index, h => by
    simp only [addExpr, addLeaf, Except.ok.injEq, Prod.mk.injEq] at h
    obtain ⟨rfl, rfl⟩ := h
    simp [Expr.top, Expr.size, Expr.cells, cells, Slot.cell]
  | .apply o operands position, b, b', index, h => by
    simp only [addExpr, bind_eq_ok] at h
    obtain ⟨⟨children, b₁⟩, hoperands, h⟩ := h
    obtain ⟨rfl, hcells⟩ := addExprs_eq_ok hoperands
    obtain ⟨rfl, _, hlast⟩ := addOperation_eq_ok h
    have hsize : b₁.size = b.size + Expr.sizeAll operands := by
      rw [← length_cells b₁, hcells]
      simp
    refine ⟨by simp [hsize, Expr.top, Expr.size], ?_⟩
    rw [hlast, hcells]
    simp [Expr.cells, Function.comp_def]

theorem addExprs_eq_ok : ∀ {es : List Expr} {b b' : Builder} {indices : List Nat},
    b.addExprs es = .ok (indices, b') →
      indices = Expr.tops b.size es ∧ b'.cells = b.cells ++ Expr.cellsAll b.size es
  | [], b, b', indices, h => by
    simp only [addExprs, Except.ok.injEq, Prod.mk.injEq] at h
    obtain ⟨rfl, rfl⟩ := h
    simp [Expr.tops, Expr.cellsAll]
  | e :: es, b, b', indices, h => by
    simp only [addExprs, bind_eq_ok, pure_eq_ok, Prod.mk.injEq] at h
    obtain ⟨⟨first, b₁⟩, hfirst, ⟨others, b₂⟩, hothers, rfl, rfl⟩ := h
    obtain ⟨rfl, hcells⟩ := addExpr_eq_ok hfirst
    obtain ⟨rfl, hcells'⟩ := addExprs_eq_ok hothers
    have hsize : b₁.size = b.size + e.size := by
      rw [← length_cells b₁, hcells]
      simp
    rw [hsize] at hcells' ⊢
    exact ⟨rfl, by simp [hcells', hcells, Expr.cellsAll]⟩

end

/-- The depth that a node is given. -/
def depthAt (depths : Array (Option Nat)) (index : Nat) : Nat := ((depths[index]?).join).getD 1

/-- The node that a slot becomes, with its index and its depth. -/
def nodeOf (depths : Array (Option Nat)) (index : Nat) (slot : Slot) : Node where
  index := index
  item := slot.item
  children := slot.children
  parent := slot.parent
  position := slot.position
  depth := depthAt depths index

/-- What has been checked of a root, and the tree made of it. -/
theorem build_made {b : Builder} {root : Int} {source : Option String} {t : Tree}
    (h : b.build root source = .ok t) :
    (∃ slot, b.slots[root.toNat]? = some slot ∧ slot.parent = none) ∧
      (depthsFrom b.slots root.toNat).any Option.isNone = false ∧
      t = {
        nodes := b.slots.mapIdx (nodeOf (depthsFrom b.slots root.toNat))
        root := root.toNat
        source
        depth := (depthsFrom b.slots root.toNat).foldl (fun most d => max most (d.getD 1)) 1 } := by
  unfold build at h
  split at h
  · cases h
  next slot hslot =>
  split at h
  · cases h
  next hparent =>
  simp only at h
  split at h
  · cases h
  next hreach =>
  refine ⟨⟨slot, ?_, by simpa using hparent⟩, by simpa using hreach, (Except.ok.inj h).symm⟩
  unfold slot? at hslot
  split at hslot
  · cases hslot
  · exact hslot

theorem build_eq_ok {b : Builder} {root : Int} {source : Option String} {t : Tree}
    (h : b.build root source = .ok t) :
    t.cells = b.cells ∧ t.root = root.toNat ∧ root.toNat < b.size ∧ t.source = source ∧
      (depthsFrom b.slots root.toNat).any Option.isNone = false := by
  obtain ⟨⟨slot, hslot, _⟩, hreach, rfl⟩ := build_made h
  refine ⟨?_, rfl, (Array.getElem?_eq_some_iff.1 hslot).1, rfl, hreach⟩
  refine List.ext_getElem? fun i => ?_
  simp only [Tree.cells, cells, List.getElem?_map, Array.toList_mapIdx, List.getElem?_mapIdx]
  cases b.slots.toList[i]? <;> rfl

end Builder

/-- **The tree of an expression has its table.** -/
theorem Tree.ofExpr_eq_ok {e : Expr} {source : Option String} {t : Tree}
    (h : Tree.ofExpr e source = .ok t) :
    t.cells = e.cells 0 ∧ t.root = e.top 0 ∧ t.source = source := by
  rw [ofExpr, bind_eq_ok] at h
  obtain ⟨⟨root, b⟩, hadd, h⟩ := h
  obtain ⟨rfl, hcells⟩ := Builder.addExpr_eq_ok hadd
  obtain ⟨htable, hroot, _, hsource, _⟩ := Builder.build_eq_ok h
  exact ⟨htable.trans hcells, hroot, hsource⟩

/-- Its root shows the expression. -/
theorem Tree.shows_ofExpr {e : Expr} {source : Option String} {t : Tree}
    (h : Tree.ofExpr e source = .ok t) : t.Shows e := by
  obtain ⟨hcells, hroot, _⟩ := ofExpr_eq_ok h
  rw [Tree.Shows, hroot]
  exact Expr.shows_cells e [] [] (by simpa using hcells) rfl

end Reckon
