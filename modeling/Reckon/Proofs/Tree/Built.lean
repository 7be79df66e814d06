/-
The trees that a builder makes, in whatever order their nodes are added: every
child stands before its parent and only operations have children (`Ordered`), so
every node is the top of an expression (`Ordered.exists_shows`), of one only
(`Shows.unique`), and every node is below the root (`Below`).
-/
import Reckon.Proofs.Tree.Cells

namespace Reckon

/-- The builders that adding nodes leads to. A refused node leaves the builder as it is. -/
inductive Builder.Reached : Builder → Prop
  | empty : Reached {}
  | number {b} (value : Float) (position : Int) :
      Reached b → Reached (b.addLeaf (.number value) position).2
  | var {b} (name : String) (position : Int) :
      Reached b → Reached (b.addLeaf (.var name) position).2
  | operation {b o children position index b'} : Reached b →
      b.addOperation o children position = .ok (index, b') → Reached b'

/-- Children stand before their parents, and only operations have any. -/
def Ordered (table : List Cell) : Prop :=
  ∀ (i : Nat) (c : Cell), table[i]? = some c →
    (∀ child ∈ c.children, child < i) ∧ ((∃ o, c.item = .operation o) ∨ c.children = [])

theorem Ordered.push {table : List Cell} {c : Cell} (h : Ordered table)
    (hc : ∀ child ∈ c.children, child < table.length)
    (hleaf : (∃ o, c.item = .operation o) ∨ c.children = []) : Ordered (table ++ [c]) := by
  intro i c' hi
  by_cases hlt : i < table.length
  · rw [List.getElem?_append_left hlt] at hi
    exact h i c' hi
  · have hlast := (List.getElem?_eq_some_iff.1 hi).1
    rw [List.length_append, List.length_singleton] at hlast
    obtain rfl : i = table.length := by omega
    simp only [List.getElem?_concat_length, Option.some.injEq] at hi
    subst hi
    exact ⟨hc, hleaf⟩

namespace Builder

theorem checkChildren_eq_ok {b : Builder} : ∀ {children : List Int},
    b.checkChildren children = .ok () → ∀ child ∈ children, child.toNat < b.size
  | [], _ => by simp
  | child :: rest, h => by
    unfold checkChildren at h
    split at h
    · cases h
    next slot hslot =>
    split at h
    · cases h
    intro c hc
    rcases List.mem_cons.1 hc with rfl | hc
    · unfold slot? at hslot
      split at hslot
      · cases hslot
      · exact (Array.getElem?_eq_some_iff.1 hslot).1
    · exact checkChildren_eq_ok h c hc

theorem Reached.ordered {b : Builder} (h : b.Reached) : Ordered b.cells := by
  induction h with
  | empty => simp [Ordered, cells]
  | number | var =>
    rw [cells_addLeaf]
    exact Ordered.push ‹_› (by simp) (.inr rfl)
  | @operation b o children position index b' _ hadd ih =>
    obtain ⟨_, hcheck, hcells⟩ := addOperation_eq_ok hadd
    rw [hcells]
    refine ih.push (fun child hchild => ?_) (.inl ⟨o, rfl⟩)
    obtain ⟨c, hc, rfl⟩ := List.mem_map.1 hchild
    rw [length_cells]
    exact checkChildren_eq_ok hcheck c hc

end Builder

namespace Builder

mutual

/-- Adding an expression is adding its nodes. -/
theorem Reached.addExpr : ∀ (e : Expr) {b b' : Builder} {index : Nat}, b.Reached →
    b.addExpr e = .ok (index, b') → b'.Reached
  | .number x p, _, b', _, hb, h => by
    obtain rfl : _ = b' := congrArg Prod.snd (Except.ok.inj h)
    exact hb.number x p
  | .var x p, _, b', _, hb, h => by
    obtain rfl : _ = b' := congrArg Prod.snd (Except.ok.inj h)
    exact hb.var x p
  | .apply o es p, b, _, _, hb, h => by
    simp only [Builder.addExpr, bind_eq_ok] at h
    obtain ⟨⟨children, b₁⟩, hoperands, h⟩ := h
    exact (hb.addExprs es hoperands).operation h

theorem Reached.addExprs : ∀ (es : List Expr) {b b' : Builder} {indices : List Nat}, b.Reached →
    b.addExprs es = .ok (indices, b') → b'.Reached
  | [], _, b', _, hb, h => by
    obtain rfl : _ = b' := congrArg Prod.snd (Except.ok.inj h)
    exact hb
  | e :: es, b, _, _, hb, h => by
    simp only [Builder.addExprs, bind_eq_ok, pure_eq_ok, Prod.mk.injEq] at h
    obtain ⟨⟨_, b₁⟩, hfirst, ⟨_, b₂⟩, hothers, _, rfl⟩ := h
    exact (hb.addExpr e hfirst).addExprs es hothers

end

end Builder

/-- A table that a builder made a tree of. -/
theorem Builder.Reached.ordered_build {b : Builder} {root : Int} {source : Option String}
    {t : Tree} (hb : b.Reached) (h : b.build root source = .ok t) :
    Ordered t.cells ∧ t.root < t.cells.length := by
  obtain ⟨hcells, hroot, hlt, _⟩ := build_eq_ok h
  rw [hcells, hroot, length_cells]
  exact ⟨hb.ordered, hlt⟩

theorem Tree.ofExpr_built {e : Expr} {source : Option String} {t : Tree}
    (h : Tree.ofExpr e source = .ok t) :
    ∃ b : Builder, ∃ root : Int, b.Reached ∧ b.build root source = .ok t := by
  rw [ofExpr, bind_eq_ok] at h
  obtain ⟨⟨root, b⟩, hadd, h⟩ := h
  exact ⟨b, root, Builder.Reached.empty.addExpr e hadd, h⟩

/-! ## Reading expressions off a table -/

theorem exists_showsAll {table : List Cell} : ∀ {children : List Nat},
    (∀ child ∈ children, ∃ e, Shows table child e) → ∃ es, ShowsAll table children es
  | [], _ => ⟨[], rfl⟩
  | child :: rest, h => by
    obtain ⟨e, he⟩ := h child (by simp)
    obtain ⟨es, hes⟩ := exists_showsAll fun c hc => h c (List.mem_cons_of_mem _ hc)
    exact ⟨e :: es, child, rest, rfl, he, hes⟩

/-- Every node is the top of an expression. -/
theorem Ordered.exists_shows {table : List Cell} (h : Ordered table) (i : Nat)
    (hi : i < table.length) : ∃ e, Shows table i e := by
  induction i using Nat.strongRecOn with
  | ind i ih =>
    have hcell : table[i]? = some table[i] := List.getElem?_eq_getElem hi
    obtain ⟨hchildren, hleaf⟩ := h i _ hcell
    generalize table[i] = c at hcell hchildren hleaf
    obtain ⟨item, children, position⟩ := c
    cases item with
    | number value =>
      obtain rfl : children = [] := by simpa using hleaf
      exact ⟨.number value position, hcell⟩
    | var name =>
      obtain rfl : children = [] := by simpa using hleaf
      exact ⟨.var name position, hcell⟩
    | operation o =>
      obtain ⟨es, hes⟩ := exists_showsAll fun child hchild =>
        ih child (hchildren child hchild) (Nat.lt_trans (hchildren child hchild) hi)
      exact ⟨.apply o es position, children, hcell, hes⟩

mutual

/-- A node is the top of one expression only. -/
theorem Shows.unique {table : List Cell} : ∀ {e e' : Expr} {i : Nat},
    Shows table i e → Shows table i e' → e = e'
  | .number _ _, .number _ _, _, h, h' | .var _ _, .var _ _, _, h, h' => by
    simpa using Option.some.inj (h.symm.trans h')
  | .number _ _, .var _ _, _, h, h' | .var _ _, .number _ _, _, h, h' => by
    simpa using Option.some.inj (h.symm.trans h')
  | .number _ _, .apply _ _ _, _, h, ⟨_, h', _⟩ | .var _ _, .apply _ _ _, _, h, ⟨_, h', _⟩ => by
    simpa using Option.some.inj (h.symm.trans h')
  | .apply _ _ _, .number _ _, _, ⟨_, h, _⟩, h' | .apply _ _ _, .var _ _, _, ⟨_, h, _⟩, h' => by
    simpa using Option.some.inj (h.symm.trans h')
  | .apply o es p, .apply o' es' p', _, ⟨children, h, hes⟩, ⟨children', h', hes'⟩ => by
    have hcell := Option.some.inj (h.symm.trans h')
    simp only [Cell.mk.injEq, Item.operation.injEq] at hcell
    obtain ⟨rfl, rfl, rfl⟩ := hcell
    rw [ShowsAll.unique hes hes']

theorem ShowsAll.unique {table : List Cell} : ∀ {es es' : List Expr} {children : List Nat},
    ShowsAll table children es → ShowsAll table children es' → es = es'
  | [], [], _, _, _ => rfl
  | [], _ :: _, _, h, ⟨_, _, h', _⟩ => by
    have := h.symm.trans h'
    cases this
  | _ :: _, [], _, ⟨_, _, h, _⟩, h' => by
    have := h.symm.trans h'
    cases this
  | e :: es, e' :: es', _, ⟨i, rest, h, he, hes⟩, ⟨i', rest', h', he', hes'⟩ => by
    obtain ⟨rfl, rfl⟩ := List.cons.inj (h.symm.trans h')
    rw [Shows.unique he he', ShowsAll.unique hes hes']

end

/-! ## Below the root -/

/-- The way from one node down to another goes from parents to children. -/
inductive Below (table : List Cell) : Nat → Nat → Prop
  | refl {i} : Below table i i
  | child {i c child k} : table[i]? = some c → child ∈ c.children → Below table child k →
      Below table i k

theorem Below.snoc {table : List Cell} {i k child : Nat} {c : Cell} (h : Below table i k)
    (hk : table[k]? = some c) (hchild : child ∈ c.children) : Below table i child := by
  induction h with
  | refl => exact .child hk hchild .refl
  | child hi hmem _ ih => exact .child hi hmem (ih hk)

section Table

variable {table : List Cell} {i k : Nat} {e : Expr} {c : Cell}

/-- A cell is a leaf, or an operation over what its children show. -/
theorem Shows.cell (h : Shows table i e) (hc : table[i]? = some c) :
    (c.children = [] ∧ (∀ o, c.item ≠ .operation o) ∧ e.position = c.position) ∨
      ∃ o operands, e = .apply o operands c.position ∧ c.item = .operation o ∧
        ShowsAll table c.children operands := by
  cases e with
  | number | var =>
    obtain rfl := Option.some.inj (hc.symm.trans h)
    exact .inl ⟨rfl, nofun, rfl⟩
  | apply o operands p =>
    obtain ⟨children, hcell, hshows⟩ := h
    obtain rfl := Option.some.inj (hc.symm.trans hcell)
    exact .inr ⟨o, operands, rfl, rfl, hshows⟩

/-- What stands at one of the indices is one of the expressions. -/
theorem ShowsAll.exists_of_mem : ∀ {es : List Expr} {children : List Nat} {child : Nat},
    ShowsAll table children es → child ∈ children → ∃ e ∈ es, Shows table child e
  | [], children, _, h, hmem => by
    obtain rfl : children = [] := h
    cases hmem
  | e :: es, _, child, ⟨i, rest, hcons, he, hes⟩, hmem => by
    subst hcons
    rcases List.mem_cons.1 hmem with rfl | hmem
    · exact ⟨e, List.mem_cons_self, he⟩
    · obtain ⟨e', he', hshows⟩ := hes.exists_of_mem hmem
      exact ⟨e', List.mem_cons_of_mem _ he', hshows⟩

/-- What passes from operations to their operands passes to all that is below. -/
theorem Below.exists_shows {P : Expr → Prop}
    (hP : ∀ o operands position, P (.apply o operands position) → ∀ e ∈ operands, P e)
    (h : Below table i k) :
    ∀ {e : Expr}, Shows table i e → P e → ∃ e', Shows table k e' ∧ P e' := by
  induction h with
  | refl => exact fun he hp => ⟨_, he, hp⟩
  | child hi hmem _ ih =>
    intro e he hp
    rcases he.cell hi with ⟨hnil, _⟩ | ⟨o, operands, rfl, _, hall⟩
    · simp [hnil] at hmem
    · obtain ⟨e', he', hshows⟩ := hall.exists_of_mem hmem
      exact ih hshows (hP o operands _ hp e' he')

end Table

namespace Builder

/-- Every node with a depth is below the root. -/
def DepthsBelow (table : List Cell) (root : Nat) (depths : Array (Option Nat)) : Prop :=
  ∀ (k d : Nat), depths[k]? = some (some d) → Below table root k

theorem DepthsBelow.set {table : List Cell} {root : Nat} {depths : Array (Option Nat)}
    (h : DepthsBelow table root depths) {index : Nat} (hindex : Below table root index)
    (depth : Nat) : DepthsBelow table root (depths.setIfInBounds index (some depth)) := by
  intro k d hk
  by_cases heq : index = k
  · exact heq ▸ hindex
  · rw [Array.getElem?_setIfInBounds_ne heq] at hk
    exact h k d hk

theorem DepthsBelow.setAll {table : List Cell} {root depth : Nat} :
    ∀ {children : List Nat} {depths : Array (Option Nat)}, DepthsBelow table root depths →
      (∀ child ∈ children, Below table root child) →
      DepthsBelow table root
        (children.foldl (fun depths child => depths.setIfInBounds child (some depth)) depths)
  | [], _, h, _ => h
  | child :: rest, depths, h, hbelow => by
    have hrest : ∀ c ∈ rest, Below table root c := fun c hc => hbelow c (List.mem_cons_of_mem _ hc)
    rw [List.foldl_cons]
    exact setAll (h.set (hbelow child List.mem_cons_self) depth) hrest

theorem DepthsBelow.deepen {b : Builder} {root : Nat} {depths : Array (Option Nat)}
    (h : DepthsBelow b.cells root depths) (index : Nat) :
    DepthsBelow b.cells root (Builder.deepen b.slots depths index) := by
  unfold Builder.deepen
  split
  · next slot depth hslot hdepth =>
    have hbelow : Below b.cells root index :=
      h index depth (by simpa [Option.join_eq_some_iff] using hdepth)
    have hcell : b.cells[index]? = some slot.cell := by
      simp [cells, hslot]
    exact h.setAll fun child hchild => hbelow.snoc hcell hchild
  · exact h

theorem DepthsBelow.descend {b : Builder} {root : Nat} :
    ∀ {index : Nat} {depths : Array (Option Nat)}, DepthsBelow b.cells root depths →
      DepthsBelow b.cells root (Builder.descend b.slots index depths)
  | 0, _, h => h.deepen 0
  | index + 1, _, h => (h.deepen (index + 1)).descend

theorem size_deepen (slots : Array Slot) (depths : Array (Option Nat)) (index : Nat) :
    (deepen slots depths index).size = depths.size := by
  unfold deepen
  split
  · next slot depth _ _ =>
    generalize slot.children = children
    have hfold (depths : Array (Option Nat)) :
        (children.foldl (fun depths child => depths.setIfInBounds child (some (depth + 1)))
          depths).size = depths.size := by
      induction children generalizing depths with
      | nil => rfl
      | cons child children ih => rw [List.foldl_cons, ih, Array.size_setIfInBounds]
    exact hfold depths
  · rfl

theorem size_descend (slots : Array Slot) : ∀ (index : Nat) (depths : Array (Option Nat)),
    (descend slots index depths).size = depths.size
  | 0, depths => size_deepen slots depths 0
  | index + 1, depths => by
    rw [descend, size_descend slots index, size_deepen]

/-- **In a tree that is built every node is below the root.** -/
theorem build_below {b : Builder} {root : Int} {source : Option String} {t : Tree}
    (h : b.build root source = .ok t) (k : Nat) (hk : k < t.cells.length) :
    Below t.cells t.root k := by
  obtain ⟨hcells, hroot, _, _, hreach⟩ := build_eq_ok h
  rw [hcells, length_cells] at hk
  rw [hcells, hroot]
  have hbelow : DepthsBelow b.cells root.toNat (depthsFrom b.slots root.toNat) := by
    refine DepthsBelow.descend (DepthsBelow.set (fun k d hkd => ?_) .refl 1)
    simp [Array.getElem?_replicate] at hkd
  have hsize : (depthsFrom b.slots root.toNat).size = b.size := by
    rw [depthsFrom, size_descend, Array.size_setIfInBounds, Array.size_replicate, size]
  rw [← hsize] at hk
  have hdepth : (depthsFrom b.slots root.toNat)[k].isNone = false := by
    rw [← Bool.not_eq_true]
    intro hnone
    rw [← Bool.not_eq_true] at hreach
    exact hreach (Array.any_eq_true.2 ⟨k, hk, hnone⟩)
  obtain ⟨d, hd⟩ := Option.isSome_iff_exists.1 (Option.isNone_eq_false_iff.1 hdepth)
  exact hbelow k d (Array.getElem?_eq_some_iff.2 ⟨hk, hd⟩)

end Builder

end Reckon
