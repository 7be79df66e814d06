/-
Trees of expressions that are alike: the tables have the same shape, and their
nodes are alike one by one (`Likeness.TreeLike`). Building looks at children and
parents only, which are indices, so it goes the same way for both; and so does
parsing, up to the count of nodes (`Likeness.parse_like`).
-/
import Reckon.Proofs.Grammar.Likeness

namespace Reckon

namespace Likeness

variable (ρ : Likeness)

/-! ## What trees are made of -/

inductive ItemLike : Item → Item → Prop
  | number {x} : ItemLike (.number x) (.number x)
  | var {name} : ItemLike (.var name) (.var name)
  | operation {o o'} : ρ.operation o o' → ItemLike (.operation o) (.operation o')

structure SlotLike (s s' : Slot) : Prop where
  item : ρ.ItemLike s.item s'.item
  children : s'.children = s.children
  parent : s'.parent = s.parent
  position : ρ.position s.position s'.position

structure NodeLike (n n' : Node) : Prop where
  index : n'.index = n.index
  item : ρ.ItemLike n.item n'.item
  children : n'.children = n.children
  parent : n'.parent = n.parent
  position : ρ.position n.position n'.position
  depth : n'.depth = n.depth

/-- The slots of the builders are alike, index by index. -/
def SlotsLike (slots slots' : Array Slot) : Prop :=
  ∀ i : Nat, Option.Rel ρ.SlotLike slots[i]? slots'[i]?

structure TreeLike (t t' : Tree) : Prop where
  nodes : ∀ i : Nat, Option.Rel ρ.NodeLike t.nodes[i]? t'.nodes[i]?
  root : t'.root = t.root
  source : ρ.source t.source t'.source
  depth : t'.depth = t.depth

variable {ρ}

theorem size_eq_of_rel {α β : Type} {R : α → β → Prop} {as : Array α} {bs : Array β}
    (h : ∀ i : Nat, Option.Rel R as[i]? bs[i]?) : bs.size = as.size := by
  have hnone (i : Nat) : as[i]? = none ↔ bs[i]? = none := by
    have hi := h i
    generalize as[i]? = a at hi ⊢
    generalize bs[i]? = b at hi ⊢
    cases hi <;> simp
  have hle := Array.getElem?_eq_none_iff.1 ((hnone as.size).1 (by simp))
  have hge := Array.getElem?_eq_none_iff.1 ((hnone bs.size).2 (by simp))
  omega

namespace SlotsLike

variable {slots slots' : Array Slot} (h : ρ.SlotsLike slots slots')

include h

theorem size_eq : slots'.size = slots.size := size_eq_of_rel h

theorem push {s s' : Slot} (hs : ρ.SlotLike s s') :
    ρ.SlotsLike (slots.push s) (slots'.push s') := by
  intro i
  rw [Array.getElem?_push, Array.getElem?_push, h.size_eq]
  split
  · exact .some hs
  · exact h i

theorem modify (child parent : Nat) :
    ρ.SlotsLike (slots.modify child fun s => { s with parent := some parent })
      (slots'.modify child fun s => { s with parent := some parent }) := by
  intro i
  have hi := h i
  rw [Array.getElem?_modify, Array.getElem?_modify]
  split
  · generalize slots[i]? = s at hi ⊢
    generalize slots'[i]? = s' at hi ⊢
    cases hi with
    | none => exact .none
    | some hs => exact .some { hs with parent := rfl }
  · exact hi

omit h in
theorem adopt (parent : Nat) : ∀ (children : List Nat) {slots slots' : Array Slot},
    ρ.SlotsLike slots slots' →
      ρ.SlotsLike (Builder.adopt slots parent children) (Builder.adopt slots' parent children)
  | [], _, _, h => h
  | child :: children, _, _, h => adopt parent children (h.modify child parent)

/-! ## Depths -/

theorem deepen_eq (depths : Array (Option Nat)) (index : Nat) :
    Builder.deepen slots' depths index = Builder.deepen slots depths index := by
  have hi := h index
  unfold Builder.deepen
  generalize slots[index]? = s at hi ⊢
  generalize slots'[index]? = s' at hi ⊢
  cases hi with
  | none => rfl
  | some hs =>
    cases (depths[index]?).join with
    | none => rfl
    | some depth => simp only [hs.children]

theorem descend_eq : ∀ (index : Nat) (depths : Array (Option Nat)),
    Builder.descend slots' index depths = Builder.descend slots index depths
  | 0, depths => h.deepen_eq depths 0
  | index + 1, depths => by
    rw [Builder.descend, Builder.descend, h.deepen_eq, descend_eq index]

theorem depthsFrom_eq (root : Nat) :
    Builder.depthsFrom slots' root = Builder.depthsFrom slots root := by
  rw [Builder.depthsFrom, Builder.depthsFrom, h.size_eq, h.descend_eq]

end SlotsLike

/-! ## Builders -/

section Builder

variable {b b' : Builder} (h : ρ.SlotsLike b.slots b'.slots)

include h

theorem slot?_like (index : Int) :
    Option.Rel ρ.SlotLike (b.slot? index) (b'.slot? index) := by
  unfold Builder.slot?
  split
  · exact .none
  · exact h _

theorem checkChildren_eq :
    ∀ children : List Int, b'.checkChildren children = b.checkChildren children
  | [] => rfl
  | child :: rest => by
    have hslot := slot?_like h child
    rw [Builder.checkChildren, Builder.checkChildren, checkChildren_eq rest]
    generalize b.slot? child = s at hslot ⊢
    generalize b'.slot? child = s' at hslot ⊢
    cases hslot with
    | none => rfl
    | some hs => simp only [hs.parent]

/-- An index, and builders that are alike. -/
def AddedLike {α : Type} (ρ : Likeness) (p p' : α × Builder) : Prop :=
  p'.1 = p.1 ∧ ρ.SlotsLike p.2.slots p'.2.slots

theorem addLeaf_like {item : Item} (hitem : ρ.ItemLike item item) {position position' : Int}
    (hposition : ρ.position position position') :
    ρ.AddedLike (b.addLeaf item position) (b'.addLeaf item position') :=
  ⟨h.size_eq, h.push ⟨hitem, rfl, rfl, hposition⟩⟩

theorem addOperation_like {o o' : Operation} (ho : ρ.operation o o') (children : List Int)
    {position position' : Int} (hposition : ρ.position position position') :
    Reckon.Alike Eq ρ.AddedLike (b.addOperation o children position)
      (b'.addOperation o' children position') := by
  rw [Builder.addOperation, Builder.addOperation, accepts_eq ho, operandCount_eq ho, name_eq ho,
    checkChildren_eq h]
  dsimp only
  split
  · exact .error rfl
  split
  · exact .error rfl
  refine (Reckon.Alike.refl (R := Eq) (fun _ => rfl) (fun _ => rfl) _).bind fun _ _ _ => ?_
  refine .ok ⟨h.size_eq, ?_⟩
  have hsize : b'.size = b.size := h.size_eq
  simp only [hsize]
  exact .adopt _ _ (h.push ⟨.operation ho, rfl, rfl, hposition⟩)

theorem build_like {source source' : Option String} (hsource : ρ.source source source')
    (root : Int) : Reckon.Alike Eq ρ.TreeLike (b.build root source) (b'.build root source') := by
  have hslot := slot?_like h root
  unfold Builder.build
  generalize b.slot? root = s at hslot ⊢
  generalize b'.slot? root = s' at hslot ⊢
  cases hslot with
  | none => exact .error rfl
  | some hs =>
    simp only [hs.parent, h.depthsFrom_eq]
    split
    · exact .error rfl
    · split
      · exact .error rfl
      · refine .ok ⟨fun i => ?_, rfl, hsource, rfl⟩
        have hi := h i
        dsimp only
        rw [Array.getElem?_mapIdx, Array.getElem?_mapIdx]
        generalize b.slots[i]? = s at hi ⊢
        generalize b'.slots[i]? = s' at hi ⊢
        cases hi with
        | none => exact .none
        | some hs => exact .some { hs with index := rfl, depth := rfl }

end Builder

/-! ## Expressions -/

mutual

theorem addExpr_like {e e' : Expr} (he : ρ.ExprLike e e') {b b' : Builder}
    (h : ρ.SlotsLike b.slots b'.slots) :
    Reckon.Alike Eq ρ.AddedLike (b.addExpr e) (b'.addExpr e') := by
  cases he with
  | number hposition => exact .ok (addLeaf_like h .number hposition)
  | var hposition => exact .ok (addLeaf_like h .var hposition)
  | apply ho hes hposition =>
    rw [Builder.addExpr, Builder.addExpr]
    refine (addExprs_like hes h).bind fun p p' hp => ?_
    dsimp only
    rw [hp.1]
    exact addOperation_like hp.2 ho _ hposition

theorem addExprs_like {es es' : List Expr} (hes : ρ.ExprsLike es es') {b b' : Builder}
    (h : ρ.SlotsLike b.slots b'.slots) :
    Reckon.Alike Eq ρ.AddedLike (b.addExprs es) (b'.addExprs es') := by
  cases hes with
  | nil => exact .ok ⟨rfl, h⟩
  | cons he hes =>
    rw [Builder.addExprs, Builder.addExprs]
    refine (addExpr_like he h).bind fun p p' hp => ?_
    refine (addExprs_like hes hp.2).bind fun q q' hq => ?_
    refine .ok ⟨?_, hq.2⟩
    dsimp only
    rw [hp.1, hq.1]

end

theorem ofExpr_like {e e' : Expr} (he : ρ.ExprLike e e') {source source' : Option String}
    (hsource : ρ.source source source') :
    Reckon.Alike Eq ρ.TreeLike (Tree.ofExpr e source) (Tree.ofExpr e' source') := by
  rw [Tree.ofExpr, Tree.ofExpr]
  refine (addExpr_like he fun i => by simp).bind fun p p' hp => ?_
  dsimp only
  rw [hp.1]
  exact build_like hp.2 hsource _

/-- **Tokens that are alike are parsed alike.** -/
theorem parse_like {g g' : Grammar} (hlimits : g'.limits = g.limits)
    (hsource : ρ.source g.source g'.source) {tokens tokens' : List Token}
    (h : List.Forall₂ (ρ.TokenLike g.registry g'.registry) tokens tokens') :
    ρ.Alike ρ.TreeLike (g.parse tokens) (g'.parse tokens') := by
  rw [Grammar.parse_eq_whole, Grammar.parse_eq_whole]
  refine (whole_like hlimits hsource h).bind fun e e' he => ?_
  rw [Grammar.finish, Grammar.finish, hlimits]
  have htree : ρ.Alike ρ.TreeLike ((Tree.ofExpr e g.source).mapError fun e => .fault e.fault)
      ((Tree.ofExpr e' g'.source).mapError fun e => .fault e.fault) :=
    (ofExpr_like he hsource).mapError _ _ fun e e' he => he ▸ .fault _
  refine htree.bind fun t t' ht => ?_
  have hsize : t'.size = t.size := size_eq_of_rel ht.nodes
  rw [hsize]
  exact (alike_self _).bind fun _ _ _ => .ok ht

/-! ## Operations replaced -/

end Likeness

def Item.mapOperation (φ : Operation → Operation) : Item → Item
  | .operation o => .operation (φ o)
  | item => item

/-- The tree with its operations replaced. -/
def Tree.mapOperations (φ : Operation → Operation) (t : Tree) : Tree :=
  { t with nodes := t.nodes.map fun n => { n with item := n.item.mapOperation φ } }

@[simp] theorem Item.mapOperation_id (item : Item) : item.mapOperation id = item := by
  cases item <;> rfl

@[simp] theorem Tree.mapOperations_id (t : Tree) : t.mapOperations id = t := by
  simp [mapOperations]

namespace Likeness

variable {ρ : Likeness}

/-- Operations are replaced by a function, and nothing else differs. -/
structure Replaces (ρ : Likeness) (φ : Operation → Operation) : Prop where
  operation : ∀ {o o'}, ρ.operation o o' → o' = φ o
  position : ∀ {p p'}, ρ.position p p' → p' = p
  source : ∀ {s s'}, ρ.source s s' → s' = s

theorem same_replaces : same.Replaces id := ⟨Eq.symm, Eq.symm, Eq.symm⟩

theorem ItemLike.eq_map {φ : Operation → Operation} {i i' : Item} (h : ρ.ItemLike i i')
    (hφ : ∀ {o o'}, ρ.operation o o' → o' = φ o) : i' = i.mapOperation φ := by
  cases h with
  | number | var => rfl
  | operation ho => rw [hφ ho, Item.mapOperation]

theorem eq_of_rel {α : Type} {R : α → α → Prop} (hR : ∀ {a b}, R a b → b = a) {a b : Option α}
    (h : Option.Rel R a b) : b = a := by
  cases h with
  | none => rfl
  | some hab => rw [hR hab]

section Replaces

variable {φ : Operation → Operation} (hρ : ρ.Replaces φ)

include hρ

theorem TreeLike.eq_map {t t' : Tree} (h : ρ.TreeLike t t') : t' = t.mapOperations φ := by
  obtain ⟨nodes, root, source, depth⟩ := t
  obtain ⟨nodes', root', source', depth'⟩ := t'
  have hnodes : nodes' = nodes.map fun n => { n with item := n.item.mapOperation φ } := by
    refine Array.ext_getElem? fun i => ?_
    have hi := h.nodes i
    dsimp only at hi
    rw [Array.getElem?_map]
    generalize nodes[i]? = n at hi ⊢
    generalize nodes'[i]? = n' at hi ⊢
    cases hi with
    | none => rfl
    | @some n n' hn =>
      rw [Option.map_some, Option.some.injEq, Node.mk.injEq]
      exact ⟨hn.index, hn.item.eq_map hρ.operation, hn.children, hn.parent,
        hρ.position hn.position, hn.depth⟩
  rw [Tree.mapOperations, Tree.mk.injEq]
  exact ⟨hnodes, h.root, hρ.source h.source, h.depth⟩

theorem DiagnosticLike.eq {d d' : Diagnostic} (h : ρ.DiagnosticLike d d') : d' = d := by
  obtain ⟨cause, position, source⟩ := d
  obtain ⟨cause', position', source'⟩ := d'
  rw [Diagnostic.mk.injEq]
  exact ⟨h.cause, eq_of_rel hρ.position h.position, hρ.source h.source⟩

theorem FailureLike.eq {f f' : Failure} (h : ρ.FailureLike f f') : f' = f := by
  cases h with
  | diagnostic hd => rw [hd.eq hρ]
  | fault => rfl

/-- What is alike but for its operations is the same with these replaced. -/
theorem Replaces.eq_map {x y : Except Failure Tree} (h : ρ.Alike ρ.TreeLike x y) :
    y = x.map (·.mapOperations φ) := by
  cases h with
  | ok ht => rw [ht.eq_map hρ, Except.map]
  | error hf => rw [hf.eq hρ, Except.map]

end Replaces

theorem eq_of_alike {x y : Except Failure Tree} (h : same.Alike same.TreeLike x y) : y = x := by
  rw [same_replaces.eq_map h]
  cases x <;> simp [Except.map]

end Likeness

end Reckon
