/-
Trees that are alike evaluate alike (`Likeness.evaluate_like`): positions and
sources go into failures and nowhere else, and of an operation evaluation uses
the name and the reducer.

Trees that differ in positions and sources only are the same once these are
blotted out (`Tree.unplaced`). They have the same number under all bindings and
policies, or failures of the same cause.
-/
import Reckon.Proofs.Evaluation.Pass
import Reckon.Proofs.Tree.Likeness

namespace Reckon

namespace Likeness

variable {ρ : Likeness}

/-- The same bindings and the same policy. -/
structure EvaluatorLike (ρ : Likeness) (E E' : Evaluator) : Prop where
  bindings : E'.bindings = E.bindings
  policy : E'.policy = E.policy
  source : ρ.source E.source E'.source

section Nodes

variable {E E' : Evaluator} (hE : ρ.EvaluatorLike E E') {position position' : Int}
  (hposition : ρ.position position position')

include hE hposition

theorem failureAt_like (cause : Cause) :
    ρ.FailureLike (E.failureAt position cause) (E'.failureAt position' cause) :=
  .diagnostic ⟨rfl, .some hposition, hE.source⟩

theorem numberAt_like (d : Datum) :
    ρ.Alike Eq (E.numberAt position d) (E'.numberAt position' d) := by
  cases d with
  | int i =>
    unfold Evaluator.numberAt
    dsimp only
    cases intToFloat? i with
    | none => exact .error (.fault _)
    | some x => exact .ok rfl
  | real x => exact .ok rfl
  | null | bool | text | list | record | foreign =>
    exact .error (failureAt_like hE hposition _)

theorem variableAt_like (name : String) :
    ρ.Alike Eq (E.variableAt position name) (E'.variableAt position' name) := by
  unfold Evaluator.variableAt
  rw [hE.bindings]
  split
  · exact .error (failureAt_like hE hposition _)
  · exact .ok rfl
  · exact (numberAt_like hE hposition _).map _ _ fun _ _ => congrArg some

theorem applyAt_like {o o' : Operation} (ho : ρ.operation o o') (numbers : List Float) :
    ρ.Alike Eq (E.applyAt position o numbers) (E'.applyAt position' o' numbers) := by
  unfold Evaluator.applyAt Operation.apply
  rw [reducer_eq ho, name_eq ho]
  cases o.reducer numbers with
  | ok d => exact numberAt_like hE hposition d
  | error f =>
    cases f with
    | diagnostic d => exact .error (.refl _)
    | fault f =>
      dsimp only
      split
      · exact .error (failureAt_like hE hposition _)
      · exact .error (.fault f)

omit hposition in
theorem valueAt_like {n n' : Node} (hn : ρ.NodeLike n n') (results : Array (Option Float)) :
    ρ.Alike Eq (E.valueAt results n) (E'.valueAt results n') := by
  obtain ⟨index, item, children, parent, position, depth⟩ := n
  obtain ⟨index', item', children', parent', position', depth'⟩ := n'
  have hposition := hn.position
  have hchildren := hn.children
  have hitem := hn.item
  dsimp only at hposition hchildren hitem
  cases hitem with
  | number => exact .ok rfl
  | var => exact variableAt_like hE hposition _
  | @operation o o' ho =>
    rw [Evaluator.valueAt_operation rfl, Evaluator.valueAt_operation rfl, hE.policy, Node.operands,
      Node.operands]
    dsimp only
    rw [hchildren]
    split
    · rw [name_eq ho]
      exact .error (failureAt_like hE hposition _)
    · exact (applyAt_like hE hposition ho _).map _ _ fun _ _ => congrArg some

end Nodes

section Trees

theorem forall₂_of_getElem? {α β : Type} {R : α → β → Prop} : ∀ {as : List α} {bs : List β},
    (∀ i : Nat, Option.Rel R as[i]? bs[i]?) → List.Forall₂ R as bs
  | [], [], _ => .nil
  | [], _ :: _, h => by cases h 0
  | _ :: _, [], h => by cases h 0
  | a :: as, b :: bs, h => by
    have hab : Option.Rel R (some a) (some b) := h 0
    cases hab with
    | some hab => exact .cons hab (forall₂_of_getElem? fun i => h (i + 1))

variable {E E' : Evaluator} (hE : ρ.EvaluatorLike E E')

include hE

theorem pass_like {nodes nodes' : List Node} (h : List.Forall₂ ρ.NodeLike nodes nodes') :
    ∀ results, ρ.Alike Eq (E.pass results nodes) (E'.pass results nodes') := by
  induction h with
  | nil => exact fun _ => .ok rfl
  | cons hn _ ih =>
    intro results
    rw [Evaluator.pass, Evaluator.pass]
    refine (valueAt_like hE hn results).bind fun v v' hv => ?_
    rw [← hv]
    exact ih _

theorem numberOf_like {t t' : Tree} (ht : ρ.TreeLike t t') :
    ρ.Alike Eq (E.numberOf t) (E'.numberOf t') := by
  have hnodes : List.Forall₂ ρ.NodeLike t.nodes.toList t'.nodes.toList :=
    forall₂_of_getElem? fun i => by simpa using ht.nodes i
  rw [Evaluator.numberOf, Evaluator.numberOf]
  refine (pass_like hE hnodes #[]).bind fun results results' hresults => ?_
  rw [← hresults, ht.root, hE.policy]
  split
  · exact .ok rfl
  · have hroot : Option.Rel ρ.NodeLike t.rootNode? t'.rootNode? := by
      rw [Tree.rootNode?, Tree.rootNode?, ht.root]
      exact ht.nodes t.root
    generalize t.rootNode? = n at hroot ⊢
    generalize t'.rootNode? = n' at hroot ⊢
    cases E.policy with
    | nullAsZero => exact .ok rfl
    | dropNull | throwOnNull =>
      cases hroot with
      | none => exact .error (.fault _)
      | some hn => exact .error (failureAt_like hE hn.position _)

end Trees

/-- **Trees that are alike evaluate alike.** -/
theorem evaluate_like {t t' : Tree} (ht : ρ.TreeLike t t') (bindings : Bindings)
    (policy : NullPolicy) :
    ρ.Alike Eq (t.evaluate bindings policy) (t'.evaluate bindings policy) := by
  have hE : ρ.EvaluatorLike ⟨bindings, policy, t.source⟩ ⟨bindings, policy, t'.source⟩ :=
    ⟨rfl, rfl, ht.source⟩
  rw [Tree.evaluate_eq, Tree.evaluate_eq]
  exact numberOf_like hE ht

end Likeness

/-! ## Positions and sources -/

/-- The tree as if all its tokens stood at the beginning of an unknown source. -/
def Tree.unplaced (t : Tree) : Tree :=
  { t with
    nodes := t.nodes.map fun n => { n with position := 0 }
    source := none }

/-- What differs in positions and sources only is the same without them. -/
theorem Likeness.TreeLike.unplaced_eq {t t' : Tree} (h : Likeness.unplaced.TreeLike t t') :
    t'.unplaced = t.unplaced := by
  have hid {o o' : Operation} (ho : o = o') : o' = id o := ho.symm
  have hnodes : t'.unplaced.nodes = t.unplaced.nodes := by
    refine Array.ext_getElem? fun i => ?_
    have hi := h.nodes i
    simp only [Tree.unplaced, Array.getElem?_map]
    generalize t.nodes[i]? = n at hi ⊢
    generalize t'.nodes[i]? = n' at hi ⊢
    cases hi with
    | none => rfl
    | some hn =>
      rw [Option.map_some, Option.map_some, hn.index, hn.item.eq_map hid, Item.mapOperation_id,
        hn.children, hn.parent, hn.depth]
  rw [Tree.unplaced, Tree.unplaced, Tree.mk.injEq]
  exact ⟨hnodes, h.root, rfl, h.depth⟩

end Reckon
