/-
The trees that there are: those that a builder makes after any calls, and those
of the parser, whose builder is one of these (`Tree.Made.exists_build`). Their
nodes stand behind their children, and the last of them is the root. The
operations of a parsed tree are negation and the registered ones, each with as
many operands as it takes (`Grammar.operation_of_parse`).
-/
import Reckon.Proofs.Grammar.Growth
import Reckon.Proofs.Grammar.Outcomes

namespace Reckon

/-- The trees that a builder or the parser makes. -/
inductive Tree.Made : Tree → Prop
  | built {b root source t} : b.Reached → Builder.build b root source = .ok t → Made t
  | parsed {g tokens t} : Grammar.parse g tokens = .ok t → Made t

theorem Tree.mem_of_getElem? {t : Tree} {k : Nat} {n : Node} (hn : t.nodes[k]? = some n) :
    n ∈ t.nodes.toList :=
  List.mem_of_getElem? (by rwa [Array.getElem?_toList])

namespace Tree.Made

variable {t : Tree} (ht : t.Made)

include ht

theorem exists_build : ∃ (b : Builder) (root : Int) (source : Option String),
    b.Reached ∧ b.build root source = .ok t := by
  cases ht with
  | @built b root source _ hb hbuild => exact ⟨b, root, source, hb, hbuild⟩
  | parsed hparse =>
    obtain ⟨b, root, hb, _, hbuild⟩ := Grammar.exists_filled_of_parseWithin hparse
    exact ⟨b, root, _, hb, hbuild⟩

theorem root_last : t.root + 1 = t.nodes.size := by
  obtain ⟨b, root, source, hb, hbuild⟩ := ht.exists_build
  exact hb.root_last hbuild

theorem exists_rootNode : ∃ n, t.nodes[t.root]? = some n := by
  have hlast := ht.root_last
  exact ⟨_, Array.getElem?_eq_getElem (by omega)⟩

/-- Children stand before their parents. -/
theorem child_lt {k : Nat} {n : Node} (hn : t.nodes[k]? = some n) {child : Nat}
    (hchild : child ∈ n.children) : child < k := by
  obtain ⟨b, root, source, hb, hbuild⟩ := ht.exists_build
  exact ((hb.ordered_build hbuild).1 k n.cell (getElem?_cells hn)).1 child hchild

end Tree.Made

/-! ## Variables -/

/-- What a fold collects is what its steps collect. -/
theorem mem_foldl_iff {α β : Type} {step : List β → α → List β} {b : β} {P : α → Prop}
    (h : ∀ bs a, b ∈ step bs a ↔ b ∈ bs ∨ P a) (as : List α) (bs : List β) :
    b ∈ as.foldl step bs ↔ b ∈ bs ∨ ∃ a ∈ as, P a := by
  induction as generalizing bs with
  | nil => simp
  | cons a as ih =>
    rw [List.foldl_cons, ih, h]
    simp [or_assoc]

theorem Tree.mem_variableNames {t : Tree} {name : String} :
    name ∈ t.variableNames ↔ ∃ n ∈ t.nodes.toList, n.item = .var name := by
  rw [variableNames, mem_foldl_iff (P := fun n => n.item = .var name)]
  · simp
  · intro names n
    cases n.item with
    | number | operation => simp
    | var other =>
      by_cases hmem : other ∈ names <;> by_cases heq : other = name <;> simp_all [eq_comm]

/-! ## Operations -/

section Operations

variable {P : Operation → Nat → Prop}

mutual

/-- What holds of the operations of an expression holds of its cells. -/
theorem Expr.Operations.cells : ∀ {e : Expr} {base : Nat}, e.Operations P →
    ∀ c ∈ e.cells base, ∀ o, c.item = .operation o → P o c.children.length
  | .number _ _, _, _, c, hc, o, ho | .var _ _, _, _, c, hc, o, ho => by
    obtain rfl := List.mem_singleton.1 hc
    cases ho
  | .apply o' operands position, base, h, c, hc, o, ho => by
    rw [Expr.cells, List.mem_append, List.mem_singleton] at hc
    rcases hc with hc | rfl
    · exact Expr.OperationsAll.cells h.1 c hc o ho
    · obtain rfl := Item.operation.inj ho
      simpa using h.2

theorem Expr.OperationsAll.cells : ∀ {es : List Expr} {base : Nat}, Expr.OperationsAll P es →
    ∀ c ∈ Expr.cellsAll base es, ∀ o, c.item = .operation o → P o c.children.length
  | [], _, _, _, hc, _, _ => by cases hc
  | e :: es, base, h, c, hc, o, ho => by
    rw [Expr.cellsAll, List.mem_append] at hc
    rcases hc with hc | hc
    · exact h.1.cells c hc o ho
    · exact Expr.OperationsAll.cells h.2 c hc o ho

end

/-- The operations of a parsed tree are negation and the registered ones. -/
theorem Grammar.operation_of_parse {g : Grammar} (hr : g.registry.Reached)
    (hP : ∀ o ∈ g.registry.operations, ∀ count : Nat, o.accepts count = true → P o count)
    (hnegation : P .negation 1) {tokens : List Token} {t : Tree} (h : g.parse tokens = .ok t) :
    ∀ n ∈ t.nodes.toList, ∀ o, n.item = .operation o → P o n.children.length := by
  obtain ⟨e, hwhole, htree⟩ := parse_eq_ok h
  obtain ⟨d, hd, hacc, hes, _⟩ := whole_derives hwhole
  have hcells := (Tree.ofExpr_eq_ok htree).1
  intro n hn o ho
  have hcell : n.cell ∈ e.cells 0 := hcells ▸ List.mem_map_of_mem hn
  exact (hd.operations hP hnegation hr hacc hes).cells n.cell hcell o ho

end Operations

/-! ## Texts -/

/-- The tree of a text is that of its tokens. -/
theorem exists_parse_of_parseText {source : String} {r : Registry} {limits : Limits} {t : Tree}
    (h : parseText source r limits = .ok t) :
    ∃ tokens, Grammar.parse ⟨r, limits, some source⟩ tokens = .ok t := by
  rw [parseText, bind_eq_ok] at h
  obtain ⟨tokens, _, hparse⟩ := h
  exact ⟨tokens, hparse⟩

theorem Tree.made_of_parseText {source : String} {r : Registry} {limits : Limits} {t : Tree}
    (h : parseText source r limits = .ok t) : t.Made := by
  obtain ⟨tokens, hparse⟩ := exists_parse_of_parseText h
  exact .parsed hparse

end Reckon
