/-
What parsing does to its builder. Each function of the parser adds nodes behind
those that are there already, which it leaves as they are, and what it adds is
the nodes of one part of the expression, each right behind all that is below it
(`Builder.Grows`, `Grammar.growing`).

While a part is parsed the tops of the parts before it wait in the builder: the
left operand of an operator while the right one is parsed, the arguments of a
call while the others are. What they fill stays filled (`Filled.mono`), so the
parts lie one behind the other (`Builder.Grows.append`) when the operation comes
that they wait for, and it comes right behind them (`Builder.Grows.combine`).
-/
import Reckon.Proofs.Tree.Built
import Reckon.Tree.Parsing

namespace Reckon

/-! ## Parts of a table -/

/-- The nodes and all that is below them fill the table from one index up to another, one behind the
other, and so do the children of each, up to the node itself. -/
inductive Filled (table : List Cell) : Nat → List Nat → Nat → Prop
  | nil {first} : Filled table first [] first
  | cons {first i c rest stop} : table[i]? = some c → Filled table first c.children i →
      Filled table (i + 1) rest stop → Filled table first (i :: rest) stop

namespace Filled

variable {table table' : List Cell} {first middle stop : Nat} {is js : List Nat}

theorem append (h : Filled table first is middle) (h' : Filled table middle js stop) :
    Filled table first (is ++ js) stop := by
  induction h with
  | nil => exact h'
  | cons hc hchildren _ _ ih => exact .cons hc hchildren (ih h')

/-- What is filled stays filled when the table grows. -/
theorem mono (htable : table <+: table') (h : Filled table first is stop) :
    Filled table' first is stop := by
  induction h with
  | nil => exact .nil
  | @cons first i c rest stop hc _ _ ih ih' =>
    have hc' : table'[i]? = some c := by
      obtain ⟨added, rfl⟩ := htable
      rw [List.getElem?_append_left (List.getElem?_eq_some_iff.1 hc).1, hc]
    exact .cons hc' ih ih'

end Filled

/-! ## Steps of a builder -/

/-- A leaf that is added is a part by itself. -/
theorem Builder.filled_addLeaf (b : Builder) (item : Item) (position : Int) :
    Filled (b.addLeaf item position).2.cells b.size [b.size] (b.addLeaf item position).2.size := by
  have hcell : (b.addLeaf item position).2.cells[b.size]? = some ⟨item, [], position⟩ := by
    simp [← length_cells]
  rw [size_addLeaf]
  exact .cons hcell .nil .nil

/-- From one builder to another nodes have been added. The older ones are as they were, and the new
ones are those of the indices with all that is below them. -/
structure Builder.Grows (b : Builder) (indices : List Nat) (b' : Builder) : Prop where
  reached : b.Reached → b'.Reached
  kept : b.cells <+: b'.cells
  filled : Filled b'.cells b.size indices b'.size

namespace Builder.Grows

variable {b b₁ b₂ : Builder} {is js : List Nat}

theorem nil (b : Builder) : b.Grows [] b where
  reached := id
  kept := List.prefix_rfl
  filled := .nil

/-- What is added later lies behind what waits already. -/
theorem append (h : b.Grows is b₁) (h' : b₁.Grows js b₂) : b.Grows (is ++ js) b₂ where
  reached hb := h'.reached (h.reached hb)
  kept := h.kept.trans h'.kept
  filled := (h.filled.mono h'.kept).append h'.filled

theorem number (b : Builder) (value : Float) (position : Int) :
    b.Grows [b.size] (b.addLeaf (.number value) position).2 where
  reached hb := hb.number value position
  kept := by simp
  filled := filled_addLeaf b _ _

theorem var (b : Builder) (name : String) (position : Int) :
    b.Grows [b.size] (b.addLeaf (.var name) position).2 where
  reached hb := hb.var name position
  kept := by simp
  filled := filled_addLeaf b _ _

/-- An operation comes right behind what waits for it, and nothing but the operation waits then. -/
theorem combine (h : b.Grows is b₁) {o : Operation} {position : Int} {i : Nat}
    (hop : Grammar.combine b₁ o is position = .ok (i, b₂)) : b.Grows [i] b₂ := by
  have hadd := mapError_eq_ok.1 hop
  obtain ⟨rfl, -, hcells⟩ := addOperation_eq_ok hadd
  have hkept : b₁.cells <+: b₂.cells := ⟨_, hcells.symm⟩
  have hcell : b₂.cells[b₁.size]? = some ⟨.operation o, is, position⟩ := by
    simp [hcells, ← length_cells, Function.comp_def]
  have hsize : b₂.size = b₁.size + 1 := by
    rw [← length_cells b₂, hcells]
    simp
  exact {
    reached := fun hb => (h.reached hb).operation hadd
    kept := h.kept.trans hkept
    filled := .cons hcell (h.filled.mono hkept) (hsize ▸ .nil) }

end Builder.Grows

namespace Grammar

variable {g : Grammar}

/-! ## The loops -/

theorem grows_operators {operand : Int → Builder → Cursor → Parsed}
    (hoperand : ∀ {floor b c i b' after}, operand floor b c = .ok (i, b', after) → b.Grows [i] b')
    {floor : Int} {b₀ : Builder} : ∀ {count left b c i b' after}, b₀.Grows [left] b →
      parseOperators g operand floor count left b c = .ok (i, b', after) → b₀.Grows [i] b'
  | 0, left, b, c, i, b', after, hleft, h => by
    obtain ⟨rfl, rfl, -⟩ : left = i ∧ b = b' ∧ c = after := by simpa [parseOperators] using h
    exact hleft
  | count + 1, left, b, c, i, b', after, hleft, h => by
    simp only [parseOperators] at h
    split at h
    · obtain ⟨rfl, rfl, -⟩ : left = i ∧ b = b' ∧ c = after := by simpa using h
      exact hleft
    split at h
    · obtain ⟨rfl, rfl, -⟩ : left = i ∧ b = b' ∧ c = after := by simpa using h
      exact hleft
    simp only [bind_eq_ok] at h
    obtain ⟨⟨right, b₁, next⟩, hright, ⟨node, b₂⟩, hnode, h⟩ := h
    have hboth := hleft.append (hoperand hright)
    exact grows_operators hoperand (hboth.combine hnode) h

section Arguments

variable {argument : Builder → Cursor → Parsed}
  (hargument : ∀ {b c i b' after}, argument b c = .ok (i, b', after) → b.Grows [i] b')

include hargument

theorem grows_further : ∀ {count b c is b' after},
    parseFurther argument count b c = .ok (is, b', after) → b.Grows is b'
  | 0, b, c, is, b', after, h => by
    obtain ⟨rfl, rfl, -⟩ : [] = is ∧ b = b' ∧ c = after := by simpa [parseFurther] using h
    exact .nil b
  | count + 1, b, c, is, b', after, h => by
    simp only [parseFurther] at h
    split at h
    · simp only [bind_eq_ok, pure_eq_ok, Prod.mk.injEq] at h
      obtain ⟨⟨first, b₁, _⟩, hfirst, ⟨others, b₂, _⟩, hothers, rfl, rfl, -⟩ := h
      exact (hargument hfirst).append (grows_further hothers)
    · obtain ⟨rfl, rfl, -⟩ : [] = is ∧ b = b' ∧ c = after := by simpa using h
      exact .nil b

theorem grows_arguments {b c is b' after}
    (h : parseArguments argument b c = .ok (is, b', after)) : b.Grows is b' := by
  unfold parseArguments at h
  split at h
  · obtain ⟨rfl, rfl, -⟩ : [] = is ∧ b = b' ∧ c = after := by simpa using h
    exact .nil b
  · simp only [bind_eq_ok, pure_eq_ok, Prod.mk.injEq] at h
    obtain ⟨⟨first, b₁, _⟩, hfirst, ⟨others, b₂, _⟩, hothers, rfl, rfl, -⟩ := h
    exact (hargument hfirst).append (grows_further hargument hothers)

end Arguments

/-! ## The five functions -/

/-- What each function of the parser adds, up to a depth of calls. -/
structure Growing (g : Grammar) (depth : Nat) : Prop where
  expression : ∀ {nesting b c i b' after},
    parseExpression g depth nesting b c = .ok (i, b', after) → b.Grows [i] b'
  binary : ∀ {nesting floor b c i b' after},
    parseBinary g depth nesting floor b c = .ok (i, b', after) → b.Grows [i] b'
  unary : ∀ {nesting b c i b' after},
    parseUnary g depth nesting b c = .ok (i, b', after) → b.Grows [i] b'
  primary : ∀ {nesting b c i b' after},
    parsePrimary g depth nesting b c = .ok (i, b', after) → b.Grows [i] b'
  call : ∀ {nesting b c i b' after},
    parseCall g depth nesting b c = .ok (i, b', after) → b.Grows [i] b'

variable {depth nesting i : Nat} {b b' : Builder} {c after : Cursor}

theorem Growing.succ_binary (ih : g.Growing depth) {floor : Int}
    (h : parseBinary g (depth + 1) nesting floor b c = .ok (i, b', after)) : b.Grows [i] b' := by
  simp only [parseBinary, bind_eq_ok] at h
  obtain ⟨⟨left, b₁, next⟩, hleft, h⟩ := h
  exact grows_operators ih.binary (ih.unary hleft) h

theorem Growing.succ_unary (ih : g.Growing depth)
    (h : parseUnary g (depth + 1) nesting b c = .ok (i, b', after)) : b.Grows [i] b' := by
  simp only [parseUnary] at h
  split at h
  · simp only [bind_eq_ok, pure_eq_ok, Prod.mk.injEq] at h
    obtain ⟨-, -, ⟨operand, b₁, next⟩, hoperand, ⟨node, b₂⟩, hnode, rfl, rfl, -⟩ := h
    exact (ih.unary hoperand).combine hnode
  · exact ih.primary h

theorem Growing.succ_primary (ih : g.Growing depth)
    (h : parsePrimary g (depth + 1) nesting b c = .ok (i, b', after)) : b.Grows [i] b' := by
  simp only [parsePrimary] at h
  split at h
  · simp only [bind_eq_ok, pure_eq_ok, Prod.mk.injEq] at h
    obtain ⟨value, -, rfl, rfl, -⟩ := h
    exact .number b value _
  · simp only [Except.ok.injEq, Prod.mk.injEq] at h
    obtain ⟨rfl, rfl, -⟩ := h
    exact .var b _ _
  · exact ih.call h
  · simp only [bind_eq_ok, pure_eq_ok, Prod.mk.injEq] at h
    obtain ⟨-, -, ⟨inner, b₁, next⟩, hinner, -, -, rfl, rfl, -⟩ := h
    exact ih.expression hinner
  all_goals cases h

theorem Growing.succ_call (ih : g.Growing depth)
    (h : parseCall g (depth + 1) nesting b c = .ok (i, b', after)) : b.Grows [i] b' := by
  simp only [parseCall] at h
  split at h
  · cases h
  simp only [bind_eq_ok] at h
  obtain ⟨opened, -, -, -, ⟨nodes, b₁, next⟩, hnodes, closed, -, -, -, h⟩ := h
  split at h
  · simp only [bind_eq_ok, pure_eq_ok, Prod.mk.injEq] at h
    obtain ⟨⟨node, b₂⟩, hnode, rfl, rfl, -⟩ := h
    exact (grows_arguments ih.expression hnodes).combine hnode
  · cases h

/-- **Every function of the parser adds one part of the expression behind the nodes that are there
already.** -/
theorem growing (g : Grammar) : ∀ depth, g.Growing depth
  | 0 => by constructor <;> intros <;> simp_all [parseExpression, parseBinary, parseUnary,
      parsePrimary, parseCall]
  | depth + 1 => by
    have ih := growing g depth
    refine ⟨fun h => ?_, ih.succ_binary, ih.succ_unary, ih.succ_primary, ih.succ_call⟩
    exact ih.binary (by simpa only [parseExpression] using h)

/-! ## Trees -/

/-- A parsed tree is what the builder of the parser holds in the end, all of it below the root. -/
theorem exists_filled_of_parseWithin {depth : Nat} {tokens : List Token} {t : Tree}
    (h : g.parseWithin depth tokens = .ok t) : ∃ (b : Builder) (root : Nat),
      b.Reached ∧ Filled b.cells 0 [root] b.size ∧ b.build root g.source = .ok t := by
  simp only [parseWithin] at h
  split at h
  · cases h
  simp only [bind_eq_ok] at h
  obtain ⟨⟨root, b, after⟩, hroot, h⟩ := h
  have hgrows := (growing g depth).expression hroot
  dsimp only at h
  split at h
  · simp only [bind_eq_ok, pure_eq_ok] at h
    obtain ⟨t', hbuild, -, -, rfl⟩ := h
    exact ⟨b, root, hgrows.reached .empty, hgrows.filled, mapError_eq_ok.1 hbuild⟩
  · split at h <;> cases h

end Grammar

end Reckon
