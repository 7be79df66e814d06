/-
One pass over the table gives what the recursion on the expression gives
(`Evaluator.evaluate_result`). In any tree that is built, whatever the order of
its nodes, the two agree on the numbers; a failure somewhere is a failure of the
whole in both, since every node is below the root. In the trees of expressions
the order of the table is the order of the recursion, and the failure is the
same one.

The invariant of the pass is that the results so far are the values of the
expressions on top of their nodes (`Holds`).
-/
import Reckon.Proofs.Evaluation.Meaning
import Reckon.Proofs.Grammar.Parsing
import Reckon.Proofs.Tree.Built

namespace Reckon

namespace Evaluator

variable {E : Evaluator} {table : List Cell} {results : Array (Option Float)}

/-- The results are the values of the expressions that their nodes show. -/
def Holds (E : Evaluator) (table : List Cell) (results : Array (Option Float)) : Prop :=
  ∀ i v e, results[i]? = some v → Shows table i e → e.value E = .ok v

theorem Holds.values (h : E.Holds table results) : ∀ {es : List Expr} {children : List Nat},
    ShowsAll table children es → (∀ child ∈ children, child < results.size) →
      Expr.values E es = .ok (children.map fun child => (results[child]?).join)
  | [], children, hes, _ => by
    obtain rfl : children = [] := hes
    rfl
  | e :: es, _, ⟨i, rest, hcons, he, hes⟩, hlt => by
    subst hcons
    have hi := Array.getElem?_eq_getElem (hlt i List.mem_cons_self)
    have hrest := h.values hes fun child hchild => hlt child (List.mem_cons_of_mem _ hchild)
    simp [Expr.values, h i _ e hi he, hrest, hi, bind, Except.bind, pure, Except.pure]

/-- The value of a node is that of the expression on top of it. -/
theorem Holds.valueAt (h : E.Holds table results) {n : Node} {e : Expr} {k : Nat}
    (hcell : table[k]? = some n.cell) (hshows : Shows table k e)
    (hlt : ∀ child ∈ n.children, child < results.size) :
    E.valueAt results n = e.value E := by
  obtain ⟨index, item, children, parent, position, depth⟩ := n
  cases e with
  | number x p =>
    have hc := Option.some.inj (hcell.symm.trans hshows)
    simp only [Node.cell, Cell.mk.injEq] at hc
    obtain ⟨rfl, rfl, rfl⟩ := hc
    rfl
  | var name p =>
    have hc := Option.some.inj (hcell.symm.trans hshows)
    simp only [Node.cell, Cell.mk.injEq] at hc
    obtain ⟨rfl, rfl, rfl⟩ := hc
    rfl
  | apply o es p =>
    obtain ⟨children', hcell', hes⟩ := hshows
    have hc := Option.some.inj (hcell.symm.trans hcell')
    simp only [Node.cell, Cell.mk.injEq] at hc
    obtain ⟨rfl, rfl, rfl⟩ := hc
    rw [Expr.value_apply (h.values hes hlt)]
    rfl

/-! ## The pass over a table -/

theorem Holds.push (h : E.Holds table results) {v : Option Float}
    (hv : ∀ e, Shows table results.size e → e.value E = .ok v) :
    E.Holds table (results.push v) := by
  intro i w e hi he
  rw [Array.getElem?_push] at hi
  split at hi
  · next heq =>
    obtain rfl := Option.some.inj hi
    exact hv e (heq ▸ he)
  · exact h i w e hi he

/-- **The pass over a table with an expression on top of every node.** Either its results are the
values of all of them, or it fails as one of them does. -/
theorem pass_holds (hordered : Ordered table) : ∀ (nodes : List Node)
    (results : Array (Option Float)) (before : List Cell),
      table = before ++ nodes.map Node.cell → before.length = results.size →
      E.Holds table results →
      (∃ out, E.pass results nodes = .ok out ∧ E.Holds table out ∧ out.size = table.length) ∨
      (∃ f k e, E.pass results nodes = .error f ∧ k < table.length ∧ Shows table k e ∧
        e.value E = .error f)
  | [], results, before, ht, hb, h => by
    refine .inl ⟨results, rfl, h, ?_⟩
    simp [ht, hb]
  | n :: nodes, results, before, ht, hb, h => by
    have hlt : results.size < table.length := by
      simp [ht, hb]
    have hcell : table[results.size]? = some n.cell := by
      simp [ht, ← hb]
    obtain ⟨e, he⟩ := hordered.exists_shows results.size hlt
    have hvalue : E.valueAt results n = e.value E :=
      h.valueAt hcell he (hordered results.size _ hcell).1
    cases hv : e.value E with
    | error f =>
      refine .inr ⟨f, results.size, e, ?_, hlt, he, hv⟩
      rw [pass, hvalue, hv]
      rfl
    | ok v =>
      have hpass : E.pass results (n :: nodes) = E.pass (results.push v) nodes := by
        rw [pass, hvalue, hv]
        rfl
      rw [hpass]
      refine pass_holds hordered nodes _ (before ++ [n.cell]) (by simp [ht]) (by simp [hb]) ?_
      refine h.push fun e' he' => ?_
      rw [Shows.unique he' he, hv]

/-! ## Failures below the root -/

theorem exists_value_of_mem : ∀ {es : List Expr} {vs : List (Option Float)},
    Expr.values E es = .ok vs → ∀ e ∈ es, ∃ v, e.value E = .ok v
  | [], _, _, _, he => by cases he
  | e :: es, vs, hvs, e', he' => by
    simp only [Expr.values, bind_eq_ok] at hvs
    obtain ⟨v, hv, vs', hvs', _⟩ := hvs
    rcases List.mem_cons.1 he' with rfl | he'
    · exact ⟨v, hv⟩
    · exact exists_value_of_mem hvs' e' he'

/-- Where the whole has a value, everything below it has. -/
theorem exists_value_of_below {i k : Nat} (h : Below table i k) {e : Expr} {v : Option Float}
    (he : Shows table i e) (hv : e.value E = .ok v) :
    ∃ e' v', Shows table k e' ∧ e'.value E = .ok v' := by
  obtain ⟨e', he', v', hv'⟩ := h.exists_shows (P := fun e => ∃ v, e.value E = .ok v)
    (fun o operands p ⟨v, hv⟩ => by
      simp only [Expr.value, bind_eq_ok] at hv
      obtain ⟨vs, hvs, _⟩ := hv
      exact exists_value_of_mem hvs) he ⟨v, hv⟩
  exact ⟨e', v', he', hv'⟩

/-! ## The pass over the table of an expression -/

theorem pass_append (results : Array (Option Float)) : ∀ nodes more : List Node,
    E.pass results (nodes ++ more) = (do E.pass (← E.pass results nodes) more)
  | [], _ => rfl
  | n :: nodes, more => by
    simp only [List.cons_append, pass, bind_assoc, pass_append _ nodes more]

/-- The pass over some nodes ends as the recursion does. -/
def Agrees {α : Type} (E : Evaluator) (table : List Cell) (results : Array (Option Float))
    (nodes : List Node) : Except Failure α → Prop
  | .error f => E.pass results nodes = .error f
  | .ok _ => ∃ out, E.pass results nodes = .ok out ∧ E.Holds table out ∧
      out.size = results.size + nodes.length

theorem Holds.agrees (h : E.Holds table results) {n : Node} {e : Expr}
    (hcell : table[results.size]? = some n.cell) (hshows : Shows table results.size e)
    (hlt : ∀ child ∈ n.children, child < results.size) :
    E.Agrees table results [n] (e.value E) := by
  have hvalue := h.valueAt hcell hshows hlt
  cases hv : e.value E with
  | error f =>
    show E.pass results [n] = .error f
    rw [pass, hvalue, hv]
    rfl
  | ok v =>
    refine ⟨results.push v, ?_, h.push fun e' he' => ?_, by simp⟩
    · rw [pass, hvalue, hv]
      rfl
    · rw [Shows.unique he' hshows, hv]

theorem Agrees.append {α : Type} {nodes more : List Node} {out : Array (Option Float)}
    {x : Except Failure α} (hpass : E.pass results nodes = .ok out)
    (hsize : out.size = results.size + nodes.length) (h : E.Agrees table out more x) :
    E.Agrees table results (nodes ++ more) x := by
  cases x with
  | error f =>
    show E.pass results (nodes ++ more) = .error f
    rw [pass_append, hpass]
    exact h
  | ok v =>
    obtain ⟨out', hpass', hholds, hsize'⟩ := h
    refine ⟨out', ?_, hholds, ?_⟩
    · rw [pass_append, hpass]
      exact hpass'
    · rw [hsize', hsize, List.length_append, Nat.add_assoc]

theorem Agrees.error_append {α β : Type} {nodes : List Node} {f : Failure}
    (h : E.Agrees table results nodes (.error f : Except Failure α)) (more : List Node) :
    E.Agrees table results (nodes ++ more) (.error f : Except Failure β) := by
  show E.pass results (nodes ++ more) = .error f
  rw [pass_append, show E.pass results nodes = .error f from h]
  rfl

mutual

/-- **In the order of an expression's own table the first failure is the same.** -/
theorem pass_cells (hordered : Ordered table) : ∀ (e : Expr) (nodes : List Node)
    (results : Array (Option Float)) (before after : List Cell),
      nodes.map Node.cell = e.cells results.size →
      table = before ++ (e.cells results.size ++ after) → before.length = results.size →
      E.Holds table results → E.Agrees table results nodes (e.value E)
  | .number x p, nodes, results, before, after, hn, ht, hb, h
  | .var x p, nodes, results, before, after, hn, ht, hb, h => by
    obtain ⟨n, rfl, hcell⟩ := List.map_eq_singleton_iff.1 hn
    have hindex : table[results.size]? = some n.cell := by simp [ht, ← hb, Expr.cells, hcell]
    have hshows := Expr.shows_cells _ before after ht hb
    exact h.agrees hindex (by simpa [Expr.top, Expr.size] using hshows)
      (hordered results.size _ hindex).1
  | .apply o es p, nodes, results, before, after, hn, ht, hb, h => by
    have hshows := Expr.shows_cells _ before after ht hb
    simp only [Expr.cells, List.append_assoc] at hn ht
    obtain ⟨ns, ms, rfl, hns, hms⟩ := List.map_eq_append_iff.1 hn
    obtain ⟨n, rfl, hcell⟩ := List.map_eq_singleton_iff.1 hms
    have hlen : ns.length = Expr.sizeAll es := by simpa using congrArg List.length hns
    have hoperands := passAll_cells hordered es ns results before _ hns ht hb h
    cases hv : Expr.values E es with
    | error f =>
      rw [hv] at hoperands
      rw [show (Expr.apply o es p).value E = .error f by simp [Expr.value, hv, bind, Except.bind]]
      exact hoperands.error_append [n]
    | ok vs =>
      rw [hv] at hoperands
      obtain ⟨out, hpass, hholds, hsize⟩ := hoperands
      have hindex : table[out.size]? = some n.cell := by
        simp [ht, hsize, ← hb, hlen, hcell]
      refine Agrees.append hpass hsize (hholds.agrees hindex ?_ (hordered out.size _ hindex).1)
      simpa [hsize, hlen, Expr.top, Expr.size] using hshows

theorem passAll_cells (hordered : Ordered table) : ∀ (es : List Expr) (nodes : List Node)
    (results : Array (Option Float)) (before after : List Cell),
      nodes.map Node.cell = Expr.cellsAll results.size es →
      table = before ++ (Expr.cellsAll results.size es ++ after) → before.length = results.size →
      E.Holds table results → E.Agrees table results nodes (Expr.values E es)
  | [], nodes, results, before, after, hn, ht, hb, h => by
    obtain rfl : nodes = [] := List.map_eq_nil_iff.1 hn
    exact ⟨results, rfl, h, rfl⟩
  | e :: es, nodes, results, before, after, hn, ht, hb, h => by
    simp only [Expr.cellsAll, List.append_assoc] at hn ht
    obtain ⟨ns, ms, rfl, hns, hms⟩ := List.map_eq_append_iff.1 hn
    have hlen : ns.length = e.size := by simpa using congrArg List.length hns
    have hfirst := pass_cells hordered e ns results before _ hns ht hb h
    cases hv : e.value E with
    | error f =>
      rw [hv] at hfirst
      rw [show Expr.values E (e :: es) = .error f by simp [Expr.values, hv, bind, Except.bind]]
      exact hfirst.error_append ms
    | ok v =>
      rw [hv] at hfirst
      obtain ⟨out, hpass, hholds, hsize⟩ := hfirst
      rw [← hlen, ← hsize] at hms ht
      have hothers := passAll_cells hordered es ms out (before ++ e.cells results.size) after hms
        (by simpa using ht) (by simp [hb, hsize, hlen]) hholds
      refine Agrees.append hpass hsize ?_
      cases hvs : Expr.values E es with
      | error f =>
        rw [hvs] at hothers
        rw [show Expr.values E (e :: es) = .error f by
          simp [Expr.values, hv, hvs, bind, Except.bind]]
        exact hothers
      | ok vs =>
        rw [hvs] at hothers
        rw [show Expr.values E (e :: es) = .ok (v :: vs) by
          simp [Expr.values, hv, hvs, bind, Except.bind, pure, Except.pure]]
        exact hothers

end

/-! ## Whole trees -/

theorem numberOf_of_pass_error {t : Tree} {f : Failure} (h : E.pass #[] t.nodes.toList = .error f) :
    E.numberOf t = .error f := by
  rw [numberOf, h]
  rfl

theorem shows_position {i : Nat} {e : Expr} (h : Shows table i e) :
    ∃ c, table[i]? = some c ∧ c.position = e.position := by
  cases e with
  | number | var => exact ⟨_, h, rfl⟩
  | apply =>
    obtain ⟨_, h, _⟩ := h
    exact ⟨_, h, rfl⟩

/-- What is done with the value of the root is the same. -/
theorem numberOf_of_pass_ok {t : Tree} {e : Expr} {out : Array (Option Float)}
    (h : E.pass #[] t.nodes.toList = .ok out) (hholds : E.Holds t.cells out)
    (hshows : t.Shows e) (hroot : t.root < out.size) : E.numberOf t = e.result E := by
  have hv := hholds t.root _ e (Array.getElem?_eq_getElem hroot) hshows
  obtain ⟨c, hc, hposition⟩ := shows_position hshows
  obtain ⟨n, hn, rfl⟩ : ∃ n, t.rootNode? = some n ∧ n.cell = c := by
    simpa [Tree.rootNode?, Tree.cells] using hc
  have hp : n.position = e.position := hposition
  rw [numberOf, h, Expr.result, hv]
  simp only [bind, Except.bind, Array.getElem?_eq_getElem hroot, Option.join_some]
  cases hx : out[t.root] with
  | some x => rfl
  | none =>
    cases hpolicy : E.policy with
    | nullAsZero => rfl
    | throwOnNull | dropNull => simp [hn, hp]

/-- In a tree that is built the two agree on the numbers. -/
theorem numberOf_eq_ok_iff {b : Builder} {root : Int} {source : Option String} {t : Tree} {e : Expr}
    (hb : b.Reached) (h : b.build root source = .ok t) (hshows : t.Shows e) (x : Float) :
    E.numberOf t = .ok x ↔ e.result E = .ok x := by
  obtain ⟨hordered, hroot⟩ := hb.ordered_build h
  have hempty : E.Holds t.cells #[] := fun _ _ _ hi => by simp at hi
  rcases pass_holds (E := E) hordered t.nodes.toList #[] [] rfl rfl hempty with
    ⟨out, hpass, hholds, hsize⟩ | ⟨f, k, e', hpass, hk, hshows', hfail⟩
  · rw [numberOf_of_pass_ok hpass hholds hshows (hsize ▸ hroot)]
  · rw [numberOf_of_pass_error hpass, Expr.result]
    cases hv : e.value E with
    | error f' => simp [bind, Except.bind]
    | ok v =>
      -- the failing node is below the root, so the root could not have a value
      obtain ⟨e'', v', hshows'', hv'⟩ :=
        exists_value_of_below (Builder.build_below h k hk) hshows hv
      rw [Shows.unique hshows'' hshows', hfail] at hv'
      cases hv'

/-- In the tree of an expression they agree altogether. -/
theorem numberOf_ofExpr {e : Expr} {source : Option String} {t : Tree}
    (h : Tree.ofExpr e source = .ok t) : E.numberOf t = e.result E := by
  obtain ⟨b, root, hb, hbuild⟩ := Tree.ofExpr_built h
  obtain ⟨hordered, hroot⟩ := hb.ordered_build hbuild
  have hshows := Tree.shows_ofExpr h
  have hcells := (Tree.ofExpr_eq_ok h).1
  have hempty : E.Holds t.cells #[] := fun _ _ _ hi => by simp at hi
  have hagrees := pass_cells (E := E) hordered e t.nodes.toList #[] [] [] hcells
    (by simpa using hcells) rfl hempty
  cases hv : e.value E with
  | error f =>
    rw [hv] at hagrees
    rw [numberOf_of_pass_error hagrees, Expr.result, hv]
    rfl
  | ok v =>
    rw [hv] at hagrees
    obtain ⟨out, hpass, hholds, hsize⟩ := hagrees
    refine numberOf_of_pass_ok hpass hholds hshows ?_
    simpa [hsize, Tree.cells] using hroot

/-- **The evaluator is the recursion.** For every tree that a builder makes there is one expression
that it shows; evaluation gives a number exactly when the meaning of that expression is this number,
and fails exactly when the meaning is a failure. For every tree that the parser makes the failure is
the same one. -/
theorem evaluate_result :
    (∀ (b : Builder) (root : Int) (source : Option String) (t : Tree), b.Reached →
      b.build root source = .ok t → ∃ e, t.Shows e ∧ (∀ e', t.Shows e' → e' = e) ∧
        ∀ E : Evaluator,
          (∀ x, (E.evaluate t).1 = .ok x ↔
            e.result { E with source := E.source.or t.source } = .ok x) ∧
          ((∃ f, (E.evaluate t).1 = .error f) ↔
            ∃ f, e.result { E with source := E.source.or t.source } = .error f)) ∧
    (∀ (g : Grammar) (tokens : List Token) (t : Tree), g.parse tokens = .ok t →
      ∃ e, t.Shows e ∧ (∀ e', t.Shows e' → e' = e) ∧ ∀ E : Evaluator,
        (E.evaluate t).1 = e.result { E with source := E.source.or t.source }) := by
  constructor
  · intro b root source t hb h
    obtain ⟨hordered, hroot⟩ := hb.ordered_build h
    obtain ⟨e, he⟩ := hordered.exists_shows t.root hroot
    refine ⟨e, he, fun e' he' => Shows.unique he' he, fun E => ?_⟩
    have hok := numberOf_eq_ok_iff (E := { E with source := E.source.or t.source }) hb h he
    exact ⟨hok, exists_error_iff hok⟩
  · intro g tokens t h
    obtain ⟨e, _, htree⟩ := Grammar.parse_eq_ok h
    have hshows := Tree.shows_ofExpr htree
    exact ⟨e, hshows, fun e' he' => Shows.unique he' hshows, fun E => numberOf_ofExpr htree⟩

/-- A variable under a minus sign, built and parsed. -/
theorem evaluate_result_negation :
    (∃ (b : Builder) (t : Tree), b.Reached ∧ b.build 1 none = .ok t ∧
      ∃ e, t.Shows e ∧ ∀ (E : Evaluator) x, (E.evaluate t).1 = .ok x ↔
        e.result { E with source := E.source.or t.source } = .ok x) ∧
    (∃ t, Grammar.parse ⟨.standard, .standard, none⟩
        [⟨.operator, "-", 0⟩, ⟨.identifier, "x", 1⟩, Token.finish 2] = .ok t ∧
      ∃ e, t.Shows e ∧ ∀ E : Evaluator,
        (E.evaluate t).1 = e.result { E with source := E.source.or t.source }) := by
  constructor
  · have hadd : ∃ p, (Builder.addLeaf {} (.var "x") 1).2.addOperation .negation [0] 0 = .ok p ∧
        (p.2.build 1 none).isOk = true := ⟨_, rfl, by decide +kernel⟩
    obtain ⟨⟨index, b⟩, hadd, hok⟩ := hadd
    have hb : b.Reached := (Builder.Reached.empty.var "x" 1).operation hadd
    obtain ⟨t, ht⟩ := exists_of_isOk hok
    obtain ⟨e, he, _, hE⟩ := evaluate_result.1 b 1 none t hb ht
    exact ⟨b, t, hb, ht, e, he, fun E => (hE E).1⟩
  · have hok : (Grammar.parse ⟨.standard, .standard, none⟩
        [⟨.operator, "-", 0⟩, ⟨.identifier, "x", 1⟩, Token.finish 2]).isOk = true := by
      decide +kernel
    obtain ⟨t, ht⟩ := exists_of_isOk hok
    obtain ⟨e, he, _, hE⟩ := evaluate_result.2 _ _ t ht
    exact ⟨t, ht, e, he, hE⟩

end Evaluator

end Reckon
