/-
The tokens of a text and the nodes of its tree (`parseText_correspondence`).
Numbers, names, operators and functions make a node each, at their position, and
there are no other nodes; the tree keeps their order. Of the other tokens the
parentheses are in pairs, and the commas are told by the calls.

The positions of the nodes of a derivation are a permutation of those of the
tokens that make nodes (`Derives.positions`). Positions increase along the
tokens of a text, so no two nodes are at the same one.
-/
import Mathlib.Algebra.GroupWithZero.Nat
import Mathlib.Algebra.Ring.Int.Defs
import Reckon.Proofs.Token.Embedding
import Reckon.Proofs.Token.Layout
import Reckon.Proofs.Tree.Made
import Reckon.Proofs.Tree.Order
import Reckon.Proofs.Tree.Position

namespace Reckon

/-- The token makes a node. -/
def TokenKind.makesNode : TokenKind → Bool
  | number | identifier | operator | function => true
  | leftParen | rightParen | comma | finish => false

/-- The item is a function that is called. -/
def Item.isCall : Item → Bool
  | .operation o => o.isFunction
  | _ => false

theorem Token.Matches.makesNode {t : Token} {item : Item} (h : t.Matches item) :
    t.kind.makesNode = true := by
  cases item with
  | number | var => rw [h.1]; rfl
  | operation o =>
    rw [h.1]
    split <;> rfl

/-! ## Positions -/

/-- **The nodes of a derivation stand where the tokens stand that make them.** -/
theorem Derives.positions {r : Registry} {s d} (h : Derives r s d) :
    (Expr.positionsAll d.exprs).Perm
      ((d.tokens.filter (·.kind.makesNode)).map Token.position) := by
  induction h with
  | operand _ ih | plain _ ih => exact ih
  | @binary _ left t o right _ ho _ _ ihl ihr =>
    refine (Expr.positionsAll_apply o _ t.position).trans ?_
    have hmiddle := ((ihl.append ihr).cons t.position).trans List.perm_middle.symm
    simpa [Derivation.tokens, TokenKind.makesNode, ho.1] using hmiddle
  | @negation t u hk _ _ ih =>
    refine (Expr.positionsAll_apply .negation _ t.position).trans ?_
    simpa [Derivation.tokens, TokenKind.makesNode, hk] using ih.cons t.position
  | number hk | name hk =>
    simp [Derivation.exprs, Derivation.tokens, Expr.positionsAll, Expr.positions,
      TokenKind.makesNode, hk]
  | group ha _ hb ih =>
    simpa [Derivation.exprs, Derivation.tokens, TokenKind.makesNode, ha, hb] using ih
  | @call t o a args b hf ha _ hb ih =>
    refine (Expr.positionsAll_apply o _ t.position).trans ?_
    simpa [Derivation.tokens, TokenKind.makesNode, hf.1, ha, hb] using ih.cons t.position
  | noArguments | noFurther => exact .nil
  | arguments _ _ ihd ihr =>
    simpa [Derivation.exprs, Derivation.tokens] using ihd.append ihr
  | further hc _ _ ihd ihr =>
    simpa [Derivation.exprs, Derivation.tokens, TokenKind.makesNode, hc] using ihd.append ihr

theorem Derives.exists_token {r : Registry} {s d} (h : Derives r s d) {e : Expr}
    (he : e ∈ d.exprs) {p : Int} (hp : p ∈ e.positions) : ∃ t ∈ d.tokens, t.position = p := by
  have hmem := h.positions.mem_iff.1 (Expr.mem_positionsAll.2 ⟨e, he, hp⟩)
  obtain ⟨t, ht, hposition⟩ := List.mem_map.1 hmem
  exact ⟨t, List.mem_of_mem_filter ht, hposition⟩

/-- Registered operators are infix operators. -/
theorem Registry.Reached.isInfix {r : Registry} (hr : r.Reached) {t : Token} {o : Operation}
    (ho : r.InfixToken t o) : o.isInfix = true := by
  cases hr.declared o (List.mem_of_find?_eq_some ho.2.1) with
  | function hf => simp [ho.2.2] at hf
  | operator _ _ _ _ _ hmax => simp [Operation.isInfix, Operation.isUnary, ho.2.2, hmax]

/-- What is derived from earlier tokens stands before what is derived from later ones. -/
theorem Derives.precedes {r : Registry} {s s' d d'} (h : Derives r s d) (h' : Derives r s' d')
    (hts : ∀ t ∈ d.tokens, ∀ t' ∈ d'.tokens, t.position < t'.position) :
    ∀ e ∈ d.exprs, ∀ e' ∈ d'.exprs, e.Precedes e' := by
  intro e he e' he' p hp p' hp'
  obtain ⟨t, ht, rfl⟩ := h.exists_token he hp
  obtain ⟨t', ht', rfl⟩ := h'.exists_token he' hp'
  exact hts t ht t' ht'

/-- **A derivation keeps the order of its tokens.** -/
theorem Derives.successive {r : Registry} (hr : r.Reached) {s d} (h : Derives r s d)
    (hts : d.tokens.Pairwise fun t t' => t.position < t'.position) :
    Expr.Successive d.exprs := by
  induction h with
  | operand _ ih | plain _ ih => exact ih hts
  | @binary _ left t o right hl ho _ hr' ihl ihr =>
    obtain ⟨hleft, htr, hcross⟩ := List.pairwise_append.1 hts
    obtain ⟨htop, hright⟩ := List.pairwise_cons.1 htr
    have hoperands := (ihl hleft).append (ihr hright) <|
      hl.precedes hr' fun u hu u' hu' => hcross u hu u' (List.mem_cons_of_mem _ hu')
    obtain ⟨e, he⟩ := hl.single trivial
    obtain ⟨e', he'⟩ := hr'.single trivial
    rw [he, he'] at hoperands
    rw [Derivation.exprs, he, he']
    refine hoperands.between (hr.isInfix ho) (fun p hp => ?_) fun p hp => ?_
    · obtain ⟨u, hu, rfl⟩ := hl.exists_token (he ▸ List.mem_singleton_self e) hp
      exact hcross u hu t List.mem_cons_self
    · obtain ⟨u, hu, rfl⟩ := hr'.exists_token (he' ▸ List.mem_singleton_self e') hp
      exact htop u hu
  | negation _ _ hu ih =>
    obtain ⟨htop, hrest⟩ := List.pairwise_cons.1 hts
    refine (ih hrest).before rfl fun e he p hp => ?_
    obtain ⟨u, hu, rfl⟩ := hu.exists_token he hp
    exact htop u hu
  | number | name => exact .single trivial
  | group _ _ _ ih => exact ih (List.pairwise_append.1 (List.pairwise_cons.1 hts).2).1
  | call hf _ hargs _ ih =>
    obtain ⟨htop, hrest⟩ := List.pairwise_cons.1 hts
    have hinner := ih (List.pairwise_append.1 (List.pairwise_cons.1 hrest).2).1
    refine hinner.before (by simp [Operation.isInfix, hf.2.2]) fun e he p hp => ?_
    obtain ⟨u, hu, rfl⟩ := hargs.exists_token he hp
    exact htop u (List.mem_cons_of_mem _ (List.mem_append_left _ hu))
  | noArguments | noFurther => exact .nil
  | arguments hd hrest ihd ihr =>
    obtain ⟨hfirst, hothers, hcross⟩ := List.pairwise_append.1 hts
    exact (ihd hfirst).append (ihr hothers) (hd.precedes hrest hcross)
  | further _ hd hrest ihd ihr =>
    obtain ⟨hfirst, hothers, hcross⟩ := List.pairwise_append.1 (List.pairwise_cons.1 hts).2
    exact (ihd hfirst).append (ihr hothers) (hd.precedes hrest hcross)

/-! ## Commas -/

/-- How many commas a cell tells of: one less than a call has arguments. -/
def Cell.commas (c : Cell) : Nat := if c.item.isCall then c.children.length - 1 else 0

namespace Expr

/-- How many commas the cells of expressions tell of. -/
def commas (base : Nat) (es : List Expr) : Nat := ((cellsAll base es).map Cell.commas).sum

theorem commas_append (base : Nat) (es es' : List Expr) :
    commas base (es ++ es') = commas base es + commas (base + sizeAll es) es' := by
  simp [commas, cellsAll_append]

theorem commas_apply (base : Nat) (o : Operation) (es : List Expr) (position : Int) :
    commas base [.apply o es position] =
      commas base es + if o.isFunction then es.length - 1 else 0 := by
  simp [commas, cellsAll, cells, Cell.commas, Item.isCall]

end Expr

/-- How many commas so many expressions of a symbol have between them and before them. -/
def Symbol.commas : Symbol → Nat → Nat
  | level _, _ | unary, _ | primary, _ => 0
  | arguments, count => count - 1
  | furtherArguments, count => count

/-- **The calls of a derivation tell of its commas**, but for those between its own arguments. -/
theorem Derives.commas {r : Registry} {s d} (h : Derives r s d) : ∀ base : Nat,
    d.tokens.countP (·.kind == .comma) = Expr.commas base d.exprs + s.commas d.exprs.length := by
  induction h with
  | operand _ ih | plain _ ih => exact ih
  | @binary _ left t o right _ ho _ _ ihl ihr =>
    intro base
    rw [Derivation.tokens, List.countP_append, List.countP_cons, ihl base,
      ihr (base + Expr.sizeAll left.exprs), Derivation.exprs, Expr.commas_apply,
      Expr.commas_append]
    simp [Symbol.commas, ho.1, ho.2.2]
  | negation hk _ _ ih =>
    intro base
    rw [Derivation.tokens, List.countP_cons, ih base, Derivation.exprs, Expr.commas_apply]
    simp [Symbol.commas, Operation.negation, hk]
  | number hk | name hk =>
    simp [Derivation.tokens, Derivation.exprs, Expr.commas, Expr.cellsAll, Expr.cells,
      Cell.commas, Item.isCall, Symbol.commas, hk]
  | group ha _ hb ih =>
    intro base
    simpa [Derivation.tokens, Derivation.exprs, Symbol.commas, ha, hb] using ih base
  | call hf ha _ hb ih =>
    intro base
    rw [Derivation.exprs, Expr.commas_apply, hf.2.2]
    simpa [Derivation.tokens, Symbol.commas, hf.1, ha, hb] using ih base
  | noArguments | noFurther => exact fun _ => rfl
  | @arguments d _ hd _ ihd ihr =>
    intro base
    obtain ⟨e, he⟩ := hd.single trivial
    rw [Derivation.tokens, List.countP_append, ihd base, ihr (base + Expr.sizeAll d.exprs),
      Derivation.exprs, Expr.commas_append, List.length_append, he]
    simp [Symbol.commas, Nat.add_assoc]
  | @further _ d _ hc hd _ ihd ihr =>
    intro base
    obtain ⟨e, he⟩ := hd.single trivial
    rw [Derivation.tokens, List.countP_cons, List.countP_append, ihd base,
      ihr (base + Expr.sizeAll d.exprs), Derivation.exprs, Expr.commas_append, List.length_append,
      he]
    simp [Symbol.commas, hc]
    omega

/-- Where no call is without arguments the commas are counted in integers. -/
theorem sum_commas {ns : List Node} (h : ∀ n ∈ ns, n.item.isCall = true → 0 < n.children.length) :
    (((ns.map Node.cell).map Cell.commas).sum : Int) =
      ((ns.filter (·.item.isCall)).map fun n => (n.children.length : Int) - 1).sum := by
  induction ns with
  | nil => rfl
  | cons n ns ih =>
    obtain ⟨hn, hns⟩ := List.forall_mem_cons.1 h
    rw [List.map_cons, List.map_cons, List.sum_cons, Int.natCast_add, ih hns, Cell.commas]
    cases hcall : n.item.isCall with
    | false => simp [Node.cell, hcall]
    | true =>
      have := hn hcall
      simp [Node.cell, hcall]
      omega

/-! ## Trees -/

/-- The nodes of the tree and the tokens that make nodes are at the same positions and match, one by
one. -/
structure Tree.Corresponds (t : Tree) (tokens : List Token) : Prop where
  token : ∀ (i : Nat) (n : Node), t.nodes[i]? = some n →
    ∃ k token, tokens[k]? = some token ∧ token.position = n.position ∧
      token.kind.makesNode = true ∧ token.Matches n.item ∧
      ∀ (k' : Nat) (token' : Token), tokens[k']? = some token' →
        token'.position = n.position → k' = k
  node : ∀ (k : Nat) (token : Token), tokens[k]? = some token → token.kind.makesNode = true →
    ∃ i n, t.nodes[i]? = some n ∧ n.position = token.position ∧ token.Matches n.item ∧
      ∀ (i' : Nat) (n' : Node), t.nodes[i']? = some n' →
        n'.position = token.position → i' = i
  size : t.size = tokens.countP (·.kind.makesNode)

/-- Where no two are at the same position an index is found again by its position. -/
theorem index_unique {α : Type} {f : α → Int} {xs : List α} (h : (xs.map f).Nodup) {i j : Nat}
    {x y : α} (hx : xs[i]? = some x) (hy : xs[j]? = some y) (hf : f x = f y) : i = j := by
  have hi : (xs.map f)[i]? = some (f x) := by simp [hx]
  have hj : (xs.map f)[j]? = some (f x) := by simp [hy, hf]
  exact (List.getElem?_inj (List.getElem?_eq_some_iff.1 hi).1 h).1 (hi.trans hj.symm)

section Derived

variable {r : Registry} {d : Derivation} {e : Expr} {finish : Int} {t : Tree}
  (hd : Derives r (.level 1) d) (he : d.exprs = [e]) (hcells : t.cells = e.cells 0)

include hd he hcells

/-- The nodes stand where the tokens stand that make nodes. -/
theorem Tree.positions_perm : (t.nodes.toList.map Node.position).Perm
    (((d.tokens ++ [Token.finish finish]).filter (·.kind.makesNode)).map Token.position) := by
  have hnodes : t.nodes.toList.map Node.position = Expr.positionsAll d.exprs := by
    rw [he, Expr.positionsAll, Expr.positionsAll, List.append_nil, ← e.map_position_cells 0,
      ← hcells, Tree.cells, List.map_map]
    rfl
  rw [hnodes, List.filter_append]
  simpa [Token.finish, TokenKind.makesNode] using hd.positions

/-- A token at the position of a node matches it. -/
theorem Tree.exists_token {i : Nat} {n : Node} (hn : t.nodes[i]? = some n) :
    ∃ (k : Nat) (token : Token), (d.tokens ++ [Token.finish finish])[k]? = some token ∧
      token.position = n.position ∧ token.Matches n.item := by
  have hmem : n.cell ∈ Expr.cellsAll 0 d.exprs := by
    rw [he, Expr.cellsAll, Expr.cellsAll, List.append_nil, ← hcells]
    exact List.mem_of_getElem? (getElem?_cells hn)
  obtain ⟨token, htoken, hposition, hmatches⟩ := hd.matched n.cell hmem
  obtain ⟨k, hk⟩ := List.mem_iff_getElem?.1 (List.mem_append_left _ htoken)
  exact ⟨k, token, hk, hposition, hmatches⟩

/-- **A tree corresponds to the tokens of its derivation**, if these are at increasing positions. -/
theorem Tree.corresponds
    (hts : (d.tokens ++ [Token.finish finish]).Pairwise fun t t' => t.position < t'.position) :
    t.Corresponds (d.tokens ++ [Token.finish finish]) := by
  have hpositions : (t.nodes.toList.map Node.position).Perm
      (((d.tokens ++ [Token.finish finish]).filter (·.kind.makesNode)).map Token.position) :=
    positions_perm hd he hcells
  have htokens : ((d.tokens ++ [Token.finish finish]).map Token.position).Nodup :=
    List.pairwise_map.2 (hts.imp Int.ne_of_lt)
  have hnodes : (t.nodes.toList.map Node.position).Nodup :=
    hpositions.nodup_iff.2 (htokens.sublist (List.filter_sublist.map _))
  refine ⟨fun i n hn => ?_, fun k token hk hmakes => ?_, ?_⟩
  · obtain ⟨k, token, hk, hposition, hmatches⟩ := exists_token hd he hcells hn
    exact ⟨k, token, hk, hposition, hmatches.makesNode, hmatches, fun k' token' hk' hposition' =>
      index_unique htokens hk' hk (hposition'.trans hposition.symm)⟩
  · have hmem := List.mem_map_of_mem (f := Token.position)
      (List.mem_filter (p := (·.kind.makesNode)).2 ⟨List.mem_of_getElem? hk, hmakes⟩)
    obtain ⟨n, hn, hposition⟩ := List.mem_map.1 (hpositions.mem_iff.2 hmem)
    obtain ⟨i, hi⟩ := List.mem_iff_getElem?.1 hn
    have hi' : t.nodes[i]? = some n := by rwa [← Array.getElem?_toList]
    -- what matches the node is at its position, and so it is the token
    obtain ⟨k', token', hk', hposition', hmatches⟩ := exists_token hd he hcells hi'
    obtain rfl := index_unique htokens hk' hk (hposition'.trans hposition)
    obtain rfl := Option.some.inj (hk'.symm.trans hk)
    exact ⟨i, n, hi', hposition, hmatches, fun i' n' hn' hposition'' =>
      index_unique hnodes (by rwa [Array.getElem?_toList]) hi (hposition''.trans hposition.symm)⟩
  · have hlength := hpositions.length_eq
    rw [List.length_map, List.length_map, Array.length_toList] at hlength
    rw [Tree.size, hlength, List.countP_eq_length_filter]

end Derived

/-- No call of a parsed tree is without arguments. -/
theorem Grammar.children_pos_of_parse {g : Grammar} (hr : g.registry.Reached) {tokens : List Token}
    {t : Tree} (h : g.parse tokens = .ok t) :
    ∀ n ∈ t.nodes.toList, n.item.isCall = true → 0 < n.children.length := by
  intro n hn hcall
  have hcount (o : Operation) (ho : o ∈ g.registry.operations) (count : Nat)
      (haccepts : o.accepts count = true) : 0 < count := (hr.declared o ho).count_pos haccepts
  cases hitem : n.item with
  | number | var => simp [hitem, Item.isCall] at hcall
  | operation o => exact operation_of_parse hr hcount Nat.one_pos h n hn o hitem

/-- **Tokens and nodes correspond one to one.** The nodes of the tree of a text and its numbers,
names, operators and functions are the same positions, each of them once, and match. Infix operators
are between what is below their two operands, negations and calls before all that is below them, and
operands one behind the other. There is one comma less than arguments to each call, and as many
parentheses are closed as are opened. -/
theorem parseText_correspondence {source : String} {r : Registry} (hr : r.Reached)
    {limits : Limits} {t : Tree} (h : parseText source r limits = .ok t) :
    ∃ tokens, tokenize source r limits = .ok tokens ∧ t.Corresponds tokens ∧ t.InOrder ∧
      (tokens.countP (·.kind == .comma) : Int) =
        ((t.nodes.toList.filter (·.item.isCall)).map fun n => (n.children.length : Int) - 1).sum ∧
      tokens.countP (·.kind == .leftParen) = tokens.countP (·.kind == .rightParen) := by
  obtain ⟨d, e, finish, htokens, hd, _, he, htree⟩ := derives_of_parseText h
  have hincreasing := (laid_of_tokenize htokens).increasing
  obtain ⟨hcells, _⟩ := Tree.ofExpr_eq_ok htree
  obtain ⟨b, root, _, hbuild⟩ := Tree.ofExpr_built htree
  refine ⟨_, htokens, Tree.corresponds hd he hcells hincreasing, ?_, ?_, ?_⟩
  · have hin := (hd.successive hr (List.pairwise_append.1 hincreasing).1).inOrder
    rw [he] at hin
    exact Tree.inOrder_of_shows (Tree.shows_ofExpr htree) hin.1 (Builder.build_below hbuild)
  · obtain ⟨tokens, hparse⟩ := exists_parse_of_parseText h
    rw [← sum_commas (Grammar.children_pos_of_parse hr hparse), List.countP_append, hd.commas 0]
    simp [Expr.commas, he, Expr.cellsAll, ← hcells, Tree.cells, Symbol.commas, Token.finish]
  · have hopen : openAfter 0 (d.tokens ++ [Token.finish finish]) = some 0 := by
      rw [hd.openAfter]
      rfl
    simpa using countP_of_openAfter hopen

/-- A call and parentheses within it. -/
theorem parseText_correspondence_call :
    ∃ t, parseText "-MAX(a,(2+b)*3)" .standard .standard = .ok t ∧ t.size = 8 ∧ t.InOrder ∧
      ((t.nodes.toList.filter (·.item.isCall)).map fun n => (n.children.length : Int) - 1).sum = 1 ∧
      ∃ (i : Nat) (n : Node), t.nodes[i]? = some n ∧ n.position = 1 ∧
        Token.Matches ⟨.function, "MAX", 1⟩ n.item := by
  obtain ⟨t, ht⟩ := exists_of_isOk
    (show (parseText "-MAX(a,(2+b)*3)" .standard .standard).isOk = true by decide +kernel)
  have hread : tokenize "-MAX(a,(2+b)*3)" .standard .standard = .ok [⟨.operator, "-", 0⟩,
    ⟨.function, "MAX", 1⟩, ⟨.leftParen, "(", 4⟩, ⟨.identifier, "a", 5⟩, ⟨.comma, ",", 6⟩,
    ⟨.leftParen, "(", 7⟩, ⟨.number, "2", 8⟩, ⟨.operator, "+", 9⟩, ⟨.identifier, "b", 10⟩,
    ⟨.rightParen, ")", 11⟩, ⟨.operator, "*", 12⟩, ⟨.number, "3", 13⟩, ⟨.rightParen, ")", 14⟩,
    ⟨.finish, "", 15⟩] := rfl
  obtain ⟨tokens, htokens, hcorresponds, hin, hcommas, _⟩ :=
    parseText_correspondence Registry.standard_reached ht
  obtain rfl := Except.ok.inj (hread.symm.trans htokens)
  obtain ⟨i, n, hn, hposition, hmatches, _⟩ := hcorresponds.node 1 _ rfl rfl
  exact ⟨t, ht, hcorresponds.size, hin, hcommas.symm, i, n, hn, hposition, hmatches⟩

end Reckon
