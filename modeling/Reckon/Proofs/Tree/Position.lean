/-
Where the nodes of a tree are from. A node stands at the position of a token and
is of its kind, and what it holds is what the token writes (`Derives.matched`):
if it has a name, of a variable or of an operation, the token is that name
(`Grammar.written_of_parse`). Parentheses, commas and the end write no node. In
the tree of a text the names stand at the positions of their nodes
(`standsAt_of_parseText`).
-/
import Reckon.Proofs.Grammar.Outcomes
import Reckon.Proofs.Token.Position

namespace Reckon

/-- The name of a variable or of an operation. -/
def Item.name? : Item → Option String
  | .number _ => none
  | .var name => some name
  | .operation o => some o.name

/-- The token stands at the position, and is the name of the item if that has one. -/
structure Token.Writes (t : Token) (item : Item) (position : Int) : Prop where
  position : t.position = position
  name : ∀ name, item.name? = some name → t.value = name

/-- The token is what the item is read from: the numeral of a number, or the name of a variable or
of an operation, which is a function or an operator. -/
def Token.Matches (t : Token) : Item → Prop
  | .number x => t.kind = .number ∧ Decimal.read? t.value = some x
  | .var name => t.kind = .identifier ∧ t.value = name
  | .operation o => t.kind = (if o.isFunction then .function else .operator) ∧ t.value = o.name

theorem Token.Matches.writes {t : Token} {item : Item} (h : t.Matches item) :
    t.Writes item t.position := by
  refine ⟨rfl, fun name hname => ?_⟩
  cases item with
  | number => cases hname
  | var | operation => exact Option.some.inj hname ▸ h.2

theorem Registry.InfixToken.matches {r : Registry} {t : Token} {o : Operation}
    (h : r.InfixToken t o) : t.Matches (.operation o) :=
  ⟨by simp [h.1, h.2.2], (name_of_get? h.2.1).symm⟩

theorem Registry.FunctionToken.matches {r : Registry} {t : Token} {o : Operation}
    (h : r.FunctionToken t o) : t.Matches (.operation o) :=
  ⟨by simp [h.1, h.2.2], (name_of_get? h.2.1).symm⟩

namespace Expr

theorem cellsAll_append : ∀ {base : Nat} (es es' : List Expr),
    cellsAll base (es ++ es') = cellsAll base es ++ cellsAll (base + sizeAll es) es'
  | base, [], es' => by simp [cellsAll, sizeAll]
  | base, e :: es, es' => by simp [cellsAll, sizeAll, cellsAll_append es es', Nat.add_assoc]

theorem mem_cellsAll_apply {base : Nat} {o : Operation} {es : List Expr} {position : Int}
    {c : Cell} : c ∈ cellsAll base [.apply o es position] ↔
      c ∈ cellsAll base es ∨ c = ⟨.operation o, tops base es, position⟩ := by
  simp [cellsAll, cells]

end Expr

/-- One of the tokens writes the cell. -/
def Cell.WrittenIn (c : Cell) (ts : List Token) : Prop := ∃ t ∈ ts, t.Writes c.item c.position

/-- One of the tokens stands at the position of the cell and matches it. -/
def Cell.MatchedIn (c : Cell) (ts : List Token) : Prop :=
  ∃ t ∈ ts, t.position = c.position ∧ t.Matches c.item

theorem Cell.MatchedIn.mono {c : Cell} {ts ts' : List Token} (h : c.MatchedIn ts)
    (hts : ts ⊆ ts') : c.MatchedIn ts' := by
  obtain ⟨t, ht, hmatches⟩ := h
  exact ⟨t, hts ht, hmatches⟩

theorem Cell.MatchedIn.writtenIn {c : Cell} {ts : List Token} (h : c.MatchedIn ts) :
    c.WrittenIn ts := by
  obtain ⟨t, ht, hposition, hmatches⟩ := h
  exact ⟨t, ht, hposition ▸ hmatches.writes⟩

/-- **Every cell of what is derived is matched by a token of the derivation.** -/
theorem Derives.matched {r : Registry} {s d} (h : Derives r s d) : ∀ {base : Nat},
    ∀ c ∈ Expr.cellsAll base d.exprs, c.MatchedIn d.tokens := by
  induction h with
  | operand _ ih | plain _ ih => exact ih
  | @binary _ left t o right _ ho _ _ ihl ihr =>
    intro base c hc
    rw [Derivation.exprs, Expr.mem_cellsAll_apply, Expr.cellsAll_append, List.mem_append] at hc
    rcases hc with (hc | hc) | rfl
    · exact (ihl c hc).mono (List.subset_append_left _ _)
    · exact (ihr c hc).mono (List.subset_append_of_subset_right _ (List.subset_cons_self _ _))
    · exact ⟨t, List.mem_append_right _ (.head _), rfl, ho.matches⟩
  | @negation t u hk hvalue _ ih =>
    intro base c hc
    rw [Derivation.exprs, Expr.mem_cellsAll_apply] at hc
    rcases hc with hc | rfl
    · exact (ih c hc).mono (List.subset_cons_self _ _)
    · exact ⟨t, .head _, rfl, hk, hvalue⟩
  | @number t x hk hread =>
    intro base c hc
    obtain rfl : c = ⟨.number x, [], t.position⟩ := by
      simpa [Derivation.exprs, Expr.cellsAll, Expr.cells] using hc
    exact ⟨t, .head _, rfl, hk, hread⟩
  | @name t hk =>
    intro base c hc
    obtain rfl : c = ⟨.var t.value, [], t.position⟩ := by
      simpa [Derivation.exprs, Expr.cellsAll, Expr.cells] using hc
    exact ⟨t, .head _, rfl, hk, rfl⟩
  | @group a d b _ _ _ ih =>
    intro base c hc
    have hinner : d.tokens ⊆ a :: (d.tokens ++ [b]) :=
      List.subset_cons_of_subset _ (List.subset_append_left _ _)
    exact (ih c hc).mono hinner
  | @call t o a args b hf _ _ _ ih =>
    intro base c hc
    rw [Derivation.exprs, Expr.mem_cellsAll_apply] at hc
    rcases hc with hc | rfl
    · have hinner : args.tokens ⊆ t :: a :: (args.tokens ++ [b]) :=
        List.subset_cons_of_subset _ (List.subset_cons_of_subset _ (List.subset_append_left _ _))
      exact (ih c hc).mono hinner
    · exact ⟨t, .head _, rfl, hf.matches⟩
  | noArguments | noFurther => exact fun c hc => absurd hc List.not_mem_nil
  | arguments _ _ ihd ihr =>
    intro base c hc
    rw [Derivation.exprs, Expr.cellsAll_append, List.mem_append] at hc
    rcases hc with hc | hc
    · exact (ihd c hc).mono (List.subset_append_left _ _)
    · exact (ihr c hc).mono (List.subset_append_right _ _)
  | further _ _ _ ihd ihr =>
    intro base c hc
    rw [Derivation.exprs, Expr.cellsAll_append, List.mem_append] at hc
    rcases hc with hc | hc
    · exact (ihd c hc).mono (List.subset_cons_of_subset _ (List.subset_append_left _ _))
    · exact (ihr c hc).mono (List.subset_cons_of_subset _ (List.subset_append_right _ _))

/-- **Every node is written by a token before the end.** -/
theorem Grammar.written_of_parse {g : Grammar} {tokens : List Token} {t : Tree}
    (h : g.parse tokens = .ok t) : ∀ n ∈ t.nodes.toList,
      ∃ token ∈ tokens, token.kind ≠ .finish ∧ token.Writes n.item n.position := by
  obtain ⟨e, hwhole, htree⟩ := parse_eq_ok h
  obtain ⟨d, hd, _, hes, htokens⟩ := whole_derives hwhole
  have hcells := (Tree.ofExpr_eq_ok htree).1
  intro n hn
  have hcell : n.cell ∈ Expr.cellsAll 0 d.exprs := by
    rw [hes, Expr.cellsAll, Expr.cellsAll, List.append_nil, ← hcells]
    exact List.mem_map_of_mem hn
  obtain ⟨token, htoken, hwrites⟩ := (hd.matched n.cell hcell).writtenIn
  have hkind := hd.kind_ne_finish token htoken
  rw [htokens, body] at htoken
  exact ⟨token, (List.takeWhile_sublist _).subset htoken, hkind, hwrites⟩

theorem Token.ne_empty_of_tokenize {source : String} {r : Registry} {limits : Limits}
    {tokens : List Token} (h : tokenize source r limits = .ok tokens) :
    ∀ t ∈ tokens, t.kind ≠ .finish → t.value ≠ "" :=
  forall_of_tokenize h (fun _ hlex _ hempty => hlex.ne_nil (by simp [hempty]))
    fun _ hne => absurd rfl hne

/-- **Every node of the tree of a text stands where its name begins.** -/
theorem standsAt_of_parseText {source : String} {r : Registry} {limits : Limits} {t : Tree}
    (h : parseText source r limits = .ok t) : ∀ n ∈ t.nodes.toList, ∀ name,
      n.item.name? = some name → StandsAt source n.position name ∧ name ≠ "" := by
  obtain ⟨tokens, htokens, hparse⟩ := bind_eq_ok.1 h
  have htokens := mapError_eq_ok.1 htokens
  intro n hn name hname
  obtain ⟨token, htoken, hkind, hwrites⟩ := Grammar.written_of_parse hparse n hn
  have hstands := standsIn_of_tokenize htokens token htoken
  have hne := Token.ne_empty_of_tokenize htokens token htoken hkind
  rw [Token.StandsIn, hwrites.position] at hstands
  rw [hwrites.name name hname] at hstands hne
  exact ⟨hstands, hne⟩

end Reckon
