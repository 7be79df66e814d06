/-
Texts that parse can be put together to texts that parse to what their trees
make up (`parseText_compose`): a text in parentheses, with a minus sign before
them, two such texts with an infix operator between them, and any number of
them as the arguments of a function.

A part is known by a derivation and by the chunk of characters that it is
(`Spells`), and the whole is put together of both, without the reader. What the
reader makes of the whole it then owes to the grammar.
-/
import Reckon.Proofs.Grammar.Limits
import Reckon.Proofs.Grammar.Placement
import Reckon.Proofs.Token.Embedding

namespace Reckon

namespace Registry

/-- Under some limits the text is parsed as the expression. -/
def Parses (r : Registry) (source : String) (e : Expr) : Prop :=
  ∃ limits tree, parseText source r limits = .ok tree ∧ tree.Shows e

/-- Under all limits the text is parsed as the expression but for the positions in it, unless a
limit is exceeded. -/
def ParsesAs (r : Registry) (source : String) (e : Expr) : Prop :=
  ∀ limits, (∃ tree e', parseText source r limits = .ok tree ∧ tree.Shows e' ∧
      e'.unplaced = e.unplaced) ∨
    ∃ d, parseText source r limits = .error (.diagnostic d) ∧ d.kind = .limit

end Registry

/-! ## Spelling -/

/-- Among these open parentheses the text is a chunk, and its tokens are derived from the symbol as
those of the expressions. -/
def Spells (r : Registry) (groups : List Bool) (s : Symbol) (text : List Char)
    (es : List Expr) : Prop :=
  ∃ d, Derives r s d ∧ d.Accepted ∧ d.exprs.map Expr.unplaced = es.map Expr.unplaced ∧
    Scanner.Chunk r groups groups text (d.tokens.map Token.form)

/-- The characters of a text in parentheses. -/
def parenthesized (source : String) : List Char := '(' :: (source.toList ++ [')'])

variable {r : Registry} {groups : List Bool} {text text' : List Char} {es es' : List Expr}

/-- A text that parses is an operand in parentheses, wherever it stands. -/
theorem Registry.Parses.spells (hr : r.Reached) {source : String} {e : Expr}
    (h : r.Parses source e) (groups : List Bool) :
    Spells r groups .primary (parenthesized source) [e] := by
  obtain ⟨limits, tree, hparse, hshows⟩ := h
  obtain ⟨d, e', n, htokens, hd, hacc, hes, htree⟩ := derives_of_parseText hparse
  obtain rfl : e = e' := Shows.unique hshows (Tree.shows_ofExpr htree)
  rw [tokenize, bind_eq_ok] at htokens
  obtain ⟨_, _, hscan⟩ := htokens
  have hopen : openAfter 0 (d.tokens ++ [Token.finish n]) = some 0 := by
    rw [hd.openAfter]
    rfl
  refine ⟨.group ⟨.leftParen, "(", 0⟩ d ⟨.rightParen, ")", 0⟩, .group rfl hd rfl, hacc,
    by rw [Derivation.exprs, hes], ?_⟩
  have hchunk := Scanner.Chunk.group hr (Scanner.scan_eq_ok.1 hscan) hopen groups
  simpa [Derivation.tokens, Token.form, parenthesized] using hchunk

/-- An operand without a sign is one of every level. -/
theorem Spells.level (h : Spells r groups .primary text es) (p : Int) :
    Spells r groups (.level p) text es := by
  obtain ⟨d, hd, hacc, hes, hchunk⟩ := h
  exact ⟨.operand (.plain d), .operand (.plain hd), hacc, hes, hchunk⟩

theorem Spells.negation (hr : r.Reached) (hminus : r.isOperator "-" = true)
    (h : Spells r groups .primary text es) (p : Int) :
    Spells r groups (.level p) ('-' :: text) [.apply .negation es 0] := by
  obtain ⟨d, hd, hacc, hes, hchunk⟩ := h
  refine ⟨.operand (.negation ⟨.operator, "-", 0⟩ (.plain d)),
    .operand (.negation rfl rfl (.plain hd)), hacc, ?_, ?_⟩
  · simp [Derivation.exprs, Expr.unplaced, hes]
  · exact (Scanner.Chunk.operator (c := '-') hr hminus).append hchunk

theorem Spells.binary (hr : r.Reached) {c : Char} {o : Operation}
    (ho : r.get? (String.singleton c) = some o) (hop : o.isFunction = false)
    (h : Spells r groups .primary text es) (h' : Spells r groups .primary text' es') :
    Spells r groups (.level 1) (text ++ c :: text') [.apply o (es ++ es') 0] := by
  obtain ⟨d, hd, hacc, hes, hchunk⟩ := h.level o.precedence
  obtain ⟨d', hd', hacc', hes', hchunk'⟩ := h'.level (o.precedence + 1)
  have hoperator : r.isOperator (String.singleton c) = true := by
    simp [Registry.isOperator, ho, hop]
  refine ⟨.binary d ⟨.operator, String.singleton c, 0⟩ o d',
    .binary hd ⟨rfl, ho, hop⟩ (hr.one_le_precedence ho hop) hd', ⟨hacc, hacc'⟩, ?_, ?_⟩
  · simp [Derivation.exprs, Expr.unplaced, hes, hes']
  · rw [Derivation.tokens, List.map_append, List.map_cons]
    exact hchunk.append ((Scanner.Chunk.operator hr hoperator).append hchunk')

/-! ### Calls -/

/-- What follows the first argument. -/
def furtherText (sources : List String) : List Char :=
  sources.flatMap fun source => ',' :: parenthesized source

theorem spells_further (hr : r.Reached) (groups : List Bool) : ∀ {parts : List (String × Expr)},
    (∀ p ∈ parts, r.Parses p.1 p.2) →
      Spells r (true :: groups) .furtherArguments (furtherText (parts.map Prod.fst))
        (parts.map Prod.snd)
  | [], _ => ⟨.noFurther, .noFurther, trivial, rfl, .nil⟩
  | p :: parts, h => by
    obtain ⟨d, hd, hacc, hes, hchunk⟩ :=
      ((h p List.mem_cons_self).spells hr (true :: groups)).level 1
    obtain ⟨rest, hrest, hacc', hes', hchunk'⟩ :=
      spells_further hr groups fun q hq => h q (List.mem_cons_of_mem p hq)
    refine ⟨.further ⟨.comma, ",", 0⟩ d rest, .further rfl hd hrest, ⟨hacc, hacc'⟩, ?_, ?_⟩
    · simp [Derivation.exprs, hes, hes']
    · have hcomma : Scanner.Chunk r (true :: groups) (true :: groups) [','] [(.comma, ",")] :=
        .single hr .comma rfl fun _ => rfl
      rw [List.map_cons, Derivation.tokens, List.map_cons, List.map_append]
      exact hcomma.append (hchunk.append hchunk')

/-- The name of a function is scanned as such. -/
theorem Registry.Reached.lexeme_of_isFunction (hr : r.Reached) {name : String} {o : Operation}
    (ho : r.get? name = some o) (hfunction : o.isFunction = true) :
    Lexeme r name.toList .function := by
  have hname := Registry.name_of_get? ho
  cases hr.declared o (List.mem_of_find?_eq_some ho) with
  | function _ hne hletters =>
    rw [hname] at hne hletters
    refine .function (by simpa using hne) (List.all_eq_true.1 hletters) ?_
    simp [Registry.isFunction, ho, hfunction]
  | operator hop => simp [hfunction] at hop

theorem Spells.call (hr : r.Reached) {name : String} {o : Operation} (ho : r.get? name = some o)
    (hfunction : o.isFunction = true) (haccepts : o.accepts es.length = true)
    (h : Spells r (true :: groups) .arguments text es) :
    Spells r groups .primary (name.toList ++ ['('] ++ text ++ [')']) [.apply o es 0] := by
  obtain ⟨d, hd, hacc, hes, hchunk⟩ := h
  have hlexeme := hr.lexeme_of_isFunction ho hfunction
  have hlength : d.exprs.length = es.length := by simpa using congrArg List.length hes
  refine ⟨.call ⟨.function, name, 0⟩ o ⟨.leftParen, "(", 0⟩ d ⟨.rightParen, ")", 0⟩,
    .call ⟨rfl, ho, hfunction⟩ rfl hd rfl, ⟨hacc, hlength ▸ haccepts⟩, ?_, ?_⟩
  · simp [Derivation.exprs, Expr.unplaced, hes]
  · have hclose : Scanner.Chunk r (true :: groups) groups [')'] [(.rightParen, ")")] :=
      .single hr .rightParen rfl (by simp)
    have hcall := ((Scanner.Chunk.opening hr hlexeme).append hchunk).append hclose
    simpa [Derivation.tokens, Token.form] using hcall

theorem toList_parts (first : String) (sources : List String) :
    ("(" ++ "),(".intercalate (first :: sources) ++ ")").toList =
      parenthesized first ++ furtherText sources := by
  induction sources generalizing first with
  | nil => simp [String.intercalate_singleton, parenthesized, furtherText]
  | cons source sources ih =>
    have := ih source
    rw [String.intercalate_cons_cons]
    simp_all [parenthesized, furtherText]

/-! ## Whole texts -/

theorem Spells.parsesAs (hr : r.Reached) {source : String} {e : Expr}
    (h : Spells r [] (.level 1) source.toList [e]) : r.ParsesAs source e := by
  intro limits
  obtain ⟨d, hd, hacc, hes, hchunk⟩ := h
  rcases tokenize_of_chunk hchunk limits with ⟨diagnostic, hread, hk⟩ | ⟨body, n, hread, hforms⟩
  · exact .inr ⟨diagnostic, by rw [parseText, hread]; rfl, hk⟩
  -- the tokens of the whole stand elsewhere than those of its parts
  obtain ⟨d', hd'⟩ := hd.replace hforms
  obtain ⟨e', he'⟩ := hd'.derives.single trivial
  have hexprs := hd'.exprs.trans hes
  have hbody : d'.tokens = Grammar.body (body ++ [Token.finish n]) := by
    rw [Grammar.body_finish, hd'.tokens]
    exact hd'.tokens ▸ hd'.derives.kind_ne_finish
  have htext : parseText source r limits =
      Grammar.parse ⟨r, limits, some source⟩ (body ++ [Token.finish n]) := by
    rw [parseText, hread]
    rfl
  rw [htext]
  rcases Grammar.parse_of_accepted (g := ⟨r, limits, some source⟩) hr hd'.derives
    (hd'.accepted hacc) hbody he' with ⟨tree, htree, hshows⟩ | ⟨_, hfail, diagnostic, rfl, hk⟩
  · exact .inl ⟨tree, e', htree, hshows, by simpa [he'] using hexprs⟩
  · exact .inr ⟨diagnostic, hfail, hk⟩

/-- **Parsing is compositional.** Of texts that parse, whatever the limits and whatever their commas
mean, the texts put together parse to the operation over their trees, unless a limit is exceeded. -/
theorem parseText_compose {r : Registry} (hr : r.Reached) :
    (∀ source e, r.Parses source e →
      r.ParsesAs ("(" ++ source ++ ")") e ∧
        (r.isOperator "-" = true →
          r.ParsesAs ("-(" ++ source ++ ")") (.apply .negation [e] 0))) ∧
    (∀ o left right e e', r.get? o.name = some o → o.isFunction = false → r.Parses left e →
      r.Parses right e' →
        r.ParsesAs ("(" ++ left ++ ")" ++ o.name ++ "(" ++ right ++ ")") (.apply o [e, e'] 0)) ∧
    ∀ o (parts : List (String × Expr)), r.get? o.name = some o → o.isFunction = true →
      o.accepts parts.length = true → (∀ p ∈ parts, r.Parses p.1 p.2) →
        r.ParsesAs (o.name ++ "((" ++ "),(".intercalate (parts.map Prod.fst) ++ "))")
          (.apply o (parts.map Prod.snd) 0) := by
  refine ⟨fun source e h => ⟨?_, fun hminus => ?_⟩, ?_, ?_⟩
  · refine Spells.parsesAs hr ?_
    simpa [parenthesized] using (h.spells hr []).level 1
  · refine Spells.parsesAs hr ?_
    simpa [parenthesized] using (h.spells hr []).negation hr hminus 1
  · intro o left right e e' ho hop h h'
    obtain ⟨c, hc⟩ : ∃ c, o.name = String.singleton c := by
      cases hr.declared o (List.mem_of_find?_eq_some ho) with
      | function hf => simp [hop] at hf
      | operator _ hname => exact ⟨_, hname⟩
    refine Spells.parsesAs hr ?_
    have hspells := (h.spells hr []).binary hr (hc ▸ ho) hop (h'.spells hr [])
    simpa [parenthesized, hc] using hspells
  · intro o parts ho hfunction haccepts h
    cases parts with
    | nil =>
      cases hr.declared o (List.mem_of_find?_eq_some ho) with
      | function _ _ _ _ hmin => simp [Operation.accepts] at haccepts; omega
      | operator hop => simp [hop] at hfunction
    | cons p parts =>
      obtain ⟨d, hd, hacc, hes, hchunk⟩ :=
        ((h p List.mem_cons_self).spells hr [true]).level 1
      obtain ⟨rest, hrest, hacc', hes', hchunk'⟩ :=
        spells_further hr [] fun q hq => h q (List.mem_cons_of_mem p hq)
      have harguments : Spells r [true] .arguments
          (parenthesized p.1 ++ furtherText (parts.map Prod.fst)) ((p :: parts).map Prod.snd) := by
        refine ⟨.arguments d rest, .arguments hd hrest, ⟨hacc, hacc'⟩, ?_, ?_⟩
        · simp [Derivation.exprs, hes, hes']
        · rw [Derivation.tokens, List.map_append]
          exact hchunk.append hchunk'
      refine Spells.parsesAs hr ?_
      have hspells := (harguments.call hr ho hfunction (by simpa using haccepts)).level 1
      rw [← toList_parts] at hspells
      simpa using hspells

/-- A comma among digits does not separate arguments in the whole either. -/
theorem parseText_compose_maximum :
    Registry.standard.Reached ∧ ∃ o e e', Registry.standard.get? "MAX" = some o ∧
      Registry.standard.Parses "1,000" e ∧ Registry.standard.Parses "2*x" e' ∧
      Registry.standard.ParsesAs "MAX((1,000),(2*x))" (.apply o [e, e'] 0) := by
  have hparses {source : String} (h : (parseText source .standard .standard).isOk = true) :
      ∃ e, Registry.standard.Parses source e := by
    obtain ⟨tree, htree⟩ := exists_of_isOk h
    obtain ⟨_, e, _, _, hshows⟩ := parseText_eq_ok htree
    exact ⟨e, .standard, tree, htree, Tree.shows_ofExpr hshows⟩
  obtain ⟨e, he⟩ := hparses
    (show (parseText "1,000" .standard .standard).isOk = true by decide +kernel)
  obtain ⟨e', he'⟩ := hparses
    (show (parseText "2*x" .standard .standard).isOk = true by decide +kernel)
  obtain ⟨o, ho, hmax⟩ := (Option.any_eq_true _ _).1 (show (Registry.standard.get? "MAX").any
    (fun o => o.name == "MAX" && o.isFunction && o.accepts 2) = true by decide)
  simp only [Bool.and_eq_true, beq_iff_eq] at hmax
  obtain ⟨⟨hname, hfunction⟩, haccepts⟩ := hmax
  have hcompose := (parseText_compose Registry.standard_reached).2.2 o [("1,000", e), ("2*x", e')]
    (hname ▸ ho) hfunction haccepts (by simp [he, he'])
  rw [hname] at hcompose
  exact ⟨Registry.standard_reached, o, e, e', ho, he, he', hcompose⟩

end Reckon
