/-
What parsing a text can come to (`parseText_outcomes`): a tree, or a diagnostic
of the scanner, of the grammar or of the limits. What could go wrong inside has
been excluded before it is reached. The scanner makes no numeral that is not
read as a number and no operator or function that is not looked up again; the
reader stays among the tokens; and the parser adds what can be read to its
builder without fail, whatever the builder holds by then.
-/
import Reckon.Proofs.Grammar.Extent
import Reckon.Proofs.Tree.Building

namespace Reckon

/-! ## Tokens of a text -/

namespace Scanner

variable {r : Registry} {source : String}

theorem kind_of_flush_error {s : State} {d : Diagnostic} (h : flush r source s = .error d) :
    d.kind = .lex := by
  unfold flush at h
  split at h
  · cases h
  · rw [bind_eq_error] at h
    rcases h with h | ⟨_, _, h⟩
    · rw [(runToken_eq_error h).1]
      rfl
    · cases h

/-- The scanner has problems with characters only. -/
theorem kind_of_scan_error {d : Diagnostic} : ∀ {cs : List Char} {s : State} {position : Nat},
    scan r source s position cs = .error d → d.kind = .lex
  | [], s, position, h => by
    rw [scan, bind_eq_error] at h
    rcases h with h | ⟨_, _, h⟩
    · exact kind_of_flush_error h
    · cases h
  | c :: cs, s, position, h => by
    rw [scan_cons, bind_eq_error] at h
    rcases h with h | ⟨_, _, h⟩
    · cases he : effect r s c <;> simp only [he, Effect.outcome, bind_eq_error] at h
      case join | skip => cases h
      case begin | token | space =>
        rcases h with h | ⟨_, _, h⟩
        · exact kind_of_flush_error h
        · cases h
      case illegal =>
        obtain rfl := Except.error.inj h
        rfl
    · rw [bind_eq_error] at h
      rcases h with h | ⟨_, _, h⟩
      · exact kind_of_scan_error h
      · cases h

end Scanner

variable {r : Registry} {source : String} {limits : Limits} {tokens : List Token}

theorem kind_of_tokenize_error {d : Diagnostic} (h : tokenize source r limits = .error d) :
    d.kind = .lex ∨ d.kind = .limit := by
  rw [tokenize, bind_eq_error] at h
  rcases h with h | ⟨_, _, h⟩
  · exact .inr (Limits.kind_of_check h)
  · exact .inl (Scanner.kind_of_scan_error h)

theorem Registry.exists_of_isFunction {name : String} (h : r.isFunction name = true) :
    ∃ o, r.get? name = some o ∧ o.isFunction = true := by
  unfold isFunction at h
  split at h
  · next o ho => exact ⟨o, ho, h⟩
  · cases h

theorem Registry.exists_of_isOperator {name : String} (h : r.isOperator name = true) :
    ∃ o, r.get? name = some o ∧ o.isFunction = false := by
  unfold isOperator at h
  split at h
  · next o ho => exact ⟨o, ho, by simpa using h⟩
  · cases h

/-- Operators and functions are found again. -/
theorem Lexeme.lookup {t : Token} (h : Lexeme r t.value.toList t.kind) :
    (t.kind = .operator → ∃ o, r.InfixToken t o) ∧
      (t.kind = .function → ∃ o, r.FunctionToken t o) := by
  obtain ⟨k, value, position⟩ := t
  generalize hcs : value.toList = cs at h
  have hvalue : value = String.ofList cs := by rw [← hcs, String.ofList_toList]
  cases h with
  | function _ _ hf =>
    obtain ⟨o, ho, hfo⟩ := Registry.exists_of_isFunction hf
    exact ⟨nofun, fun hk => ⟨o, hk, hvalue ▸ ho, hfo⟩⟩
  | operator hop =>
    obtain ⟨o, ho, hfo⟩ := Registry.exists_of_isOperator hop
    rw [String.singleton_eq_ofList] at ho
    exact ⟨fun hk => ⟨o, hk, hvalue ▸ ho, hfo⟩, nofun⟩
  | identifier | number | comma | leftParen | rightParen => exact ⟨nofun, nofun⟩

/-- What holds of lexemes and of the end holds of all tokens of a text. -/
theorem forall_of_tokenize {P : Token → Prop} (h : tokenize source r limits = .ok tokens)
    (hlexeme : ∀ t, Lexeme r t.value.toList t.kind → P t) (hfinish : ∀ n, P (Token.finish n)) :
    ∀ t ∈ tokens, P t := by
  obtain ⟨lexemes, n, rfl, hlex⟩ := tokenize_lexeme h
  intro t ht
  rw [List.mem_append, List.mem_singleton] at ht
  rcases ht with ht | rfl
  · exact hlexeme t (hlex t ht)
  · exact hfinish n

theorem isSome_of_tokenize (h : tokenize source r limits = .ok tokens) :
    ∀ t ∈ tokens, t.kind = .number → (Decimal.read? t.value).isSome :=
  forall_of_tokenize h (fun _ ht hk => (Lexeme.numeral (hk ▸ ht)).read) fun _ => nofun

theorem lookup_of_tokenize (h : tokenize source r limits = .ok tokens) :
    ∀ t ∈ tokens, (t.kind = .operator → ∃ o, r.InfixToken t o) ∧
      (t.kind = .function → ∃ o, r.FunctionToken t o) :=
  forall_of_tokenize h (fun _ ht => ht.lookup) fun _ => ⟨nofun, nofun⟩

theorem exists_finish_of_tokenize (h : tokenize source r limits = .ok tokens) :
    ∃ t ∈ tokens, t.kind = .finish := by
  obtain ⟨lexemes, n, rfl, _⟩ := tokenize_lexeme h
  exact ⟨Token.finish n, List.mem_append_right _ (List.mem_singleton_self _), rfl⟩

/-- The end of a text is its last token. -/
theorem closed_of_tokenize (h : tokenize source r limits = .ok tokens) :
    Grammar.closed tokens = tokens := by
  obtain ⟨lexemes, n, rfl, _⟩ := tokenize_lexeme h
  simp [Grammar.closed, Token.finish]

theorem readable_of_tokenize {g : Grammar} (h : tokenize source g.registry limits = .ok tokens) :
    g.Readable tokens where
  ends := exists_finish_of_tokenize h
  number := isSome_of_tokenize h
  function := fun t ht => (lookup_of_tokenize h t ht).2

/-! ## Counts of operands -/

theorem Expr.operationsAll_append {P : Operation → Nat → Prop} : ∀ {es es' : List Expr},
    OperationsAll P (es ++ es') ↔ OperationsAll P es ∧ OperationsAll P es'
  | [], es' => by simp [OperationsAll]
  | e :: es, es' => by simp [OperationsAll, operationsAll_append, and_assoc]

section Operations

variable {P : Operation → Nat → Prop}
  (hP : ∀ o ∈ r.operations, ∀ count : Nat, o.accepts count = true → P o count)
  (hnegation : P .negation 1)

include hP hnegation

/-- Where functions take their arguments the operations are negation and the registered ones, and
have as many operands as they take. -/
theorem Derives.operationsAll (hr : r.Reached) {s d} (h : Derives r s d) (hacc : d.Accepted) :
    Expr.OperationsAll P d.exprs := by
  have hget {name : String} {o : Operation} (ho : r.get? name = some o) {count : Nat} :
      o.accepts count = true → P o count := hP o (List.mem_of_find?_eq_some ho) count
  induction h with
  | operand _ ih | plain _ ih | group _ _ _ ih => exact ih hacc
  | @binary _ left t o right hl ho _ hr' ihl ihr =>
    obtain ⟨e, he⟩ := hl.single trivial
    obtain ⟨e', he'⟩ := hr'.single trivial
    refine ⟨⟨Expr.operationsAll_append.2 ⟨ihl hacc.1, ihr hacc.2⟩, ?_⟩, trivial⟩
    rw [he, he']
    exact hget ho.2.1 (hr.accepts_infix ho)
  | @negation t u _ _ hu ih =>
    obtain ⟨e, he⟩ := hu.single trivial
    refine ⟨⟨ih hacc, ?_⟩, trivial⟩
    rw [he]
    exact hnegation
  | call hf _ _ _ ih => exact ⟨⟨ih hacc.1, hget hf.2.1 hacc.2⟩, trivial⟩
  | number | name => exact ⟨trivial, trivial⟩
  | noArguments | noFurther => trivial
  | arguments _ _ ihd ihr | further _ _ _ ihd ihr =>
    exact Expr.operationsAll_append.2 ⟨ihd hacc.1, ihr hacc.2⟩

theorem Derives.operations (hr : r.Reached) {s d e} (h : Derives r s d) (hacc : d.Accepted)
    (he : d.exprs = [e]) : e.Operations P := by
  have hall := h.operationsAll hP hnegation hr hacc
  rw [he] at hall
  exact hall.1

end Operations

theorem Derives.accepted (hr : r.Reached) {s d e} (h : Derives r s d) (hacc : d.Accepted)
    (he : d.exprs = [e]) : e.Accepted :=
  h.operations (fun _ _ _ haccepts => haccepts) rfl hr hacc he

namespace Grammar

variable {g : Grammar}

/-- What is read on the way the parser adds to any builder. -/
theorem added_of_infixTail {depth nesting count : Nat} {floor : Int} {c next after : Cursor}
    {left e : Expr} (hleft : unary g depth nesting c = .ok (left, next))
    (htail : infixTail g (fun p c => binary g depth nesting p c) floor count left next =
      .ok (e, after)) (b : Builder) :
    ∃ leftIndex b₁ index b', parseUnary g depth nesting b c = .ok (leftIndex, b₁, next) ∧
      parseOperators g (fun p b c => parseBinary g depth nesting p b c) floor count leftIndex b₁
        next = .ok (index, b', after) ∧
      b.addExpr e = .ok (index, b') := by
  have hlaying := laying g depth
  have hunary := hlaying.unary nesting b c
  rw [hleft] at hunary
  obtain ⟨leftIndex, b₁, hparseLeft, hlaysLeft⟩ := hunary.exists_of_ok
  have hoperators : Lay b (infixTail g (fun p c => binary g depth nesting p c) floor count left
      next) _ := lay_operators (hlaying.binary nesting) hlaysLeft
  rw [htail] at hoperators
  obtain ⟨index, b', hparse, hlays⟩ := hoperators.exists_of_ok
  exact ⟨leftIndex, b₁, index, b', hparseLeft, hparse, hlays.added⟩

theorem accepted_of_whole (hr : g.registry.Reached) {e : Expr} (h : g.whole tokens = .ok e) :
    e.Accepted := by
  obtain ⟨_, hd, hacc, hes, _⟩ := whole_derives h
  exact hd.accepted hr hacc hes

/-! ## Outcomes -/

/-- Parsing readable tokens fails as reading them does, or at the limit of nodes. -/
theorem parse_refused (hr : g.registry.Reached) (hreadable : g.Readable (closed tokens))
    {f : Failure} (h : g.parse tokens = .error f) : g.Refused .start ⟨0, closed tokens⟩ f := by
  rw [parse_eq_whole, bind_eq_error] at h
  rcases h with h | ⟨e, he, h⟩
  · exact whole_refused hr hreadable h
  obtain ⟨t, ht⟩ := Tree.exists_ofExpr (accepted_of_whole hr he) g.source
  rw [finish, ht, mapError_ok, bind_eq_error] at h
  rcases h with h | ⟨_, _, h⟩
  · cases h
  rw [bind_eq_error] at h
  rcases h with h | ⟨_, _, h⟩
  · exact refused_of_check h
  · cases h

theorem Refused.kind {p : Outlook} {c : Cursor} {f : Failure} (h : g.Refused p c f) :
    ∃ d, f = .diagnostic d ∧ (d.kind = .grammar ∨ d.kind = .limit) := by
  cases h with
  | limit => exact ⟨_, rfl, .inr rfl⟩
  | problem => exact ⟨_, rfl, .inl rfl⟩

/-- A problem with the grammar is one at a token of the list, which is to blame for it. -/
theorem Refused.blames {d : Diagnostic} (h : g.Refused .start ⟨0, tokens⟩ (.diagnostic d))
    (hk : d.kind = .grammar) :
    ∃ problem before t rest, tokens = before ++ t :: rest ∧
      d.cause = .grammar problem (some before.length) ∧ d.position = some t.position ∧
      problem.About tokens ∧ g.registry.Blames .start before t rest problem := by
  cases h with
  | limit => cases hk
  | @problem before t rest problem htokens hp hblames =>
    exact ⟨problem, before, t, rest, htokens, by simp, rfl, hp, hblames⟩

theorem Refused.token {d : Diagnostic} (h : g.Refused .start ⟨0, tokens⟩ (.diagnostic d))
    (hk : d.kind = .grammar) :
    ∃ problem i t, d.cause = .grammar problem (some (i : Nat)) ∧ tokens[i]? = some t ∧
      d.position = some t.position ∧ ∀ name, problem ≠ .unknownFunction name := by
  obtain ⟨problem, before, t, rest, rfl, hcause, hposition, hp, _⟩ := h.blames hk
  exact ⟨problem, before.length, t, hcause, by simp, hposition, hp.known⟩

end Grammar

theorem refused_of_tokenize (hr : r.Reached) (htokens : tokenize source r limits = .ok tokens)
    {f : Failure} (h : Grammar.parse ⟨r, limits, some source⟩ tokens = .error f) :
    Grammar.Refused ⟨r, limits, some source⟩ .start ⟨0, tokens⟩ f := by
  have hclosed := closed_of_tokenize htokens
  have hreadable : Grammar.Readable ⟨r, limits, some source⟩ (Grammar.closed tokens) := by
    rw [hclosed]
    exact readable_of_tokenize htokens
  have := Grammar.parse_refused hr hreadable h
  rwa [hclosed] at this

/-- What parsing a text goes through to a tree. -/
theorem parseText_eq_ok {t : Tree} (h : parseText source r limits = .ok t) :
    ∃ tokens e, tokenize source r limits = .ok tokens ∧
      Grammar.whole ⟨r, limits, some source⟩ tokens = .ok e ∧
      Tree.ofExpr e (some source) = .ok t := by
  rw [parseText, bind_eq_ok] at h
  obtain ⟨tokens, htokens, h⟩ := h
  obtain ⟨e, hwhole, htree⟩ := Grammar.parse_eq_ok h
  exact ⟨tokens, e, mapError_eq_ok.1 htokens, hwhole, htree⟩

/-- The tokens of a text that is parsed are those of a derivation and the end. -/
theorem derives_of_parseText {t : Tree} (h : parseText source r limits = .ok t) :
    ∃ d e n, tokenize source r limits = .ok (d.tokens ++ [Token.finish n]) ∧
      Derives r (.level 1) d ∧ d.Accepted ∧ d.exprs = [e] ∧
      Tree.ofExpr e (some source) = .ok t := by
  obtain ⟨tokens, e, htokens, hwhole, htree⟩ := parseText_eq_ok h
  obtain ⟨d, hd, hacc, hes, hbody⟩ := Grammar.whole_derives hwhole
  obtain ⟨lexemes, n, rfl, hlex⟩ := tokenize_lexeme htokens
  rw [Grammar.body_finish fun t ht => (hlex t ht).ne_finish] at hbody
  exact ⟨d, e, n, hbody ▸ htokens, hd, hacc, hes, htree⟩

/-- Parsing a text fails with diagnostics of three kinds. -/
theorem kind_of_parseText_error (hr : r.Reached) {f : Failure}
    (h : parseText source r limits = .error f) :
    ∃ d, f = .diagnostic d ∧ (d.kind = .lex ∨ d.kind = .grammar ∨ d.kind = .limit) := by
  rw [parseText, bind_eq_error] at h
  rcases h with h | ⟨tokens, htokens, h⟩
  · obtain ⟨d, hd, rfl⟩ := mapError_eq_error.1 h
    refine ⟨d, rfl, ?_⟩
    rcases kind_of_tokenize_error hd with hk | hk
    · exact .inl hk
    · exact .inr (.inr hk)
  · obtain ⟨d, rfl, hk⟩ := (refused_of_tokenize hr (mapError_eq_ok.1 htokens) h).kind
    exact ⟨d, rfl, .inr hk⟩

/-- **Parsing fails with diagnostics of the scanner, the grammar and the limits only.** Of the
tokens of a text, numerals are read as numbers, and operators and functions are found again as what
they are. What stands behind the tokens is not read, and problems are told of one of them; no
function is unknown. What the reader has read, after any count of operators in its loop, can be
added to any builder, and the whole can be made a tree. -/
theorem parseText_outcomes {r : Registry} (hr : r.Reached) (source : String) (limits : Limits) :
    (∀ f, parseText source r limits = .error f →
      ∃ d, f = .diagnostic d ∧ (d.kind = .lex ∨ d.kind = .grammar ∨ d.kind = .limit)) ∧
    ∀ tokens, tokenize source r limits = .ok tokens →
      let g : Grammar := ⟨r, limits, some source⟩
      (∀ t ∈ tokens, t.kind = .number → (Decimal.read? t.value).isSome) ∧
      (∀ t ∈ tokens, t.kind = .operator → ∃ o, r.InfixToken t o) ∧
      (∀ t ∈ tokens, t.kind = .function → ∃ o, r.FunctionToken t o) ∧
      (∀ more, g.parse (tokens ++ more) = g.parse tokens) ∧
      (∀ d, g.parse tokens = .error (.diagnostic d) → d.kind = .grammar →
        ∃ problem i t, d.cause = .grammar problem (some (i : Nat)) ∧ tokens[i]? = some t ∧
          d.position = some t.position ∧ ∀ name, problem ≠ .unknownFunction name) ∧
      (∀ depth nesting floor count c left next e after, g.unary depth nesting c = .ok (left, next) →
        g.infixTail (fun p c => g.binary depth nesting p c) floor count left next =
          .ok (e, after) →
        ∀ b : Builder, ∃ leftIndex b₁ index b',
          g.parseUnary depth nesting b c = .ok (leftIndex, b₁, next) ∧
          g.parseOperators (fun p b c => g.parseBinary depth nesting p b c) floor count leftIndex b₁
            next = .ok (index, b', after) ∧
          b.addExpr e = .ok (index, b')) ∧
      ∀ e, g.whole tokens = .ok e → ∃ t, Tree.ofExpr e g.source = .ok t := by
  refine ⟨fun f h => kind_of_parseText_error hr h, fun tokens htokens =>
    ⟨isSome_of_tokenize htokens, fun t ht => (lookup_of_tokenize htokens t ht).1,
      fun t ht => (lookup_of_tokenize htokens t ht).2,
      Grammar.parse_append (exists_finish_of_tokenize htokens),
      fun d h hk => (refused_of_tokenize hr htokens h).token hk,
      fun _ _ _ _ _ _ _ _ _ hleft htail b => Grammar.added_of_infixTail hleft htail b,
      fun e he => Tree.exists_ofExpr (Grammar.accepted_of_whole hr he) _⟩⟩

/-- A missing argument is told of the token that stands in its place. -/
theorem parseText_outcomes_argument :
    let source := "MAX(1,)"
    let tokens : List Token := [⟨.function, "MAX", 0⟩, ⟨.leftParen, "(", 3⟩, ⟨.number, "1", 4⟩,
      ⟨.comma, ",", 5⟩, ⟨.rightParen, ")", 6⟩, ⟨.finish, "", 7⟩]
    Registry.standard.Reached ∧ tokenize source .standard .standard = .ok tokens ∧
      ∃ d, Grammar.parse ⟨.standard, .standard, some source⟩ tokens = .error (.diagnostic d) ∧
        d.kind = .grammar ∧ ∃ i : Nat, ∃ t : Token, tokens[i]? = some t ∧
          d.position = some t.position := by
  have hread : tokenize "MAX(1,)" .standard .standard = .ok _ := rfl
  have houtcomes := (parseText_outcomes Registry.standard_reached "MAX(1,)" .standard).2 _ hread
  have hparse : Grammar.parse ⟨.standard, .standard, some "MAX(1,)"⟩ [⟨.function, "MAX", 0⟩,
      ⟨.leftParen, "(", 3⟩, ⟨.number, "1", 4⟩, ⟨.comma, ",", 5⟩, ⟨.rightParen, ")", 6⟩,
      ⟨.finish, "", 7⟩] = .error (.diagnostic {
        cause := .grammar .operandBeforeClose (some 4)
        position := some 6
        source := some "MAX(1,)" }) := rfl
  obtain ⟨_, i, t, _, ht, hposition, _⟩ := houtcomes.2.2.2.2.1 _ hparse rfl
  exact ⟨Registry.standard_reached, hread, _, hparse, rfl, i, t, ht, hposition⟩

end Reckon
