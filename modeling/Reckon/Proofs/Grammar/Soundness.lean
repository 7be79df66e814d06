/-
Whatever the reader accepts, the grammar derives: an expression that is read
is what a derivation of the tokens before the place behind it stands for
(`Grammar.whole_derives`), and every function in it takes its arguments.

The statement is one for each of the five functions of the reader, by
induction on the depth of calls (`Grammar.Sound`). The two loops are told of
any reader for their items that is sound itself.
-/
import Reckon.Proofs.Grammar.Derivation
import Reckon.Proofs.Grammar.Reading
import Reckon.Proofs.Outcome

namespace Reckon

namespace Cursor

/-- Before the end a step takes the token at the cursor. -/
theorem rest_eq_cons {c : Cursor} (h : c.peek.kind ≠ .finish) :
    c.rest = c.peek :: c.advance.rest ∧ c.advance.index = c.index + 1 := by
  obtain ⟨index, rest⟩ := c
  cases rest with
  | nil => exact absurd rfl h
  | cons t ts =>
    have hend : Cursor.atEnd ⟨index, t :: ts⟩ = false := by simpa [atEnd] using h
    simp [advance, hend, peek]

end Cursor

/-- A derivation of a level is one of every lower level. -/
theorem Derives.level_mono {r : Registry} {p q d} (h : Derives r (.level p) d) (hq : q ≤ p) :
    Derives r (.level q) d := by
  cases h with
  | operand hu => exact .operand hu
  | binary hl ht hp hr => exact .binary hl ht (by omega) hr

namespace Grammar

variable {g : Grammar}

/-- Reading from one place to another gives what a derivation of the tokens between stands for. -/
def Derived (g : Grammar) (s : Symbol) (c : Cursor) (es : List Expr) (after : Cursor) : Prop :=
  ∃ d, Derives g.registry s d ∧ d.Accepted ∧ d.exprs = es ∧ c.rest = d.tokens ++ after.rest ∧
    after.index = c.index + d.tokens.length

theorem expect_eq_ok {c after : Cursor} {k problem} (h : g.expect c k problem = .ok after) :
    c.peek.kind = k ∧ after = c.advance := by
  unfold expect at h
  split at h
  · next hk => exact ⟨by simpa using hk, by simpa using h.symm⟩
  · cases h

theorem infixAt_eq_some {c : Cursor} {o : Operation} :
    g.infixAt c = some o ↔ g.registry.InfixToken c.peek o := by
  unfold infixAt Registry.InfixToken
  split <;> simp_all

/-- A token that is to be a function is looked up as one. -/
theorem function_eq_some {t : Token} {o : Operation} (hk : t.kind = .function) :
    (g.registry.get? t.value).filter (·.isFunction) = some o ↔ g.registry.FunctionToken t o := by
  simp [Registry.FunctionToken, hk, Option.filter_eq_some_iff]

/-- The operator at the cursor decides whether a level stops there. -/
theorem stopsAt_of_infixAt {c : Cursor} {p : Int}
    (h : ∀ o, g.infixAt c = some o → o.precedence < p) : g.registry.StopsAt p c.rest := by
  intro t ht o ho
  refine h o (infixAt_eq_some.2 ?_)
  obtain ⟨index, rest⟩ := c
  cases rest with
  | nil => simp at ht
  | cons t' ts =>
    simp only [List.head?_cons, Option.mem_some_iff] at ht
    subst ht
    exact ho

/-- What the reader is to give at a level: what a derivation stands for, up to where the level
stops. -/
def LevelRead (g : Grammar) (p : Int) (c : Cursor) (e : Expr) (after : Cursor) : Prop :=
  g.Derived (.level p) c [e] after ∧ g.registry.StopsAt p after.rest

/-! ## The loops -/

/-- A derivation that a loop of infix operators may go on with: the operators to come bind no
tighter than it does. -/
def LeftOperand (g : Grammar) (floor : Int) (start : Cursor) (left : Expr) (c : Cursor) : Prop :=
  ∃ m, floor ≤ m ∧ g.Derived (.level m) start [left] c ∧ g.registry.StopsAt (m + 1) c.rest

theorem LeftOperand.levelRead {floor start left c} (h : g.LeftOperand floor start left c)
    (hs : g.registry.StopsAt floor c.rest) : g.LevelRead floor start left c := by
  obtain ⟨m, hm, ⟨d, hd, hacc, hes, hrest, hidx⟩, _⟩ := h
  exact ⟨⟨d, hd.level_mono hm, hacc, hes, hrest, hidx⟩, hs⟩

/-- An operand without infix operators can be a left operand. -/
theorem Derived.leftOperand {floor start left c} (h : g.Derived .unary start [left] c) :
    g.LeftOperand floor start left c := by
  obtain ⟨d, hd, hacc, hes, hrest, hidx⟩ := h
  have hlevel (m : Int) : g.Derived (.level m) start [left] c :=
    ⟨.operand d, .operand hd, hacc, hes, hrest, hidx⟩
  cases hop : g.infixAt c with
  | none => exact ⟨floor, Int.le_refl _, hlevel _, stopsAt_of_infixAt (by simp [hop])⟩
  | some o =>
    refine ⟨max floor o.precedence, by omega, hlevel _, stopsAt_of_infixAt fun o' ho' => ?_⟩
    have : o = o' := by simpa [hop] using ho'
    subst this
    omega

/-- An operator and its right operand make a longer left operand. -/
theorem LeftOperand.apply {floor start left c o right after} (h : g.LeftOperand floor start left c)
    (ho : g.registry.InfixToken c.peek o) (hfloor : floor ≤ o.precedence)
    (hr : g.LevelRead (o.precedence + 1) c.advance right after) :
    g.LeftOperand floor start (.apply o [left, right] c.peek.position) after := by
  obtain ⟨m, _, ⟨d, hd, hacc, hes, hrest, hidx⟩, hstop⟩ := h
  obtain ⟨⟨d', hd', hacc', hes', hrest', hidx'⟩, hstop'⟩ := hr
  obtain ⟨hcons, hnext⟩ := Cursor.rest_eq_cons (c := c) (by simp [ho.1])
  have hm : o.precedence ≤ m := by
    have := hstop c.peek (by simp [hcons]) o ho
    omega
  refine ⟨o.precedence, hfloor, ⟨.binary d c.peek o d', ?_, ⟨hacc, hacc'⟩, ?_, ?_, ?_⟩, hstop'⟩
  · exact .binary (hd.level_mono hm) ho (Int.le_refl _) hd'
  · simp [Derivation.exprs, hes, hes']
  · rw [hrest, hcons, hrest']
    simp [Derivation.tokens]
  · simp only [Derivation.tokens, List.length_append, List.length_cons]
    omega

theorem infixTail_sound {operand : Int → Cursor → Reading}
    (hop : ∀ {p c e after}, operand p c = .ok (e, after) → g.LevelRead p c e after)
    {floor start} : ∀ {count left c e after}, c.rest.length ≤ count →
      g.LeftOperand floor start left c → infixTail g operand floor count left c = .ok (e, after) →
      g.LevelRead floor start e after
  | 0, left, c, e, after, hc, hl, h => by
    simp only [infixTail, Except.ok.injEq, Prod.mk.injEq] at h
    obtain ⟨rfl, rfl⟩ := h
    refine hl.levelRead ?_
    rw [List.eq_nil_of_length_eq_zero (Nat.le_zero.1 hc)]
    simp [Registry.StopsAt]
  | count + 1, left, c, e, after, hc, hl, h => by
    simp only [infixTail] at h
    split at h
    · next hnone =>
      simp only [Except.ok.injEq, Prod.mk.injEq] at h
      obtain ⟨rfl, rfl⟩ := h
      exact hl.levelRead (stopsAt_of_infixAt (by simp [hnone]))
    · next o hsome =>
      split at h
      · next hlt =>
        simp only [Except.ok.injEq, Prod.mk.injEq] at h
        obtain ⟨rfl, rfl⟩ := h
        exact hl.levelRead (stopsAt_of_infixAt (by simpa [hsome] using hlt))
      · next hge =>
        simp only [bind_eq_ok] at h
        obtain ⟨⟨right, next⟩, hright, _, -, h⟩ := h
        have ho := infixAt_eq_some.1 hsome
        have hread := hop hright
        refine infixTail_sound hop ?_ (hl.apply ho (by omega) hread) h
        obtain ⟨⟨d, _, _, _, hrest, _⟩, _⟩ := hread
        have := (Cursor.rest_eq_cons (c := c) (by simp [ho.1])).1
        rw [this, hrest] at hc
        simp only [List.length_cons, List.length_append] at hc
        omega

theorem argumentTail_sound {argument : Cursor → Reading}
    (harg : ∀ {c e after}, argument c = .ok (e, after) → g.Derived (.level 1) c [e] after) :
    ∀ {count c es after}, argumentTail argument count c = .ok (es, after) →
      g.Derived .furtherArguments c es after
  | 0, c, es, after, h => by
    simp only [argumentTail, Except.ok.injEq, Prod.mk.injEq] at h
    obtain ⟨rfl, rfl⟩ := h
    exact ⟨.noFurther, .noFurther, trivial, rfl, rfl, rfl⟩
  | count + 1, c, es, after, h => by
    simp only [argumentTail] at h
    split at h
    · next hk =>
      simp only [bind_eq_ok, pure_eq_ok, Prod.mk.injEq] at h
      obtain ⟨⟨first, next⟩, hfirst, ⟨others, last⟩, hothers, rfl, rfl⟩ := h
      dsimp only at hothers
      obtain ⟨d, hd, hacc, hes, hrest, hidx⟩ := harg hfirst
      obtain ⟨d', hd', hacc', hes', hrest', hidx'⟩ := argumentTail_sound harg hothers
      have hk : c.peek.kind = .comma := by simpa using hk
      obtain ⟨hcons, hnext⟩ := Cursor.rest_eq_cons (c := c) (by simp [hk])
      refine ⟨.further c.peek d d', .further hk hd hd', ⟨hacc, hacc'⟩, ?_, ?_, ?_⟩
      · simp [Derivation.exprs, hes, hes']
      · rw [hcons, hrest, hrest']
        simp [Derivation.tokens]
      · simp only [Derivation.tokens, List.length_append, List.length_cons]
        omega
    · simp only [Except.ok.injEq, Prod.mk.injEq] at h
      obtain ⟨rfl, rfl⟩ := h
      exact ⟨.noFurther, .noFurther, trivial, rfl, rfl, rfl⟩

theorem arguments_sound {argument : Cursor → Reading}
    (harg : ∀ {c e after}, argument c = .ok (e, after) → g.Derived (.level 1) c [e] after)
    {c es after} (h : arguments argument c = .ok (es, after)) :
    g.Derived .arguments c es after := by
  unfold arguments at h
  split at h
  · simp only [Except.ok.injEq, Prod.mk.injEq] at h
    obtain ⟨rfl, rfl⟩ := h
    exact ⟨.noArguments, .noArguments, trivial, rfl, rfl, rfl⟩
  · simp only [bind_eq_ok, pure_eq_ok, Prod.mk.injEq] at h
    obtain ⟨⟨first, next⟩, hfirst, ⟨others, last⟩, hothers, rfl, rfl⟩ := h
    dsimp only at hothers
    obtain ⟨d, hd, hacc, hes, hrest, hidx⟩ := harg hfirst
    obtain ⟨d', hd', hacc', hes', hrest', hidx'⟩ := argumentTail_sound harg hothers
    refine ⟨.arguments d d', .arguments hd hd', ⟨hacc, hacc'⟩, ?_, ?_, ?_⟩
    · simp [Derivation.exprs, hes, hes']
    · rw [hrest, hrest']
      simp [Derivation.tokens]
    · simp only [Derivation.tokens, List.length_append]
      omega

/-! ## The five functions -/

/-- What each function of the reader gives, up to a depth of calls. -/
structure Sound (g : Grammar) (depth : Nat) : Prop where
  expression : ∀ {nesting c e after}, expression g depth nesting c = .ok (e, after) →
    g.LevelRead 1 c e after
  binary : ∀ {nesting floor c e after}, binary g depth nesting floor c = .ok (e, after) →
    g.LevelRead floor c e after
  unary : ∀ {nesting c e after}, unary g depth nesting c = .ok (e, after) →
    g.Derived .unary c [e] after
  primary : ∀ {nesting c e after}, primary g depth nesting c = .ok (e, after) →
    g.Derived .primary c [e] after
  call : ∀ {nesting c e after}, c.peek.kind = .function → call g depth nesting c = .ok (e, after) →
    g.Derived .primary c [e] after

theorem Derived.single {s d c} (h : Derives g.registry s d) (hacc : d.Accepted)
    (ht : d.tokens = [c.peek]) (hk : c.peek.kind ≠ .finish) : g.Derived s c d.exprs c.advance := by
  obtain ⟨hcons, hnext⟩ := Cursor.rest_eq_cons hk
  exact ⟨d, h, hacc, rfl, by rw [ht]; exact hcons, by simp [ht, hnext]⟩

theorem Sound.succ_unary {depth} (ih : g.Sound depth) {nesting c e after}
    (h : Grammar.unary g (depth + 1) nesting c = .ok (e, after)) :
    g.Derived .unary c [e] after := by
  simp only [Grammar.unary] at h
  split at h
  · next hminus =>
    simp only [bind_eq_ok, pure_eq_ok, Prod.mk.injEq] at h
    obtain ⟨_, _, ⟨operand, last⟩, hu, rfl, rfl⟩ := h
    obtain ⟨d, hd, hacc, hes, hrest, hidx⟩ := ih.unary hu
    simp only [Bool.and_eq_true, beq_iff_eq] at hminus
    obtain ⟨hcons, hnext⟩ := Cursor.rest_eq_cons (c := c) (by simp [hminus.1])
    refine ⟨.negation c.peek d, .negation hminus.1 hminus.2 hd, hacc, ?_, ?_, ?_⟩
    · simp [Derivation.exprs, hes]
    · rw [hcons, hrest]
      simp [Derivation.tokens]
    · simp only [Derivation.tokens, List.length_cons]
      omega
  · obtain ⟨d, hd, hacc, hes, hrest, hidx⟩ := ih.primary h
    exact ⟨.plain d, .plain hd, hacc, hes, hrest, hidx⟩

theorem Sound.succ_primary {depth} (ih : g.Sound depth) {nesting c e after}
    (h : Grammar.primary g (depth + 1) nesting c = .ok (e, after)) :
    g.Derived .primary c [e] after := by
  simp only [Grammar.primary] at h
  split at h
  · next hk =>
    simp only [bind_eq_ok, pure_eq_ok, Prod.mk.injEq] at h
    obtain ⟨x, hx, rfl, rfl⟩ := h
    have hread : Decimal.read? c.peek.value = some x := by
      unfold numberOf at hx
      split at hx
      · next hsome => rw [hsome, Except.ok.inj hx]
      · cases hx
    exact Derived.single (.number hk hread) trivial rfl (by simp [hk])
  · next hk =>
    simp only [Except.ok.injEq, Prod.mk.injEq] at h
    obtain ⟨rfl, rfl⟩ := h
    exact Derived.single (.name hk) trivial rfl (by simp [hk])
  · next hk => exact ih.call hk h
  · next hk =>
    simp only [bind_eq_ok, pure_eq_ok, Prod.mk.injEq] at h
    obtain ⟨_, _, ⟨inner, close⟩, hin, last, hclose, rfl, rfl⟩ := h
    obtain ⟨hkc, rfl⟩ := expect_eq_ok hclose
    obtain ⟨⟨d, hd, hacc, hes, hrest, hidx⟩, _⟩ := ih.expression hin
    dsimp only at hkc
    obtain ⟨hcons, hnext⟩ := Cursor.rest_eq_cons (c := c) (by simp [hk])
    obtain ⟨hcons', hnext'⟩ := Cursor.rest_eq_cons (c := close) (by simp [hkc])
    refine ⟨.group c.peek d close.peek, .group hk hd hkc, hacc, hes, ?_, ?_⟩
    · rw [hcons, hrest, hcons']
      simp [Derivation.tokens]
    · simp only [Derivation.tokens, List.length_cons, List.length_append, List.length_nil]
      omega
  all_goals cases h

/-- A name of a function and arguments in parentheses make a call, whatever their count. -/
theorem Derived.call {c close : Cursor} {o : Operation} {es : List Expr}
    (hf : g.registry.FunctionToken c.peek o) (hopen : c.advance.peek.kind = .leftParen)
    (hargs : g.Derived .arguments c.advance.advance es close)
    (hclose : close.peek.kind = .rightParen) :
    ∃ args, Derives g.registry .primary (.call c.peek o c.advance.peek args close.peek) ∧
      args.Accepted ∧ args.exprs = es ∧
      c.rest = (Derivation.call c.peek o c.advance.peek args close.peek).tokens ++
        close.advance.rest ∧
      close.advance.index =
        c.index + (Derivation.call c.peek o c.advance.peek args close.peek).tokens.length := by
  obtain ⟨args, hd, hacc, hes, hrest, hidx⟩ := hargs
  obtain ⟨hcons, hnext⟩ := Cursor.rest_eq_cons (c := c) (by simp [hf.1])
  obtain ⟨hcons', hnext'⟩ := Cursor.rest_eq_cons (c := c.advance) (by simp [hopen])
  obtain ⟨hcons'', hnext''⟩ := Cursor.rest_eq_cons (c := close) (by simp [hclose])
  refine ⟨args, .call hf hopen hd hclose, hacc, hes, ?_, ?_⟩
  · rw [hcons, hcons', hrest, hcons'']
    simp [Derivation.tokens]
  · simp only [Derivation.tokens, List.length_cons, List.length_append, List.length_nil]
    omega

theorem Sound.succ_call {depth} (ih : g.Sound depth) {nesting c e after}
    (hk : c.peek.kind = .function)
    (h : Grammar.call g (depth + 1) nesting c = .ok (e, after)) :
    g.Derived .primary c [e] after := by
  simp only [Grammar.call] at h
  split at h
  · cases h
  · next o ho =>
    simp only [bind_eq_ok] at h
    obtain ⟨opened, hopened, _, _, ⟨operands, close⟩, hargs, last, hclose, _, _, h⟩ := h
    obtain ⟨hko, rfl⟩ := expect_eq_ok hopened
    obtain ⟨hkc, rfl⟩ := expect_eq_ok hclose
    dsimp only at hkc
    split at h
    · next haccepts =>
      simp only [pure_eq_ok, Prod.mk.injEq] at h
      obtain ⟨rfl, rfl⟩ := h
      obtain ⟨d, hd, hacc, rfl, hrest, hidx⟩ := Derived.call ((function_eq_some hk).1 ho) hko
        (arguments_sound (fun {_ _ _} h => (ih.expression h).1) hargs) hkc
      exact ⟨_, hd, ⟨hacc, haccepts⟩, rfl, hrest, hidx⟩
    · cases h

theorem sound (g : Grammar) : ∀ depth, g.Sound depth
  | 0 => by constructor <;> intros <;> simp_all [expression, binary, unary, primary, call]
  | depth + 1 => by
    have ih := sound g depth
    refine ⟨?_, ?_, ih.succ_unary, ih.succ_primary, ih.succ_call⟩
    · intro nesting c e after h
      exact ih.binary (by simpa [expression] using h)
    · intro nesting floor c e after h
      simp only [binary, bind_eq_ok] at h
      obtain ⟨⟨left, next⟩, hu, h⟩ := h
      exact infixTail_sound ih.binary (Nat.le_refl _) (ih.unary hu).leftOperand h

/-! ## Whole expressions -/

/-- The tokens before the first end. -/
def body (tokens : List Token) : List Token := tokens.takeWhile (·.kind != .finish)

theorem body_finish {ts : List Token} {n : Int} (h : ∀ t ∈ ts, t.kind ≠ .finish) :
    body (ts ++ [Token.finish n]) = ts := by
  have hall : ∀ t ∈ ts, (t.kind != .finish) = true := fun t ht => by simpa using h t ht
  rw [body, List.takeWhile_append_of_pos hall]
  simp [Token.finish]

theorem body_closed (tokens : List Token) : body (closed tokens) = body tokens := by
  unfold closed
  split
  · next h => simp [List.getLast?_eq_none_iff.1 h, body, Token.finish]
  · split
    · rfl
    · simp only [body, List.takeWhile_append]
      split
      · next hlen =>
        simpa [Token.finish] using ((List.takeWhile_prefix _).eq_of_length hlen).symm
      · rfl

theorem body_append {ts rest : List Token} {d : Derivation} {r : Registry} {s}
    (h : Derives r s d) (ht : ts = d.tokens ++ rest) (hr : ∀ t ∈ rest.head?, t.kind = .finish) :
    body ts = d.tokens := by
  subst ht
  have hall : ∀ t ∈ d.tokens, (t.kind != .finish) = true := fun t ht => by
    simpa using h.kind_ne_finish t ht
  unfold body
  rw [List.takeWhile_append_of_pos hall]
  cases rest with
  | nil => simp
  | cons t ts => simp [hr t (by simp)]

/-- **Whatever the reader accepts, the grammar derives.** -/
theorem whole_derives {tokens : List Token} {e : Expr} (h : g.whole tokens = .ok e) :
    ∃ d, Derives g.registry (.level 1) d ∧ d.Accepted ∧ d.exprs = [e] ∧ d.tokens = body tokens := by
  simp only [whole, wholeWithin] at h
  split at h
  · cases h
  · rw [bind_eq_ok] at h
    obtain ⟨⟨e', after⟩, hread, h⟩ := h
    obtain ⟨⟨d, hd, hacc, hes, hrest, _⟩, _⟩ := (sound g _).expression hread
    dsimp only at h
    split at h
    · next hend =>
      rw [pure_eq_ok] at h
      subst h
      refine ⟨d, hd, hacc, hes, ?_⟩
      rw [← body_closed]
      refine (body_append hd hrest fun t ht => ?_).symm
      cases hr : after.rest with
      | nil => simp [hr] at ht
      | cons t' ts =>
        simp only [hr, List.head?_cons, Option.mem_some_iff] at ht
        subst ht
        simpa [Cursor.atEnd, Cursor.peek, hr] using hend
    · split at h <;> cases h

end Grammar

end Reckon
