/-
The grammar of expressions, told without the reader. For each precedence `p`
there is a level `E_p`:

    E_p ::= U | E_q op E_(q+1)      op an infix operator of precedence q ≥ p
    U   ::= '-' U | P
    P   ::= NUMBER | IDENTIFIER | '(' E_1 ')' | FUNCTION '(' A ')'
    A   ::= (nothing) | E_1 R
    R   ::= (nothing) | ',' E_1 R

A derivation is a tree of productions. It spells tokens (`tokens`) and stands
for expressions (`exprs`): one for the levels, `U` and `P`, and one for each
argument for `A` and `R`. How many arguments a function takes is no part of
the grammar; `Accepted` says it of a derivation.
-/
import Reckon.Decimal.Reading
import Reckon.Operation.Arithmetic
import Reckon.Proofs.Expr
import Reckon.Registry
import Reckon.Token

namespace Reckon

namespace Registry

/-- The token is an infix operator. -/
def InfixToken (r : Registry) (t : Token) (o : Operation) : Prop :=
  t.kind = .operator ∧ r.get? t.value = some o ∧ o.isFunction = false

/-- The token is the name of a function. -/
def FunctionToken (r : Registry) (t : Token) (o : Operation) : Prop :=
  t.kind = .function ∧ r.get? t.value = some o ∧ o.isFunction = true

theorem InfixToken.eq {r : Registry} {t : Token} {o o' : Operation} (h : r.InfixToken t o)
    (h' : r.InfixToken t o') : o = o' := by
  have := h.2.1.symm.trans h'.2.1
  simpa using this

theorem FunctionToken.eq {r : Registry} {t : Token} {o o' : Operation} (h : r.FunctionToken t o)
    (h' : r.FunctionToken t o') : o = o' := by
  have := h.2.1.symm.trans h'.2.1
  simpa using this

/-- No infix operator that binds at least as tightly as `p` comes first. -/
def StopsAt (r : Registry) (p : Int) (rest : List Token) : Prop :=
  ∀ t ∈ rest.head?, ∀ o, r.InfixToken t o → o.precedence < p

theorem StopsAt.mono {r : Registry} {p q : Int} {rest} (h : r.StopsAt p rest) (hpq : p ≤ q) :
    r.StopsAt q rest := fun t ht o ho => by
  have := h t ht o ho
  omega

/-- What begins with another kind of token stops every level. -/
theorem stopsAt_of_kind {r : Registry} {p : Int} {t : Token} {rest} (h : t.kind ≠ .operator) :
    r.StopsAt p (t :: rest) := fun t' ht o ho => by
  simp only [List.head?_cons, Option.mem_some_iff] at ht
  subst ht
  exact absurd ho.1 h

/-- An operator stops the level above its own. -/
theorem InfixToken.stopsAt {r : Registry} {t : Token} {o : Operation} {rest}
    (h : r.InfixToken t o) : r.StopsAt (o.precedence + 1) (t :: rest) := fun t' ht o' ho => by
  simp only [List.head?_cons, Option.mem_some_iff] at ht
  subst ht
  rw [ho.eq h]
  omega

end Registry

/-- The symbols of the grammar. -/
inductive Symbol where
  | level (p : Int)
  | unary
  | primary
  | arguments
  | furtherArguments

/-- A tree of productions, each with its tokens. -/
inductive Derivation where
  | operand (u : Derivation)
  | binary (left : Derivation) (t : Token) (o : Operation) (right : Derivation)
  | negation (t : Token) (u : Derivation)
  | plain (p : Derivation)
  | number (t : Token) (value : Float)
  | name (t : Token)
  | group (opening : Token) (inner : Derivation) (closing : Token)
  | call (t : Token) (o : Operation) (opening : Token) (args : Derivation) (closing : Token)
  | noArguments
  | arguments (first : Derivation) (rest : Derivation)
  | noFurther
  | further (comma : Token) (first : Derivation) (rest : Derivation)

/-- The tree derives its tokens from the symbol. -/
inductive Derives (r : Registry) : Symbol → Derivation → Prop
  /-- `E_p ::= U` -/
  | operand {p u} : Derives r .unary u → Derives r (.level p) (.operand u)
  /-- `E_p ::= E_q op E_(q+1)` -/
  | binary {p left t o right} : Derives r (.level o.precedence) left → r.InfixToken t o →
      p ≤ o.precedence → Derives r (.level (o.precedence + 1)) right →
      Derives r (.level p) (.binary left t o right)
  /-- `U ::= '-' U` -/
  | negation {t u} : t.kind = .operator → t.value = Operation.negation.name →
      Derives r .unary u → Derives r .unary (.negation t u)
  /-- `U ::= P` -/
  | plain {p} : Derives r .primary p → Derives r .unary (.plain p)
  /-- `P ::= NUMBER` -/
  | number {t x} : t.kind = .number → Decimal.read? t.value = some x →
      Derives r .primary (.number t x)
  /-- `P ::= IDENTIFIER` -/
  | name {t} : t.kind = .identifier → Derives r .primary (.name t)
  /-- `P ::= '(' E_1 ')'` -/
  | group {a d b} : a.kind = .leftParen → Derives r (.level 1) d → b.kind = .rightParen →
      Derives r .primary (.group a d b)
  /-- `P ::= FUNCTION '(' A ')'` -/
  | call {t o a args b} : r.FunctionToken t o → a.kind = .leftParen →
      Derives r .arguments args → b.kind = .rightParen →
      Derives r .primary (.call t o a args b)
  /-- `A ::=` -/
  | noArguments : Derives r .arguments .noArguments
  /-- `A ::= E_1 R` -/
  | arguments {d rest} : Derives r (.level 1) d → Derives r .furtherArguments rest →
      Derives r .arguments (.arguments d rest)
  /-- `R ::=` -/
  | noFurther : Derives r .furtherArguments .noFurther
  /-- `R ::= ',' E_1 R` -/
  | further {c d rest} : c.kind = .comma → Derives r (.level 1) d →
      Derives r .furtherArguments rest → Derives r .furtherArguments (.further c d rest)

namespace Derivation

/-- The tokens that a derivation spells. -/
def tokens : Derivation → List Token
  | operand d | plain d => d.tokens
  | binary left t _ right => left.tokens ++ t :: right.tokens
  | negation t u => t :: u.tokens
  | number t _ | name t => [t]
  | group a d b => a :: (d.tokens ++ [b])
  | call t _ a args b => t :: a :: (args.tokens ++ [b])
  | noArguments | noFurther => []
  | arguments d rest => d.tokens ++ rest.tokens
  | further c d rest => c :: (d.tokens ++ rest.tokens)

/-- The expressions that a derivation stands for. Parentheses and commas leave no trace. -/
def exprs : Derivation → List Expr
  | operand d | plain d | group _ d _ => d.exprs
  | binary left t o right => [.apply o (left.exprs ++ right.exprs) t.position]
  | negation t u => [.apply .negation u.exprs t.position]
  | number t x => [.number x t.position]
  | name t => [.var t.value t.position]
  | call t o _ args _ => [.apply o args.exprs t.position]
  | noArguments | noFurther => []
  | arguments d rest | further _ d rest => d.exprs ++ rest.exprs

/-- Every function takes the count of arguments it is called with. -/
def Accepted : Derivation → Prop
  | operand d | plain d | group _ d _ | negation _ d => d.Accepted
  | binary left _ _ right => left.Accepted ∧ right.Accepted
  | number _ _ | name _ | noArguments | noFurther => True
  | call _ o _ args _ => args.Accepted ∧ o.accepts args.exprs.length = true
  | arguments d rest | further _ d rest => d.Accepted ∧ rest.Accepted

end Derivation

/-- What a derivation of each symbol stands for: one expression, but any number for arguments. -/
def Symbol.Single : Symbol → Prop
  | level _ | unary | primary => True
  | arguments | furtherArguments => False

theorem Derives.single {r : Registry} {s d} (h : Derives r s d) (hs : s.Single) :
    ∃ e, d.exprs = [e] := by
  induction h with
  | operand _ ih => exact ih trivial
  | binary => exact ⟨_, rfl⟩
  | negation => exact ⟨_, rfl⟩
  | plain _ ih => exact ih trivial
  | number => exact ⟨_, rfl⟩
  | name => exact ⟨_, rfl⟩
  | group _ _ _ ih => exact ih trivial
  | call => exact ⟨_, rfl⟩
  | noArguments | arguments | noFurther | further => exact hs.elim

/-- A token that an operand can begin with. -/
def TokenKind.Opens (k : TokenKind) : Prop :=
  k ≠ .rightParen ∧ k ≠ .comma ∧ k ≠ .finish

/-- An operand begins with a token, and one without a sign with no operator. -/
theorem Derives.begins {r : Registry} {s d} (h : Derives r s d) (hs : s.Single) :
    ∃ t ts, d.tokens = t :: ts ∧ t.kind.Opens ∧ (s = .primary → t.kind ≠ .operator) := by
  induction h with
  | operand _ ih =>
    obtain ⟨t, ts, ht, ho, _⟩ := ih trivial
    exact ⟨t, ts, ht, ho, by simp⟩
  | @binary p left t o right _ _ _ _ ih _ =>
    obtain ⟨t', ts, ht, ho, _⟩ := ih trivial
    exact ⟨t', ts ++ t :: right.tokens, by simp [Derivation.tokens, ht], ho, by simp⟩
  | negation hk => exact ⟨_, _, rfl, by simp [TokenKind.Opens, hk], by simp⟩
  | plain _ ih =>
    obtain ⟨t, ts, ht, ho, _⟩ := ih trivial
    exact ⟨t, ts, ht, ho, by simp⟩
  | number hk => exact ⟨_, _, rfl, by simp [TokenKind.Opens, hk], by simp [hk]⟩
  | name hk => exact ⟨_, _, rfl, by simp [TokenKind.Opens, hk], by simp [hk]⟩
  | group hk => exact ⟨_, _, rfl, by simp [TokenKind.Opens, hk], by simp [hk]⟩
  | call hk => exact ⟨_, _, rfl, by simp [TokenKind.Opens, hk.1], by simp [hk.1]⟩
  | noArguments | arguments | noFurther | further => exact hs.elim

theorem Derives.length_pos {r : Registry} {s d} (h : Derives r s d) (hs : s.Single) :
    0 < d.tokens.length := by
  obtain ⟨t, ts, ht, _⟩ := h.begins hs
  simp [ht]

/-- No operator comes before an operand without a sign. -/
theorem Derives.kind_ne_operator {r : Registry} {d t ts rest} (h : Derives r .primary d)
    (ht : d.tokens ++ rest = t :: ts) : t.kind ≠ .operator := by
  obtain ⟨t', ts', ht', _, hne⟩ := h.begins trivial
  rw [ht', List.cons_append] at ht
  obtain ⟨rfl, _⟩ := List.cons.inj ht
  exact hne rfl

/-- No end is among the tokens of a derivation. -/
theorem Derives.kind_ne_finish {r : Registry} {s d} (h : Derives r s d) :
    ∀ t ∈ d.tokens, t.kind ≠ .finish := by
  induction h with
  | operand _ ih | plain _ ih => exact ih
  | binary _ hk _ _ ihl ihr =>
    simp only [Derivation.tokens, List.mem_append, List.mem_cons]
    rintro t (ht | rfl | ht)
    · exact ihl t ht
    · simp [hk.1]
    · exact ihr t ht
  | negation hk _ _ ih =>
    simp only [Derivation.tokens, List.mem_cons]
    rintro t (rfl | ht)
    · simp [hk]
    · exact ih t ht
  | number hk | name hk => simp [Derivation.tokens, hk]
  | group ha _ hb ih =>
    simp only [Derivation.tokens, List.mem_append, List.mem_cons, List.not_mem_nil, or_false]
    rintro t (rfl | ht | rfl)
    · simp [ha]
    · exact ih t ht
    · simp [hb]
  | call hk ha _ hb ih =>
    simp only [Derivation.tokens, List.mem_append, List.mem_cons, List.not_mem_nil, or_false]
    rintro t (rfl | rfl | ht | rfl)
    · simp [hk.1]
    · simp [ha]
    · exact ih t ht
    · simp [hb]
  | noArguments | noFurther => simp [Derivation.tokens]
  | arguments _ _ ihd ihr =>
    simp only [Derivation.tokens, List.mem_append]
    rintro t (ht | ht)
    · exact ihd t ht
    · exact ihr t ht
  | further hc _ _ ihd ihr =>
    simp only [Derivation.tokens, List.mem_append, List.mem_cons]
    rintro t (rfl | ht | ht)
    · simp [hc]
    · exact ihd t ht
    · exact ihr t ht

/-- What must follow a derivation for its end to be seen. -/
def Registry.Ends (r : Registry) : Symbol → List Token → Prop
  | .level p, rest => r.StopsAt p rest
  | .unary, _ | .primary, _ => True
  | .arguments, rest | .furtherArguments, rest => ∃ t ∈ rest.head?, t.kind = .rightParen

theorem Registry.not_ends_cons {r : Registry} {t ts} (h : t.kind ≠ .rightParen) :
    ¬r.Ends .arguments (t :: ts) := by
  rintro ⟨t', ht, hk⟩
  rw [List.head?_cons, Option.mem_some_iff] at ht
  subst ht
  exact h hk

/-- A first argument is told from none. -/
theorem Derives.not_ends {r : Registry} {s d more} (h : Derives r s d) (hs : s.Single) :
    ¬r.Ends .arguments (d.tokens ++ more) := by
  obtain ⟨t, ts, ht, ho, _⟩ := h.begins hs
  rw [ht, List.cons_append]
  exact Registry.not_ends_cons ho.1

/-- The tokens after an argument are a comma or the closing parenthesis, which stop every level. -/
theorem Derives.further_stopsAt {r : Registry} {d p rest} (h : Derives r .furtherArguments d)
    (hr : r.Ends .furtherArguments rest) : r.StopsAt p (d.tokens ++ rest) := by
  cases h with
  | noFurther =>
    obtain ⟨t, ht, hk⟩ := hr
    intro t' ht' o ho
    simp only [Derivation.tokens, List.nil_append] at ht'
    rw [Option.mem_def] at ht ht'
    have : t = t' := Option.some.inj (ht.symm.trans ht')
    subst this
    exact absurd ho.1 (by simp [hk])
  | further hc => exact Registry.stopsAt_of_kind (by simp [hc])

end Reckon
