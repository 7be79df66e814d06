/-
The parser lays out what the reader reads. Started on the same tokens with any
builder, both fail in the same way, or the parser has added to the builder just
the nodes of the expression that is read, which the builder does not refuse
(`Grammar.laying`). So the tree of some tokens is that of the expression they
write (`Grammar.parse_eq_whole`).

The statement is one for each of the five functions, by induction on the depth
of calls, and for the two loops one for any parser of their items that lays out
what the reader of the items reads.
-/
import Reckon.Proofs.Grammar.Reading
import Reckon.Proofs.Tree.Building

namespace Reckon

/-! ## Parts of an expression -/

namespace Builder

/-- An expression that no builder refuses is added, and its top has this index. -/
structure Lays (b : Builder) (e : Expr) (index : Nat) (b' : Builder) : Prop where
  accepted : e.Accepted
  added : b.addExpr e = .ok (index, b')

/-- The same for expressions one after the other. -/
structure LaysAll (b : Builder) (es : List Expr) (indices : List Nat) (b' : Builder) : Prop where
  accepted : Expr.AcceptedAll es
  added : b.addExprs es = .ok (indices, b')

variable {b b₁ b₂ : Builder} {e : Expr} {es : List Expr} {index : Nat} {indices : List Nat}

theorem LaysAll.nil (b : Builder) : b.LaysAll [] [] b := ⟨trivial, rfl⟩

theorem LaysAll.cons (h : b.Lays e index b₁) (hs : b₁.LaysAll es indices b₂) :
    b.LaysAll (e :: es) (index :: indices) b₂ where
  accepted := ⟨h.accepted, hs.accepted⟩
  added := by simp [addExprs, h.added, hs.added, bind, Except.bind, pure, Except.pure]

theorem LaysAll.length_eq (h : b.LaysAll es indices b₁) : indices.length = es.length := by
  rw [(addExprs_eq_ok h.added).1, Expr.length_tops]

/-- An operation is not refused over operands that have been laid out. -/
theorem LaysAll.combine {o : Operation} (h : b.LaysAll es indices b₁)
    (haccepts : o.accepts es.length = true) (position : Int) :
    ∃ index b₂, Grammar.combine b₁ o indices position = .ok (index, b₂) ∧
      b.Lays (.apply o es position) index b₂ := by
  have haccepted : (Expr.apply o es position).Accepted := ⟨h.accepted, haccepts⟩
  obtain ⟨b₂, hadded, -, -⟩ := b.addExpr_of_accepted haccepted
  refine ⟨_, b₂, mapError_eq_ok.2 ?_, haccepted, hadded⟩
  rw [addExpr, h.added] at hadded
  exact hadded

end Builder

namespace Grammar

variable {g : Grammar}

/-- A builder refuses an operation over a count of nodes that it does not take. -/
theorem combine_of_not_accepts {b : Builder} {o : Operation} {nodes : List Nat}
    (h : o.accepts nodes.length = false) (position : Int) : combine b o nodes position =
      .error (.fault (BuildError.operandCount o.name o.operandCount nodes.length).fault) := by
  simp [combine, Builder.addOperation, h, throw, throwThe, MonadExceptOf.throw, bind, Except.bind,
    mapError_error]

/-- What is parsed from a builder on is what is read, laid out, up to the same place. -/
inductive Laid (b : Builder) : Expr × Cursor → Nat × Builder × Cursor → Prop
  | intro {e index b' after} : b.Lays e index b' → Laid b (e, after) (index, b', after)

/-- The same for arguments. -/
inductive LaidAll (b : Builder) : List Expr × Cursor → List Nat × Builder × Cursor → Prop
  | intro {es indices b' after} :
      b.LaysAll es indices b' → LaidAll b (es, after) (indices, b', after)

/-- The parser fails as the reader does, or lays out what is read. -/
abbrev Lay (b : Builder) (x : Reading) (y : Parsed) : Prop := Alike Eq (Laid b) x y

theorem Lay.exists_of_ok {b : Builder} {e : Expr} {after : Cursor} {y : Parsed}
    (h : Lay b (.ok (e, after)) y) :
    ∃ index b', y = .ok (index, b', after) ∧ b.Lays e index b' := by
  cases h with
  | ok h =>
    obtain ⟨hlays⟩ := h
    exact ⟨_, _, rfl, hlays⟩

/-! ## The loops -/

theorem lay_operators {read : Int → Cursor → Reading} {parse : Int → Builder → Cursor → Parsed}
    (hoperand : ∀ floor b c, Lay b (read floor c) (parse floor b c)) {floor : Int} {b₀ : Builder} :
    ∀ {count : Nat} {left : Expr} {index : Nat} {b : Builder} {c : Cursor},
      b₀.Lays left index b → Lay b₀ (infixTail g read floor count left c)
        (parseOperators g parse floor count index b c)
  | 0, _, _, _, _, hleft => .ok ⟨hleft⟩
  | count + 1, left, index, b, c, hleft => by
    rw [infixTail, parseOperators]
    cases g.infixAt c with
    | none => exact .ok ⟨hleft⟩
    | some o =>
    dsimp only
    split
    · exact .ok ⟨hleft⟩
    refine (hoperand _ b c.advance).bind ?_
    rintro _ _ @⟨right, rightIndex, b', after, hright⟩
    have hboth := Builder.LaysAll.cons hleft (.cons hright (.nil _))
    cases haccepts : o.accepts 2 with
    | false =>
      -- the check of the reader fails with what the builder tells
      have hcombine : combine b' o [index, rightIndex] c.peek.position = _ :=
        combine_of_not_accepts haccepts _
      simp only [checkInfix_of_not_accepts haccepts, hcombine]
      exact .error rfl
    | true =>
      obtain ⟨node, b'', hnode, hlays⟩ := hboth.combine haccepts c.peek.position
      simp only [checkInfix_eq_ok.2 haccepts, hnode]
      exact lay_operators hoperand hlays

section Arguments

variable {read : Cursor → Reading} {parse : Builder → Cursor → Parsed}
  (hargument : ∀ b c, Lay b (read c) (parse b c))

include hargument

theorem lay_further : ∀ {count : Nat} {b : Builder} {c : Cursor},
    Alike Eq (LaidAll b) (argumentTail read count c) (parseFurther parse count b c)
  | 0, b, _ => .ok ⟨.nil b⟩
  | count + 1, b, c => by
    rw [argumentTail, parseFurther]
    split
    · refine (hargument b c.advance).bind ?_
      rintro _ _ ⟨hfirst⟩
      refine lay_further.bind ?_
      rintro _ _ ⟨hothers⟩
      exact .ok ⟨.cons hfirst hothers⟩
    · exact .ok ⟨.nil b⟩

theorem lay_arguments {b : Builder} {c : Cursor} :
    Alike Eq (LaidAll b) (arguments read c) (parseArguments parse b c) := by
  rw [arguments, parseArguments]
  split
  · exact .ok ⟨.nil b⟩
  refine (hargument b c).bind ?_
  rintro _ _ ⟨hfirst⟩
  refine (lay_further hargument).bind ?_
  rintro _ _ ⟨hothers⟩
  exact .ok ⟨.cons hfirst hothers⟩

end Arguments

/-! ## The five functions -/

/-- What each function of the parser does beside that of the reader, up to a depth of calls. -/
structure Laying (g : Grammar) (depth : Nat) : Prop where
  expression : ∀ nesting b c,
    Lay b (expression g depth nesting c) (parseExpression g depth nesting b c)
  binary : ∀ nesting floor b c,
    Lay b (binary g depth nesting floor c) (parseBinary g depth nesting floor b c)
  unary : ∀ nesting b c, Lay b (unary g depth nesting c) (parseUnary g depth nesting b c)
  primary : ∀ nesting b c, Lay b (primary g depth nesting c) (parsePrimary g depth nesting b c)
  call : ∀ nesting b c, Lay b (call g depth nesting c) (parseCall g depth nesting b c)

/-- A step that both take without a node. -/
theorem lay_step {α β γ : Type} {R : β → γ → Prop} {x : Except Failure α} {f : α → Except Failure β}
    {f' : α → Except Failure γ} (h : ∀ a, Alike Eq R (f a) (f' a)) :
    Alike Eq R (x >>= f) (x >>= f') :=
  (Alike.refl (fun _ => rfl) (fun _ => rfl) x).bind fun a _ ha => ha ▸ h a

variable {depth : Nat}

theorem Laying.succ_unary (ih : g.Laying depth) (nesting : Nat) (b : Builder) (c : Cursor) :
    Lay b (Grammar.unary g (depth + 1) nesting c) (parseUnary g (depth + 1) nesting b c) := by
  rw [Grammar.unary, parseUnary]
  split
  · refine lay_step fun _ => (ih.unary _ b _).bind ?_
    rintro _ _ ⟨hoperand⟩
    obtain ⟨node, b', hnode, hlays⟩ :=
      (Builder.LaysAll.cons hoperand (.nil _)).combine (o := .negation) rfl c.peek.position
    simp only [hnode]
    exact .ok ⟨hlays⟩
  · exact ih.primary nesting b c

theorem Laying.succ_primary (ih : g.Laying depth) (nesting : Nat) (b : Builder) (c : Cursor) :
    Lay b (Grammar.primary g (depth + 1) nesting c) (parsePrimary g (depth + 1) nesting b c) := by
  rw [Grammar.primary, parsePrimary]
  cases c.peek.kind with
  | number => exact lay_step fun _ => .ok ⟨trivial, rfl⟩
  | identifier => exact .ok ⟨trivial, rfl⟩
  | function => exact ih.call nesting b c
  | leftParen =>
    refine lay_step fun _ => (ih.expression _ b _).bind ?_
    rintro _ _ ⟨hinner⟩
    exact lay_step fun _ => .ok ⟨hinner⟩
  | finish | operator | rightParen | comma => exact .error rfl

theorem Laying.succ_call (ih : g.Laying depth) (nesting : Nat) (b : Builder) (c : Cursor) :
    Lay b (Grammar.call g (depth + 1) nesting c) (parseCall g (depth + 1) nesting b c) := by
  rw [Grammar.call, parseCall]
  cases (g.registry.get? c.peek.value).filter (·.isFunction) with
  | none => exact .error rfl
  | some o =>
  refine lay_step fun opened => lay_step fun _ =>
    (lay_arguments (ih.expression (nesting + 1)) (b := b) (c := opened)).bind ?_
  rintro _ _ ⟨hoperands⟩
  dsimp only
  rw [hoperands.length_eq]
  refine lay_step fun _ => lay_step fun _ => ?_
  split
  · next haccepts =>
    obtain ⟨node, b', hnode, hlays⟩ := hoperands.combine haccepts c.peek.position
    simp only [hnode]
    exact .ok ⟨hlays⟩
  · exact .error rfl

/-- **The parser lays out what the reader reads.** -/
theorem laying (g : Grammar) : ∀ depth, g.Laying depth
  | 0 => ⟨fun _ _ _ => .error rfl, fun _ _ _ _ => .error rfl, fun _ _ _ => .error rfl,
      fun _ _ _ => .error rfl, fun _ _ _ => .error rfl⟩
  | depth + 1 => by
    have ih := laying g depth
    refine ⟨fun nesting b c => ?_, fun nesting floor b c => ?_, ih.succ_unary, ih.succ_primary,
      ih.succ_call⟩
    · rw [expression, parseExpression]
      exact ih.binary nesting 1 b c
    · rw [binary, parseBinary]
      refine (ih.unary nesting b c).bind ?_
      rintro _ _ ⟨hleft⟩
      exact lay_operators (ih.binary nesting) hleft

/-! ## Trees -/

/-- What parsing makes of an expression that is read. -/
def finish (g : Grammar) (e : Expr) : Except Failure Tree := do
  let t ← (Tree.ofExpr e g.source).mapError fun e => .fault e.fault
  check (g.limits.checkNodes t.size)
  return t

/-- What is read is made a tree, and the tree is not too large. -/
theorem finish_eq_ok {e : Expr} {t : Tree} :
    g.finish e = .ok t ↔
      Tree.ofExpr e g.source = .ok t ∧ check (g.limits.checkNodes t.size) = .ok () := by
  rw [finish, bind_eq_ok]
  simp only [mapError_eq_ok, step_eq_ok, pure_eq_ok]
  constructor
  · rintro ⟨_, ht, hcheck, rfl⟩
    exact ⟨ht, hcheck⟩
  · rintro ⟨ht, hcheck⟩
    exact ⟨t, ht, hcheck, rfl⟩

theorem finish_of_lays {e : Expr} {root : Nat} {b : Builder} (h : Builder.Lays {} e root b) :
    g.finish e = (do
      let t ← (b.build root g.source).mapError fun e => .fault e.fault
      check (g.limits.checkNodes t.size)
      return t) := by
  rw [finish, Tree.ofExpr, h.added]
  rfl

/-- Up to any depth of calls the parser makes the tree of what is read. -/
theorem parseWithin_eq_whole (g : Grammar) (depth : Nat) (tokens : List Token) :
    g.parseWithin depth tokens = g.wholeWithin depth (closed tokens) >>= g.finish := by
  rw [parseWithin, wholeWithin]
  split
  · rfl
  have hlay := (laying g depth).expression 0 {} ⟨0, closed tokens⟩
  generalize g.expression depth 0 _ = x, g.parseExpression depth 0 {} _ = y at hlay
  cases hlay with
  | error h =>
    obtain rfl := h
    rfl
  | ok h =>
    obtain @⟨e, root, b, after, hlays⟩ := h
    dsimp only [bind, Except.bind]
    split
    · exact (finish_of_lays hlays).symm
    · split <;> rfl

/-- **Parsing makes the tree of the expression that is read.** -/
theorem parse_eq_whole (g : Grammar) (tokens : List Token) :
    g.parse tokens = g.whole tokens >>= g.finish :=
  parseWithin_eq_whole g _ tokens

end Grammar

end Reckon
