/-
Reading moment by moment. The five functions of the reader become a machine that
keeps a stack of the calls that wait for others, a count of the levels that it
is nested in, and the index of a token. It turns from one moment to the next by
that one token; there is no depth of calls, and nothing bounds its loops.

What a turn can do to the stack, the count and the index is told once
(`Grammar.shift_of_next`): a call goes on, makes another one, or returns, and
then the innermost call that waits goes on.
-/
import Mathlib.Logic.Relation
import Reckon.Proofs.Grammar.Measures

namespace Reckon

namespace Grammar

/-! ## The machine -/

/-- The functions of the reader. -/
inductive Routine where
  | expression
  | binary (floor : Int)
  | unary
  | primary
  | call

/-- A call that waits for the one it has made to return. -/
inductive Waiting where
  | expression
  /-- For the operand before any operators. -/
  | left (floor : Int)
  /-- For the right operand of an operator. -/
  | right (floor : Int) (left : Expr) (operation : Operation) (position : Int)
  /-- For the operand of a minus sign. -/
  | minus (position : Int)
  /-- For an operand without a minus sign. -/
  | unary
  /-- For an expression in parentheses. -/
  | group
  /-- For a call of a function. -/
  | primary
  /-- For an argument of a function behind others. -/
  | argument (name : Cursor) (operation : Operation) (operands : List Expr)

/-- What is done at a moment. -/
inductive Stage where
  | start
  /-- A function begins. -/
  | enter (r : Routine)
  /-- Operators may follow what has been read. -/
  | tail (floor : Int) (left : Expr)
  /-- The parenthesis behind an expression is to follow. -/
  | close (inner : Expr)
  /-- The parenthesis behind the name of a function is to follow. -/
  | opening (name : Cursor) (operation : Operation)
  /-- A first argument may follow. -/
  | arguments (name : Cursor) (operation : Operation)
  /-- Further arguments may follow. -/
  | further (name : Cursor) (operation : Operation) (operands : List Expr)
  /-- The parenthesis behind all arguments is to follow. -/
  | closing (name : Cursor) (operation : Operation) (operands : List Expr)
  /-- A function has returned. -/
  | back (e : Expr)

/-- A moment of reading. -/
structure Moment where
  stage : Stage
  /-- The minus signs, parentheses and calls of functions that are not complete. -/
  nesting : Nat
  index : Nat
  /-- The calls that wait, the innermost first. -/
  waiting : List Waiting

namespace Moment

/-- Before the first token. -/
def begin : Moment := ⟨.start, 0, 0, []⟩

/-- The calls of the five functions that are active: those that wait, and the one that goes on. -/
def active (m : Moment) : Nat :=
  match m.stage with
  | .start | .back _ => m.waiting.length
  | _ => m.waiting.length + 1

/-- A call takes what the one that it has made returns, or fails. -/
def resume (m : Moment) (e : Expr) : Waiting → Except Failure Moment
  | .expression | .unary | .primary => .ok { m with stage := .back e }
  | .left floor => .ok { m with stage := .tail floor e }
  | .right floor left operation position => do
    checkInfix operation
    return { m with stage := .tail floor (.apply operation [left, e] position) }
  | .minus position =>
    .ok { m with stage := .back (.apply .negation [e] position), nesting := m.nesting - 1 }
  | .group => .ok { m with stage := .close e }
  | .argument name operation operands =>
    .ok { m with stage := .further name operation (operands ++ [e]) }

/-- A function begins at the token: it calls another, takes the token, or fails. -/
def enter (g : Grammar) (m : Moment) (here : Cursor) : Routine → Except Failure Moment
  | .expression =>
    .ok { m with stage := .enter (.binary 1), waiting := .expression :: m.waiting }
  | .binary floor => .ok { m with stage := .enter .unary, waiting := .left floor :: m.waiting }
  | .unary =>
    if here.peek.kind == .operator && here.peek.value == Operation.negation.name then do
      check (g.limits.checkNesting (m.nesting + 1))
      return {
        stage := .enter .unary
        nesting := m.nesting + 1
        index := here.advance.index
        waiting := .minus here.peek.position :: m.waiting }
    else .ok { m with stage := .enter .primary, waiting := .unary :: m.waiting }
  | .primary =>
    match here.peek.kind with
    | .number => do
      let value ← numberOf here.peek
      return {
        m with
        stage := .back (.number value here.peek.position)
        index := here.advance.index }
    | .identifier => .ok {
        m with
        stage := .back (.var here.peek.value here.peek.position)
        index := here.advance.index }
    | .function => .ok { m with stage := .enter .call, waiting := .primary :: m.waiting }
    | .leftParen => do
      check (g.limits.checkNesting (m.nesting + 1))
      return {
        stage := .enter .expression
        nesting := m.nesting + 1
        index := here.advance.index
        waiting := .group :: m.waiting }
    | .finish => .error (g.problemAt here .operandAtEnd)
    | .operator => .error (g.problemAt here (.operandBeforeOperator here.peek.value))
    | .rightParen => .error (g.problemAt here .operandBeforeClose)
    | .comma => .error (g.problemAt here (.unexpectedToken here.peek.value))
  | .call =>
    match (g.registry.get? here.peek.value).filter (·.isFunction) with
    | none => .error (g.problemAt here (.unknownFunction here.peek.value))
    | some operation =>
      .ok { m with stage := .opening here operation, index := here.advance.index }

/-- What follows a moment where the token at the index is this one: another moment, or the end with
the whole expression. -/
def next (g : Grammar) (m : Moment) (t : Token) : Except Failure (Moment ⊕ Expr) :=
  let here : Cursor := ⟨m.index, [t]⟩
  match m.stage with
  | .start =>
    if here.atEnd then .error (g.problemAt here .emptyExpression)
    else .ok (.inl { m with stage := .enter .expression })
  | .enter r => (m.enter g here r).map .inl
  | .tail floor left =>
    match g.infixAt here with
    | none => .ok (.inl { m with stage := .back left })
    | some operation =>
      if operation.precedence < floor then .ok (.inl { m with stage := .back left })
      else .ok (.inl {
        m with
        stage := .enter (.binary (operation.precedence + 1))
        index := here.advance.index
        waiting := .right floor left operation here.peek.position :: m.waiting })
  | .close inner => do
    let after ← g.expect here .rightParen .missingClose
    return .inl {
      m with
      stage := .back inner
      nesting := m.nesting - 1
      index := after.index }
  | .opening name operation => do
    let after ← g.expect here .leftParen (.callWithoutOpen name.peek.value)
    check (g.limits.checkNesting (m.nesting + 1))
    return .inl {
      m with
      stage := .arguments name operation
      nesting := m.nesting + 1
      index := after.index }
  | .arguments name operation =>
    if here.peek.kind == .rightParen then
      .ok (.inl { m with stage := .closing name operation [] })
    else .ok (.inl {
      m with
      stage := .enter .expression
      waiting := .argument name operation [] :: m.waiting })
  | .further name operation operands =>
    if here.peek.kind == .comma then
      .ok (.inl {
        m with
        stage := .enter .expression
        index := here.advance.index
        waiting := .argument name operation operands :: m.waiting })
    else .ok (.inl { m with stage := .closing name operation operands })
  | .closing name operation operands => do
    let after ← g.expect here .rightParen .callWithoutClose
    check (g.limits.checkArguments operands.length)
    if operation.accepts operands.length then
      return .inl {
        m with
        stage := .back (.apply operation operands name.peek.position)
        nesting := m.nesting - 1
        index := after.index }
    else
      throw (g.problemAt name
        (.argumentCount operation.name operation.operandCount operands.length))
  | .back e =>
    match m.waiting with
    | w :: waiting => ({ m with waiting }.resume e w).map .inl
    | [] =>
      if here.atEnd then .ok (.inr e)
      else if here.peek.kind == .rightParen then .error (g.problemAt here .unexpectedClose)
      else .error (g.problemAt here (.unexpectedToken here.peek.value))

end Moment

variable {g : Grammar} {tokens : List Token} {m m' : Moment}

/-- One moment follows another, by the token at its index. -/
inductive Turn (g : Grammar) (tokens : List Token) : Moment → Moment → Prop
  | intro {m m' t} : tokens[m.index]? = some t → m.next g t = .ok (.inl m') → Turn g tokens m m'

/-- No moment follows, but a whole expression or a failure. -/
inductive Ends (g : Grammar) (tokens : List Token) : Moment → Except Failure Expr → Prop
  | intro {m t o} : tokens[m.index]? = some t → m.next g t = o.map .inr → Ends g tokens m o

/-- Any number of turns. -/
abbrev Run (g : Grammar) (tokens : List Token) : Moment → Moment → Prop :=
  Relation.ReflTransGen (Turn g tokens)

/-- Turns lead to an end. -/
def Comes (g : Grammar) (tokens : List Token) (m : Moment) (o : Except Failure Expr) : Prop :=
  ∃ m', Run g tokens m m' ∧ Ends g tokens m' o

theorem Turn.unique {m₁ m₂ : Moment} (h₁ : Turn g tokens m m₁) (h₂ : Turn g tokens m m₂) :
    m₁ = m₂ := by
  obtain ⟨ht, hnext⟩ := h₁
  obtain ⟨ht', hnext'⟩ := h₂
  obtain rfl := Option.some.inj (ht.symm.trans ht')
  exact Sum.inl.inj (Except.ok.inj (hnext.symm.trans hnext'))

/-- No moment follows an end. -/
theorem Ends.not_turn {o : Except Failure Expr} (h : Ends g tokens m o) :
    ¬ Turn g tokens m m' := by
  rintro ⟨ht, hnext⟩
  obtain ⟨ht', hnext'⟩ := h
  obtain rfl := Option.some.inj (ht.symm.trans ht')
  rw [hnext] at hnext'
  cases o <;> cases hnext'

theorem Ends.unique {o o' : Except Failure Expr} (h : Ends g tokens m o)
    (h' : Ends g tokens m o') : o = o' := by
  obtain ⟨ht, hnext⟩ := h
  obtain ⟨ht', hnext'⟩ := h'
  obtain rfl := Option.some.inj (ht.symm.trans ht')
  rw [hnext] at hnext'
  cases o <;> cases o' <;> cases hnext' <;> rfl

/-- Whatever turns are made on the way to an end, they lead to it. -/
theorem Comes.after {o : Except Failure Expr} (h : Comes g tokens m o) (hrun : Run g tokens m m') :
    Comes g tokens m' o := by
  induction hrun with
  | refl => exact h
  | tail _ hturn ih =>
    obtain ⟨last, hrun', hends⟩ := ih
    rcases hrun'.cases_head with rfl | ⟨_, hturn', hrest⟩
    · exact absurd hturn hends.not_turn
    · exact ⟨last, hturn.unique hturn' ▸ hrest, hends⟩

theorem Comes.unique {o o' : Except Failure Expr} (h : Comes g tokens m o)
    (h' : Comes g tokens m o') : o = o' := by
  obtain ⟨last, hrun, hends⟩ := h
  obtain ⟨last', hrun', hends'⟩ := h'.after hrun
  rcases hrun'.cases_head with rfl | ⟨_, hturn, _⟩
  · exact hends.unique hends'
  · exact absurd hturn hends.not_turn

/-! ## What a turn can do -/

/-- The function that waits. -/
def Waiting.routine : Waiting → Routine
  | expression => .expression
  | left floor | right floor _ _ _ => .binary floor
  | minus _ | unary => .unary
  | group | primary => .primary
  | argument _ _ _ => .call

/-- The levels of nesting that a call which waits has begun. -/
def Waiting.levels : Waiting → Nat
  | minus _ | group | argument _ _ _ => 1
  | _ => 0

/-- The function that goes on, if one does. -/
def Stage.routine? : Stage → Option Routine
  | start | back _ => none
  | enter r => some r
  | tail floor _ => some (.binary floor)
  | close _ => some .primary
  | opening _ _ | arguments _ _ | further _ _ _ | closing _ _ _ => some .call

/-- The levels of nesting that the call which goes on has begun. -/
def Stage.levels : Stage → Nat
  | close _ | arguments _ _ | further _ _ _ | closing _ _ _ => 1
  | _ => 0

/-- What a call that waits has called. Behind an operator it is for the ones that bind more
tightly. -/
inductive Awaits (g : Grammar) : Waiting → Routine → Prop
  | expression : Awaits g .expression (.binary 1)
  | left {floor} : Awaits g (.left floor) .unary
  | right {floor left t o position} : g.registry.InfixToken t o → floor ≤ o.precedence →
      Awaits g (.right floor left o position) (.binary (o.precedence + 1))
  | minus {position} : Awaits g (.minus position) .unary
  | unary : Awaits g .unary .primary
  | group : Awaits g .group .expression
  | primary : Awaits g .primary .call
  | argument {name o operands} : Awaits g (.argument name o operands) .expression

/-- A level of nesting is begun only if the limit allows it. -/
def Allows (g : Grammar) (nesting nesting' : Nat) : Prop :=
  nesting' ≤ nesting ∨ (nesting' : Int) ≤ g.limits.maxNestingDepth

/-- What a turn can do to the calls and the count of levels. -/
inductive Shift (g : Grammar) : Moment → Moment → Prop
  | starts {nesting index waiting} : Shift g ⟨.start, nesting, index, waiting⟩
      ⟨.enter .expression, nesting, index, waiting⟩
  /-- A call goes on, -/
  | goesOn {s s' x nesting nesting' index index' waiting} : s.routine? = some x →
      s'.routine? = some x → nesting' = nesting + s'.levels - s.levels →
      g.Allows nesting nesting' →
      Shift g ⟨s, nesting, index, waiting⟩ ⟨s', nesting', index', waiting⟩
  /-- or makes another call, for which it waits, -/
  | calls {s w y nesting nesting' index index' waiting} : s.routine? = some w.routine →
      g.Awaits w y → nesting' = nesting + w.levels - s.levels → g.Allows nesting nesting' →
      Shift g ⟨s, nesting, index, waiting⟩ ⟨.enter y, nesting', index', w :: waiting⟩
  /-- or returns. -/
  | returns {s x e nesting nesting' index index' waiting} : s.routine? = some x →
      nesting' = nesting - s.levels →
      Shift g ⟨s, nesting, index, waiting⟩ ⟨.back e, nesting', index', waiting⟩
  /-- The innermost call that waits goes on, or returns as well. -/
  | resumes {e s' w nesting nesting' index index' waiting} :
      (s'.routine? = some w.routine ∨ ∃ e', s' = .back e') →
      nesting' = nesting + s'.levels - w.levels → nesting' ≤ nesting →
      Shift g ⟨.back e, nesting, index, w :: waiting⟩ ⟨s', nesting', index', waiting⟩

theorem allows_refl (g : Grammar) (nesting : Nat) : g.Allows nesting nesting :=
  .inl (Nat.le_refl _)

theorem allows_of_check {nesting : Nat}
    (h : check (g.limits.checkNesting (nesting + 1)) = .ok ()) :
    g.Allows nesting (nesting + 1) :=
  .inr (check_eq_ok.1 h)

/-- The index stays, or it passes the token. -/
def Advances (index index' : Nat) (t : Token) : Prop :=
  index' = index ∨ index' = (Cursor.mk index [t]).advance.index

theorem shift_of_enter {r : Routine} {nesting index : Nat} {waiting : List Waiting} {t : Token}
    (h : Moment.enter g ⟨.enter r, nesting, index, waiting⟩ ⟨index, [t]⟩ r = .ok m') :
    Shift g ⟨.enter r, nesting, index, waiting⟩ m' ∧ Advances index m'.index t := by
  have hstay := allows_refl g nesting
  cases r with
  | expression =>
    obtain rfl := Except.ok.inj h
    exact ⟨.calls rfl .expression rfl hstay, .inl rfl⟩
  | binary floor =>
    obtain rfl := Except.ok.inj h
    exact ⟨.calls rfl .left rfl hstay, .inl rfl⟩
  | unary =>
    simp only [Moment.enter] at h
    split at h
    · obtain ⟨hcheck, h⟩ := step_eq_ok.1 h
      obtain rfl := pure_eq_ok.1 h
      exact ⟨.calls rfl .minus rfl (allows_of_check hcheck), .inr rfl⟩
    · obtain rfl := Except.ok.inj h
      exact ⟨.calls rfl .unary rfl hstay, .inl rfl⟩
  | primary =>
    simp only [Moment.enter] at h
    split at h
    · obtain ⟨_, _, h⟩ := bind_eq_ok.1 h
      obtain rfl := pure_eq_ok.1 h
      exact ⟨.returns rfl rfl, .inr rfl⟩
    · obtain rfl := Except.ok.inj h
      exact ⟨.returns rfl rfl, .inr rfl⟩
    · obtain rfl := Except.ok.inj h
      exact ⟨.calls rfl .primary rfl hstay, .inl rfl⟩
    · obtain ⟨hcheck, h⟩ := step_eq_ok.1 h
      obtain rfl := pure_eq_ok.1 h
      exact ⟨.calls rfl .group rfl (allows_of_check hcheck), .inr rfl⟩
    all_goals cases h
  | call =>
    simp only [Moment.enter] at h
    split at h
    · cases h
    · obtain rfl := Except.ok.inj h
      exact ⟨.goesOn rfl rfl rfl hstay, .inr rfl⟩

theorem shift_of_resume {e : Expr} {w : Waiting} {nesting index : Nat} {waiting : List Waiting}
    (h : Moment.resume ⟨.back e, nesting, index, waiting⟩ e w = .ok m') :
    Shift g ⟨.back e, nesting, index, w :: waiting⟩ m' ∧ m'.index = index := by
  cases w with
  | left | group | argument =>
    obtain rfl := Except.ok.inj h
    exact ⟨.resumes (.inl rfl) rfl (Nat.le_refl _), rfl⟩
  | right =>
    obtain rfl := pure_eq_ok.1 (step_eq_ok.1 h).2
    exact ⟨.resumes (.inl rfl) rfl (Nat.le_refl _), rfl⟩
  | expression | unary | primary =>
    obtain rfl := Except.ok.inj h
    exact ⟨.resumes (.inr ⟨_, rfl⟩) rfl (Nat.le_refl _), rfl⟩
  | minus =>
    obtain rfl := Except.ok.inj h
    exact ⟨.resumes (.inr ⟨_, rfl⟩) rfl (Nat.sub_le _ _), rfl⟩

theorem shift_of_next {t : Token} (h : m.next g t = .ok (.inl m')) :
    Shift g m m' ∧ Advances m.index m'.index t := by
  obtain ⟨s, nesting, index, waiting⟩ := m
  have hstay := allows_refl g nesting
  cases s with
  | start =>
    simp only [Moment.next] at h
    split at h
    · cases h
    · obtain rfl := Sum.inl.inj (Except.ok.inj h)
      exact ⟨.starts, .inl rfl⟩
  | enter r =>
    simp only [Moment.next] at h
    cases henter : Moment.enter g ⟨.enter r, nesting, index, waiting⟩ ⟨index, [t]⟩ r with
    | error => simp [henter, Except.map] at h
    | ok m'' =>
      obtain rfl : m'' = m' := by simpa [henter, Except.map] using h
      exact shift_of_enter henter
  | tail floor left =>
    simp only [Moment.next] at h
    split at h
    · obtain rfl := Sum.inl.inj (Except.ok.inj h)
      exact ⟨.returns rfl rfl, .inl rfl⟩
    next o ho =>
    split at h
    · obtain rfl := Sum.inl.inj (Except.ok.inj h)
      exact ⟨.returns rfl rfl, .inl rfl⟩
    next hge =>
    obtain rfl := Sum.inl.inj (Except.ok.inj h)
    exact ⟨.calls rfl (.right (infixAt_eq_some.1 ho) (Int.not_lt.1 hge)) rfl hstay, .inr rfl⟩
  | close inner =>
    simp only [Moment.next] at h
    obtain ⟨_, hexpect, h⟩ := bind_eq_ok.1 h
    obtain rfl := Sum.inl.inj (pure_eq_ok.1 h)
    exact ⟨.returns rfl rfl, .inr (by rw [(expect_eq_ok hexpect).2])⟩
  | opening name o =>
    simp only [Moment.next] at h
    obtain ⟨_, hexpect, h⟩ := bind_eq_ok.1 h
    obtain ⟨hcheck, h⟩ := step_eq_ok.1 h
    obtain rfl := Sum.inl.inj (pure_eq_ok.1 h)
    exact ⟨.goesOn rfl rfl rfl (allows_of_check hcheck), .inr (by rw [(expect_eq_ok hexpect).2])⟩
  | arguments name o =>
    simp only [Moment.next] at h
    split at h
    · obtain rfl := Sum.inl.inj (Except.ok.inj h)
      exact ⟨.goesOn rfl rfl rfl hstay, .inl rfl⟩
    · obtain rfl := Sum.inl.inj (Except.ok.inj h)
      exact ⟨.calls rfl .argument rfl hstay, .inl rfl⟩
  | further name o operands =>
    simp only [Moment.next] at h
    split at h
    · obtain rfl := Sum.inl.inj (Except.ok.inj h)
      exact ⟨.calls rfl .argument rfl hstay, .inr rfl⟩
    · obtain rfl := Sum.inl.inj (Except.ok.inj h)
      exact ⟨.goesOn rfl rfl rfl hstay, .inl rfl⟩
  | closing name o operands =>
    simp only [Moment.next] at h
    obtain ⟨_, hexpect, h⟩ := bind_eq_ok.1 h
    obtain ⟨_, h⟩ := step_eq_ok.1 h
    split at h
    · obtain rfl := Sum.inl.inj (pure_eq_ok.1 h)
      exact ⟨.returns rfl rfl, .inr (by rw [(expect_eq_ok hexpect).2])⟩
    · cases h
  | back e =>
    simp only [Moment.next] at h
    split at h
    · next w waiting =>
      cases hresume : Moment.resume ⟨.back e, nesting, index, waiting⟩ e w with
      | error => simp [hresume, Except.map] at h
      | ok m'' =>
        obtain rfl : m'' = m' := by simpa [hresume, Except.map] using h
        obtain ⟨hshift, hindex⟩ := shift_of_resume hresume
        exact ⟨hshift, .inl hindex⟩
    · split at h
      · cases h
      · split at h <;> cases h

end Grammar

end Reckon
