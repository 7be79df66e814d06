/-
The machine of moments and the reader. Whatever depth of calls the reader is
started with, it reads what the machine comes to (`Grammar.comes_of_wholeWithin`),
and it uses up the depth just if more calls than that are active at some moment
(`Grammar.wholeWithin_eq_tooDeep_iff`).

The statement is one for each of the five functions, by induction on the depth
of calls (`Grammar.Mirrored`), over any stack of calls that wait.
-/
import Reckon.Proofs.Grammar.Extent
import Reckon.Proofs.Grammar.Moment

namespace Reckon

/-! ## Places among tokens -/

namespace Cursor

variable {tokens : List Token} {c : Cursor}

/-- A place among tokens, with an end from there on. -/
structure On (tokens : List Token) (c : Cursor) : Prop where
  rest : c.rest = tokens.drop c.index
  ended : c.Ended

/-- The place without the tokens behind the one at it. -/
def here (c : Cursor) : Cursor := ⟨c.index, [c.peek]⟩

@[simp] theorem mk_peek (c : Cursor) : (⟨c.index, [c.peek]⟩ : Cursor) = c.here := rfl

@[simp] theorem peek_here (c : Cursor) : c.here.peek = c.peek := rfl

@[simp] theorem index_here (c : Cursor) : c.here.index = c.index := rfl

@[simp] theorem atEnd_here (c : Cursor) : c.here.atEnd = c.atEnd := rfl

@[simp] theorem index_advance_here (c : Cursor) : c.here.advance.index = c.advance.index := by
  cases h : c.atEnd <;> simp [advance, h]

theorem On.getElem? (h : c.On tokens) : tokens[c.index]? = some c.peek := by
  have hcons := h.ended.rest_eq
  rw [h.rest] at hcons
  rw [← List.head?_drop, hcons, List.head?_cons]

theorem On.advance (h : c.On tokens) : c.advance.On tokens := by
  refine ⟨?_, h.ended.advance⟩
  unfold Cursor.advance
  split
  · exact h.rest
  · simp [h.rest]

end Cursor

namespace Grammar

variable {g : Grammar} {tokens : List Token}

@[simp] theorem problemAt_here (c : Cursor) (problem : GrammarProblem) :
    g.problemAt c.here problem = g.problemAt c problem := rfl

@[simp] theorem infixAt_here (c : Cursor) : g.infixAt c.here = g.infixAt c := rfl

section Next

variable {nesting : Nat} {waiting : List Waiting} {name : Cursor} {o : Operation}

theorem next_start (c : Cursor) : Moment.next g ⟨.start, nesting, c.index, waiting⟩ c.peek =
    if c.atEnd then .error (g.problemAt c .emptyExpression)
    else .ok (.inl ⟨.enter .expression, nesting, c.index, waiting⟩) := rfl

theorem next_close (inner : Expr) (c : Cursor) :
    Moment.next g ⟨.close inner, nesting, c.index, waiting⟩ c.peek = (do
      let after ← g.expect c .rightParen .missingClose
      return .inl ⟨.back inner, nesting - 1, after.index, waiting⟩) := by
  cases hk : c.peek.kind == .rightParen <;>
    simp [Moment.next, expect, hk, Functor.map, Except.map]

theorem next_opening (c : Cursor) :
    Moment.next g ⟨.opening name o, nesting, c.index, waiting⟩ c.peek = (do
      let after ← g.expect c .leftParen (.callWithoutOpen name.peek.value)
      check (g.limits.checkNesting (nesting + 1))
      return .inl ⟨.arguments name o, nesting + 1, after.index, waiting⟩) := by
  cases hk : c.peek.kind == .leftParen <;> simp [Moment.next, expect, hk, bind, Except.bind]

theorem next_closing (operands : List Expr) (c : Cursor) :
    Moment.next g ⟨.closing name o operands, nesting, c.index, waiting⟩ c.peek = (do
      let after ← g.expect c .rightParen .callWithoutClose
      check (g.limits.checkArguments operands.length)
      if o.accepts operands.length then
        return .inl
          ⟨.back (.apply o operands name.peek.position), nesting - 1, after.index, waiting⟩
      else
        throw (g.problemAt name (.argumentCount o.name o.operandCount operands.length))) := by
  cases hk : c.peek.kind == .rightParen <;> simp [Moment.next, expect, hk, bind, Except.bind]

/-- Where no call waits for an expression it is to be the whole one. -/
theorem next_back (e : Expr) (c : Cursor) :
    Moment.next g ⟨.back e, nesting, c.index, []⟩ c.peek = Except.map .inr (
      if c.atEnd then return e
      else if c.peek.kind == .rightParen then throw (g.problemAt c .unexpectedClose)
      else throw (g.problemAt c (.unexpectedToken c.peek.value))) := by
  cases hend : c.atEnd <;> cases hk : c.peek.kind == .rightParen <;>
    simp [Moment.next, hend, hk, pure, Except.pure, Except.map, throw, throwThe,
      MonadExceptOf.throw]

end Next

/-! ## What the machine follows -/

/-- A run through moments of at most so many active calls, up to the last moment. -/
abbrev LowRun (g : Grammar) (tokens : List Token) (limit : Nat) : Moment → Moment → Prop :=
  Relation.ReflTransGen fun m m' => m.active ≤ limit ∧ Turn g tokens m m'

theorem LowRun.run {limit : Nat} {m m' : Moment} (h : LowRun g tokens limit m m') :
    Run g tokens m m' := by
  induction h with
  | refl => exact .refl
  | tail _ hturn ih => exact ih.tail hturn.2

/-- From a moment the machine comes to what a reading comes to, at the moment that belongs to it,
with no more calls than a limit; or else more of them are active on the way. -/
inductive Follows (g : Grammar) (tokens : List Token) {α : Type} (limit : Nat) (m : Moment)
    (target : α → Cursor → Moment) : Except Failure (α × Cursor) → Prop
  | ok {a after} : LowRun g tokens limit m (target a after) → after.On tokens →
      Follows g tokens limit m target (.ok (a, after))
  | error {m' f} : LowRun g tokens limit m m' → m'.active ≤ limit →
      Ends g tokens m' (.error f) → Follows g tokens limit m target (.error f)
  | deep {m'} : Run g tokens m m' → limit < m'.active →
      Follows g tokens limit m target (.error tooDeep)

namespace Follows

variable {α β : Type} {limit : Nat} {m m' : Moment} {target : α → Cursor → Moment}
  {x : Except Failure (α × Cursor)} {c : Cursor}

theorem of_run (hrun : LowRun g tokens limit m m') (h : Follows g tokens limit m' target x) :
    Follows g tokens limit m target x := by
  cases h with
  | ok hrun' hafter => exact .ok (hrun.trans hrun') hafter
  | error hrun' hlow hends => exact .error (hrun.trans hrun') hlow hends
  | deep hrun' hlimit => exact .deep (hrun.run.trans hrun') hlimit

/-- A turn at a place of the reading. -/
theorem turn (hc : c.On tokens) (hlow : m.active ≤ limit) (hindex : m.index = c.index)
    (hnext : m.next g c.peek = .ok (.inl m')) (h : Follows g tokens limit m' target x) :
    Follows g tokens limit m target x :=
  h.of_run (.single ⟨hlow, hindex ▸ hc.getElem?, hnext⟩)

theorem fails (hc : c.On tokens) (hlow : m.active ≤ limit) (hindex : m.index = c.index)
    {f : Failure} (hnext : m.next g c.peek = .error f) :
    Follows g tokens limit m target (.error f) :=
  .error .refl hlow (.intro (hindex ▸ hc.getElem?) hnext)

/-- What goes on after a reading follows what goes on at the moment that belongs to it. -/
theorem bind (h : Follows g tokens limit m target x) {target' : β → Cursor → Moment}
    {k : α × Cursor → Except Failure (β × Cursor)}
    (hk : ∀ a after, x = .ok (a, after) → after.On tokens →
      Follows g tokens limit (target a after) target' (k (a, after))) :
    Follows g tokens limit m target' (x >>= k) := by
  cases h with
  | ok hrun hafter => exact (hk _ _ rfl hafter).of_run hrun
  | error hrun hlow hends => exact .error hrun hlow hends
  | deep hrun hlimit => exact .deep hrun hlimit

end Follows

/-- A call has returned, up to a place. -/
def returned (nesting : Nat) (waiting : List Waiting) (e : Expr) (after : Cursor) : Moment :=
  ⟨.back e, nesting, after.index, waiting⟩

/-! ### The loops -/

theorem follows_infixTail {operand : Int → Cursor → Reading} {limit nesting : Nat} {floor : Int}
    {waiting : List Waiting}
    (hlow : waiting.length + 1 ≤ limit)
    (hlength : ∀ {p c e after}, operand p c = .ok (e, after) → after.rest.length ≤ c.rest.length)
    (hoperand : ∀ {p c w}, c.On tokens → Follows g tokens limit
      ⟨.enter (.binary p), nesting, c.index, w :: waiting⟩ (returned nesting (w :: waiting))
      (operand p c)) :
    ∀ {count left c}, c.On tokens → c.rest.length ≤ count →
      Follows g tokens limit ⟨.tail floor left, nesting, c.index, waiting⟩
        (returned nesting waiting) (infixTail g operand floor count left c)
  | 0, left, c, hc, hcount => by
    have := hc.ended.length_pos
    omega
  | count + 1, left, c, hc, hcount => by
    simp only [infixTail]
    split
    · next ho => exact .turn hc hlow rfl (by simp [Moment.next, ho, returned]) (.ok .refl hc)
    next o ho =>
    split
    · next hlt => exact .turn hc hlow rfl (by simp [Moment.next, ho, hlt, returned]) (.ok .refl hc)
    next hge =>
    have hshort := length_advance (c := c) (by simp [(infixAt_eq_some.1 ho).1])
    refine .turn hc hlow rfl (by simp [Moment.next, ho, hge]; rfl)
      ((hoperand hc.advance).bind fun right after hright hafter => ?_)
    have := hlength hright
    dsimp only
    cases hcheck : checkInfix o with
    | error f =>
      exact .fails hafter hlow rfl (by simp [Moment.next, Moment.resume, returned, hcheck]; rfl)
    | ok =>
      exact .turn hafter hlow rfl (by simp [Moment.next, Moment.resume, returned, hcheck]; rfl)
        (follows_infixTail hlow hlength hoperand hafter (by omega))

section Arguments

variable {argument : Cursor → Reading} {limit nesting : Nat} {waiting : List Waiting}
  {name : Cursor} {o : Operation}
  (hlow : waiting.length + 1 ≤ limit)
  (hlength : ∀ {c e after}, argument c = .ok (e, after) → after.rest.length ≤ c.rest.length)
  (hargument : ∀ {c w}, c.On tokens → Follows g tokens limit
    ⟨.enter .expression, nesting, c.index, w :: waiting⟩ (returned nesting (w :: waiting))
    (argument c))

/-- All arguments have been read, up to a place. -/
def argued (nesting : Nat) (waiting : List Waiting) (name : Cursor) (o : Operation)
    (operands : List Expr) (after : Cursor) : Moment :=
  ⟨.closing name o operands, nesting, after.index, waiting⟩

include hlow hlength hargument

theorem follows_argumentTail : ∀ {count operands c}, c.On tokens → c.rest.length ≤ count →
    Follows g tokens limit ⟨.further name o operands, nesting, c.index, waiting⟩
      (fun others => argued nesting waiting name o (operands ++ others))
      (argumentTail argument count c)
  | 0, operands, c, hc, hcount => by
    have := hc.ended.length_pos
    omega
  | count + 1, operands, c, hc, hcount => by
    simp only [argumentTail]
    split
    · next hk =>
      have hshort := length_advance (c := c) (by simp_all)
      refine .turn hc hlow rfl (by simp [Moment.next, hk]; rfl)
        ((hargument hc.advance).bind fun first after hfirst hafter => ?_)
      have := hlength hfirst
      refine .turn hafter hlow rfl rfl
        ((follows_argumentTail hafter (by omega)).bind fun others after' _ hafter' => ?_)
      rw [List.append_assoc]
      exact .ok .refl hafter'
    · next hk => exact .turn hc hlow rfl (by simp [Moment.next, hk, argued]) (.ok .refl hc)

theorem follows_arguments {c : Cursor} (hc : c.On tokens) :
    Follows g tokens limit ⟨.arguments name o, nesting, c.index, waiting⟩
      (argued nesting waiting name o) (arguments argument c) := by
  unfold arguments
  split
  · next hk => exact .turn hc hlow rfl (by simp [Moment.next, hk]; rfl) (.ok .refl hc)
  · next hk =>
    refine .turn hc hlow rfl (by simp [Moment.next, hk]; rfl)
      ((hargument hc).bind fun first after hfirst hafter => ?_)
    refine .turn hafter hlow rfl rfl ((follows_argumentTail hlow hlength hargument hafter
      (Nat.le_refl _)).bind fun others after' _ hafter' => ?_)
    exact .ok .refl hafter'

end Arguments

/-! ### The five functions -/

/-- From where a function begins the machine follows it, whatever calls wait. -/
structure Mirrored (g : Grammar) (tokens : List Token) (depth : Nat) : Prop where
  expression : ∀ {nesting c waiting limit}, c.On tokens → limit = depth + waiting.length →
    Follows g tokens limit ⟨.enter .expression, nesting, c.index, waiting⟩
      (returned nesting waiting) (expression g depth nesting c)
  binary : ∀ {nesting floor c waiting limit}, c.On tokens → limit = depth + waiting.length →
    Follows g tokens limit ⟨.enter (.binary floor), nesting, c.index, waiting⟩
      (returned nesting waiting) (binary g depth nesting floor c)
  unary : ∀ {nesting c waiting limit}, c.On tokens → limit = depth + waiting.length →
    Follows g tokens limit ⟨.enter .unary, nesting, c.index, waiting⟩
      (returned nesting waiting) (unary g depth nesting c)
  primary : ∀ {nesting c waiting limit}, c.On tokens → limit = depth + waiting.length →
    Follows g tokens limit ⟨.enter .primary, nesting, c.index, waiting⟩
      (returned nesting waiting) (primary g depth nesting c)
  call : ∀ {nesting c waiting limit}, c.On tokens → limit = depth + waiting.length →
    Follows g tokens limit ⟨.enter .call, nesting, c.index, waiting⟩
      (returned nesting waiting) (call g depth nesting c)

variable {depth nesting limit : Nat} {c : Cursor} {waiting : List Waiting}

/-- A function that begins has a unit of depth. -/
theorem active_le (h : limit = depth + 1 + waiting.length) : waiting.length + 1 ≤ limit := by
  omega

/-- A call has one unit of depth less, and one more call waits for it. -/
theorem limit_call (h : limit = depth + 1 + waiting.length) (w : Waiting) :
    limit = depth + (w :: waiting).length := by
  rw [h, List.length_cons]
  omega

theorem Mirrored.succ_binary (ih : g.Mirrored tokens depth) {floor : Int} (hc : c.On tokens)
    (hlimit : limit = depth + 1 + waiting.length) :
    Follows g tokens limit ⟨.enter (.binary floor), nesting, c.index, waiting⟩
      (returned nesting waiting) (Grammar.binary g (depth + 1) nesting floor c) := by
  have hlow := active_le hlimit
  simp only [Grammar.binary]
  refine .turn hc hlow rfl rfl
    ((ih.unary hc (limit_call hlimit _)).bind fun left after _ hafter => ?_)
  exact .turn hafter hlow rfl rfl (follows_infixTail hlow
    (fun h => ((sound g depth).binary h).1.length_le)
    (fun hc => ih.binary hc (limit_call hlimit _)) hafter (Nat.le_refl _))

theorem Mirrored.succ_unary (ih : g.Mirrored tokens depth) (hc : c.On tokens)
    (hlimit : limit = depth + 1 + waiting.length) :
    Follows g tokens limit ⟨.enter .unary, nesting, c.index, waiting⟩
      (returned nesting waiting) (Grammar.unary g (depth + 1) nesting c) := by
  have hlow := active_le hlimit
  simp only [Grammar.unary]
  split
  · next hminus =>
    cases hcheck : check (g.limits.checkNesting (nesting + 1)) with
    | error f => exact .fails hc hlow rfl (by simp [Moment.next, Moment.enter, hminus, hcheck]; rfl)
    | ok =>
      refine .turn hc hlow rfl (by simp [Moment.next, Moment.enter, hminus, hcheck]; rfl)
        ((ih.unary hc.advance (limit_call hlimit _)).bind fun operand after _ hafter => ?_)
      exact .turn hafter hlow rfl rfl (.ok .refl hafter)
  · next hplain =>
    rw [← bind_pure (Grammar.primary g depth nesting c)]
    refine .turn hc hlow rfl (by simp [Moment.next, Moment.enter, hplain]; rfl)
      ((ih.primary hc (limit_call hlimit _)).bind fun e after _ hafter => ?_)
    exact .turn hafter hlow rfl rfl (.ok .refl hafter)

theorem Mirrored.succ_primary (ih : g.Mirrored tokens depth) (hc : c.On tokens)
    (hlimit : limit = depth + 1 + waiting.length) :
    Follows g tokens limit ⟨.enter .primary, nesting, c.index, waiting⟩
      (returned nesting waiting) (Grammar.primary g (depth + 1) nesting c) := by
  have hlow := active_le hlimit
  simp only [Grammar.primary]
  split
  case h_1 hk =>
    cases hread : numberOf c.peek with
    | error f => exact .fails hc hlow rfl (by simp [Moment.next, Moment.enter, hk, hread]; rfl)
    | ok value =>
      exact .turn hc hlow rfl (by simp [Moment.next, Moment.enter, hk, hread]; rfl)
        (.ok .refl hc.advance)
  case h_2 hk =>
    exact .turn hc hlow rfl (by simp [Moment.next, Moment.enter, hk]; rfl) (.ok .refl hc.advance)
  case h_3 hk =>
    rw [← bind_pure (Grammar.call g depth nesting c)]
    refine .turn hc hlow rfl (by simp [Moment.next, Moment.enter, hk]; rfl)
      ((ih.call hc (limit_call hlimit _)).bind fun e after _ hafter => ?_)
    exact .turn hafter hlow rfl rfl (.ok .refl hafter)
  case h_4 hk =>
    cases hcheck : check (g.limits.checkNesting (nesting + 1)) with
    | error f => exact .fails hc hlow rfl (by simp [Moment.next, Moment.enter, hk, hcheck]; rfl)
    | ok =>
      refine .turn hc hlow rfl (by simp [Moment.next, Moment.enter, hk, hcheck]; rfl)
        ((ih.expression hc.advance (limit_call hlimit _)).bind fun inner after _ hafter => ?_)
      refine .turn hafter hlow rfl rfl ?_
      show Follows g tokens limit ⟨.close inner, nesting + 1, after.index, waiting⟩ _ _
      cases hclose : g.expect after .rightParen .missingClose with
      | error f => exact .fails hafter hlow rfl (by rw [next_close, hclose]; rfl)
      | ok last =>
        obtain ⟨_, rfl⟩ := expect_eq_ok hclose
        exact .turn hafter hlow rfl (by rw [next_close, hclose]; rfl) (.ok .refl hafter.advance)
  all_goals
    next hk => exact .fails hc hlow rfl (by simp [Moment.next, Moment.enter, hk]; rfl)

theorem Mirrored.succ_call (ih : g.Mirrored tokens depth) (hc : c.On tokens)
    (hlimit : limit = depth + 1 + waiting.length) :
    Follows g tokens limit ⟨.enter .call, nesting, c.index, waiting⟩
      (returned nesting waiting) (Grammar.call g (depth + 1) nesting c) := by
  have hlow := active_le hlimit
  simp only [Grammar.call]
  split
  · next ho => exact .fails hc hlow rfl (by simp [Moment.next, Moment.enter, ho]; rfl)
  next o ho =>
  refine .turn hc hlow rfl (by simp [Moment.next, Moment.enter, ho]; rfl) ?_
  have hname := hc.advance
  cases hopen : g.expect c.advance .leftParen (.callWithoutOpen c.peek.value) with
  | error f => exact .fails hname hlow rfl (by rw [next_opening, Cursor.peek_here, hopen]; rfl)
  | ok opened =>
  obtain ⟨_, rfl⟩ := expect_eq_ok hopen
  cases hcheck : check (g.limits.checkNesting (nesting + 1)) with
  | error f =>
    exact .fails hname hlow rfl (by rw [next_opening, Cursor.peek_here, hopen, hcheck]; rfl)
  | ok =>
  refine .turn hname hlow rfl (by rw [next_opening, Cursor.peek_here, hopen, hcheck]; rfl)
    ((follows_arguments hlow (fun h => ((sound g depth).expression h).1.length_le)
      (fun hc => ih.expression hc (limit_call hlimit _)) hname.advance).bind
        fun operands after _ hafter => ?_)
  cases hclose : g.expect after .rightParen .callWithoutClose with
  | error f => exact .fails hafter hlow rfl (by rw [argued, next_closing, hclose]; rfl)
  | ok last =>
  obtain ⟨_, rfl⟩ := expect_eq_ok hclose
  cases hcount : check (g.limits.checkArguments operands.length) with
  | error f => exact .fails hafter hlow rfl (by rw [argued, next_closing, hclose, hcount]; rfl)
  | ok =>
  cases haccepts : o.accepts operands.length with
  | false =>
    exact .fails hafter hlow rfl (by rw [argued, next_closing, hclose, hcount, haccepts]; rfl)
  | true =>
    exact .turn hafter hlow rfl (by rw [argued, next_closing, hclose, hcount, haccepts]; rfl)
      (.ok .refl hafter.advance)

theorem mirrored (g : Grammar) (tokens : List Token) : ∀ depth, g.Mirrored tokens depth
  | 0 => by
    -- the call that begins is one more than the limit
    constructor <;> intros <;> refine .deep .refl ?_ <;> simp_all [Moment.active]
  | depth + 1 => by
    have ih := mirrored g tokens depth
    refine ⟨?_, ih.succ_binary, ih.succ_unary, ih.succ_primary, ih.succ_call⟩
    intro nesting c waiting limit hc hlimit
    have hlow := active_le hlimit
    rw [Grammar.expression, ← bind_pure (Grammar.binary g depth nesting 1 c)]
    refine .turn hc hlow rfl rfl
      ((ih.binary hc (limit_call hlimit _)).bind fun e after _ hafter => ?_)
    exact .turn hafter hlow rfl rfl (.ok .refl hafter)

/-! ## Failures of a turn -/

section Failures

variable {m : Moment}

theorem problemAt_ne_tooDeep (c : Cursor) (problem : GrammarProblem) :
    g.problemAt c problem ≠ tooDeep := by
  simp [problemAt, tooDeep]

theorem check_ne_tooDeep (c : Except Diagnostic Unit) : check c ≠ .error tooDeep := by
  cases c <;> simp [check, mapError_ok, mapError_error, tooDeep]

theorem ok_ne_tooDeep {α : Type} (a : α) : (Except.ok a : Except Failure α) ≠ .error tooDeep := by
  simp

theorem failure_ne_tooDeep {α : Type} (c : Cursor) (problem : GrammarProblem) :
    (Except.error (g.problemAt c problem) : Except Failure α) ≠ .error tooDeep := by
  simp [problemAt_ne_tooDeep]

theorem numberOf_ne_tooDeep (t : Token) : numberOf t ≠ .error tooDeep := by
  unfold numberOf
  split <;> simp [tooDeep]

theorem expect_ne_tooDeep (c : Cursor) (k : TokenKind) (problem : GrammarProblem) :
    g.expect c k problem ≠ .error tooDeep := by
  intro h
  exact problemAt_ne_tooDeep c problem (expect_eq_error h).2.symm

theorem bind_ne_tooDeep {α β : Type} {x : Except Failure α} {k : α → Except Failure β}
    (hx : x ≠ .error tooDeep) (hk : ∀ a, k a ≠ .error tooDeep) : (x >>= k) ≠ .error tooDeep := by
  intro h
  obtain h | ⟨a, -, h⟩ := bind_eq_error.1 h
  · exact hx h
  · exact hk a h

theorem map_ne_tooDeep {α β : Type} {x : Except Failure α} (hx : x ≠ .error tooDeep)
    (f : α → β) : x.map f ≠ .error tooDeep := by
  cases x with
  | ok a => exact ok_ne_tooDeep _
  | error e => exact fun h => hx (congrArg _ (Except.error.inj h))

theorem checkInfix_ne_tooDeep (o : Operation) : checkInfix o ≠ .error tooDeep := by
  unfold checkInfix
  split <;> simp [tooDeep, BuildError.fault]

theorem resume_ne_tooDeep (e : Expr) (w : Waiting) : m.resume e w ≠ .error tooDeep := by
  cases w with
  | right => exact bind_ne_tooDeep (checkInfix_ne_tooDeep _) fun _ => ok_ne_tooDeep _
  | _ => exact ok_ne_tooDeep _

theorem enter_ne_tooDeep (here : Cursor) (r : Routine) :
    m.enter g here r ≠ .error tooDeep := by
  cases r with
  | expression | binary floor => exact ok_ne_tooDeep _
  | unary =>
    simp only [Moment.enter]
    split
    · exact bind_ne_tooDeep (check_ne_tooDeep _) fun _ => ok_ne_tooDeep _
    · exact ok_ne_tooDeep _
  | primary =>
    simp only [Moment.enter]
    split
    · exact bind_ne_tooDeep (numberOf_ne_tooDeep _) fun _ => ok_ne_tooDeep _
    · exact ok_ne_tooDeep _
    · exact ok_ne_tooDeep _
    · exact bind_ne_tooDeep (check_ne_tooDeep _) fun _ => ok_ne_tooDeep _
    all_goals exact failure_ne_tooDeep _ _
  | call =>
    simp only [Moment.enter]
    split
    · exact failure_ne_tooDeep _ _
    · exact ok_ne_tooDeep _

/-- Turns need no depth of calls. -/
theorem next_ne_tooDeep (t : Token) : m.next g t ≠ .error tooDeep := by
  obtain ⟨s, nesting, index, waiting⟩ := m
  cases s with
  | start =>
    simp only [Moment.next]
    split
    · exact failure_ne_tooDeep _ _
    · exact ok_ne_tooDeep _
  | enter r => exact map_ne_tooDeep (enter_ne_tooDeep _ _) _
  | tail floor left =>
    simp only [Moment.next]
    split
    · exact ok_ne_tooDeep _
    · split <;> exact ok_ne_tooDeep _
  | close inner => exact bind_ne_tooDeep (expect_ne_tooDeep _ _ _) fun _ => ok_ne_tooDeep _
  | opening name o =>
    exact bind_ne_tooDeep (expect_ne_tooDeep _ _ _) fun _ =>
      bind_ne_tooDeep (check_ne_tooDeep _) fun _ => ok_ne_tooDeep _
  | arguments name o | further name o operands =>
    simp only [Moment.next]
    split <;> exact ok_ne_tooDeep _
  | closing name o operands =>
    refine bind_ne_tooDeep (expect_ne_tooDeep _ _ _) fun _ =>
      bind_ne_tooDeep (check_ne_tooDeep _) fun _ => ?_
    split
    · exact ok_ne_tooDeep _
    · exact failure_ne_tooDeep _ _
  | back e =>
    simp only [Moment.next]
    split
    · exact map_ne_tooDeep (resume_ne_tooDeep _ _) _
    split
    · exact ok_ne_tooDeep _
    · split <;> exact failure_ne_tooDeep _ _

theorem Ends.ne_tooDeep {o : Except Failure Expr} (h : Ends g tokens m o) :
    o ≠ .error tooDeep := by
  rintro rfl
  obtain ⟨-, hnext⟩ := h
  exact next_ne_tooDeep _ hnext

end Failures

/-! ## Whole expressions -/

/-- The machine comes to what is read up to a depth of calls, with no more calls than that, or more
of them are active at a moment. -/
theorem lowRun_of_wholeWithin (hend : ∃ t ∈ tokens, t.kind = .finish) (depth : Nat) :
    (∃ m, LowRun g tokens depth .begin m ∧ m.active ≤ depth ∧
        Ends g tokens m (g.wholeWithin depth tokens)) ∨
      g.wholeWithin depth tokens = .error tooDeep ∧
        ∃ m, Run g tokens .begin m ∧ depth < m.active := by
  have hc : Cursor.On tokens ⟨0, tokens⟩ := ⟨rfl, hend⟩
  have hlow : Moment.begin.active ≤ depth := Nat.zero_le _
  simp only [wholeWithin]
  split
  · next hfinish =>
    exact .inl ⟨.begin, .refl, hlow, .intro hc.getElem? ((next_start _).trans (if_pos hfinish))⟩
  next hstart =>
  have hbegin : Turn g tokens .begin ⟨.enter .expression, 0, 0, []⟩ :=
    ⟨hc.getElem?, (next_start _).trans (if_neg hstart)⟩
  have hfollows : Follows g tokens depth ⟨.enter .expression, 0, 0, []⟩ (returned 0 [])
      (expression g depth 0 ⟨0, tokens⟩) := (mirrored g tokens depth).expression hc rfl
  generalize expression g depth 0 ⟨0, tokens⟩ = x at hfollows
  cases hfollows with
  | ok hrun hafter =>
    exact .inl ⟨_, hrun.head ⟨hlow, hbegin⟩, hlow, .intro hafter.getElem? (next_back _ _)⟩
  | error hrun hactive hends => exact .inl ⟨_, hrun.head ⟨hlow, hbegin⟩, hactive, hends⟩
  | deep hrun hactive => exact .inr ⟨rfl, _, hrun.head hbegin, hactive⟩

/-- Every moment is one of those on the way to an end. -/
theorem active_le_of_lowRun {limit : Nat} {m m' last : Moment} {o : Except Failure Expr}
    (hrun : LowRun g tokens limit m last) (hlast : last.active ≤ limit)
    (hends : Ends g tokens last o) (h : Run g tokens m m') : m'.active ≤ limit := by
  induction hrun using Relation.ReflTransGen.head_induction_on with
  | refl =>
    obtain rfl | ⟨_, hturn, _⟩ := h.cases_head
    · exact hlast
    · exact absurd hturn hends.not_turn
  | head hturn _ ih =>
    obtain rfl | ⟨_, hturn', hrest⟩ := h.cases_head
    · exact hturn.1
    · exact ih (hturn'.unique hturn.2 ▸ hrest)

/-- **The active calls of the machine are the depth of calls that the reader needs**: it reads what
the machine comes to, unless at some moment there are more of them than it may make. -/
theorem wholeWithin_eq_tooDeep_iff (hend : ∃ t ∈ tokens, t.kind = .finish) {depth : Nat} :
    g.wholeWithin depth tokens = .error tooDeep ↔
      ∃ m, Run g tokens .begin m ∧ depth < m.active := by
  obtain ⟨last, hrun, hlast, hends⟩ | ⟨hdeep, hactive⟩ := lowRun_of_wholeWithin hend depth
  · refine ⟨fun h => absurd h hends.ne_tooDeep, ?_⟩
    rintro ⟨m, hrun', hactive⟩
    have := active_le_of_lowRun hrun hlast hends hrun'
    omega
  · exact ⟨fun _ => hactive, fun _ => hdeep⟩

theorem comes_of_wholeWithin (hend : ∃ t ∈ tokens, t.kind = .finish) {depth : Nat}
    (h : ∀ m, Run g tokens .begin m → m.active ≤ depth) :
    Comes g tokens .begin (g.wholeWithin depth tokens) := by
  obtain ⟨last, hrun, -, hends⟩ | ⟨-, m, hrun, hactive⟩ := lowRun_of_wholeWithin hend depth
  · exact ⟨last, hrun.run, hends⟩
  · have := h m hrun
    omega

end Grammar

end Reckon
