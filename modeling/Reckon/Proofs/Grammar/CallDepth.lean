/-
How many calls of the reader are active at one time. A level of nesting costs at
most five, besides those for the right operands of operators; and of these there
are no more on a level than the operators have precedences, since a right operand
takes only operators that bind more tightly (`Grammar.parse_callDepth`). So a
depth of calls that the limit on nesting and the registry tell is ample for all
tokens.

The five alone are not enough: each operator that binds more tightly than the one
before it costs a further call (`Grammar.exists_run_rising`).
-/
import Mathlib.Data.Finset.Card
import Reckon.Proofs.Grammar.Mirror

namespace Reckon

namespace Registry

variable {r : Registry}

/-- The precedences of the operators. -/
def precedences (r : Registry) : Finset Int :=
  ((r.operations.filter fun o => !o.isFunction).map (·.precedence)).toFinset

/-- How many of the precedences are below a floor. -/
def rank (r : Registry) (floor : Int) : Nat := (r.precedences.filter (· < floor)).card

theorem rank_le (r : Registry) (floor : Int) : r.rank floor ≤ r.precedences.card :=
  Finset.card_filter_le _ _

theorem InfixToken.mem_precedences {t : Token} {o : Operation} (h : r.InfixToken t o) :
    o.precedence ∈ r.precedences := by
  have hmem : o ∈ r.operations := List.mem_of_find?_eq_some h.2.1
  rw [precedences, List.mem_toFinset]
  exact List.mem_map_of_mem (List.mem_filter.2 ⟨hmem, by simp [h.2.2]⟩)

/-- Behind an operator the floor is above one more precedence. -/
theorem InfixToken.rank_lt {t : Token} {o : Operation} {floor : Int} (h : r.InfixToken t o)
    (hfloor : floor ≤ o.precedence) : r.rank floor < r.rank (o.precedence + 1) := by
  refine Finset.card_lt_card ⟨fun p hp => ?_, fun hsub => ?_⟩
  · rw [Finset.mem_filter] at hp ⊢
    exact ⟨hp.1, by omega⟩
  · have hmem := hsub (Finset.mem_filter.2 ⟨h.mem_precedences, Int.lt_succ _⟩)
    have := (Finset.mem_filter.1 hmem).2
    omega

end Registry

namespace Grammar

variable {g : Grammar} {tokens : List Token} {m m' : Moment}

/-! ## The stack of calls -/

/-- The levels of nesting that calls which wait have begun. -/
def levels : List Waiting → Nat
  | [] => 0
  | w :: waiting => w.levels + levels waiting

@[simp] theorem levels_cons (w : Waiting) (waiting : List Waiting) :
    levels (w :: waiting) = w.levels + levels waiting := rfl

@[simp] theorem Stage.levels_enter (x : Routine) : (Stage.enter x).levels = 0 := rfl

@[simp] theorem Stage.levels_back (e : Expr) : (Stage.back e).levels = 0 := rfl

/-- The right operands that a call waits for. -/
def Waiting.rights : Waiting → Nat
  | right .. => 1
  | _ => 0

/-- The right operands that calls wait for. -/
def rights : List Waiting → Nat
  | [] => 0
  | w :: waiting => w.rights + rights waiting

@[simp] theorem rights_cons (w : Waiting) (waiting : List Waiting) :
    rights (w :: waiting) = w.rights + rights waiting := rfl

/-- The place of a function among the five that a level of nesting takes. -/
def Routine.place : Routine → Nat
  | expression => 1
  | binary _ => 2
  | unary => 3
  | primary => 4
  | call => 5

theorem Routine.place_le (x : Routine) : x.place ≤ 5 := by
  cases x <;> simp [place]

/-- A bound on the right operands that calls of a level wait for when a function is active. -/
def Routine.rights (r : Registry) : Routine → Nat
  | expression => 0
  | binary floor => r.rank floor
  | unary | primary | call => r.precedences.card

theorem Routine.rights_le (r : Registry) (x : Routine) : x.rights r ≤ r.precedences.card := by
  cases x with
  | expression => exact Nat.zero_le _
  | binary floor => exact r.rank_le floor
  | unary | primary | call => exact Nat.le_refl _

/-- With the calls that wait for it a call of a function keeps to the bounds. -/
structure Placed (r : Registry) (x : Routine) (waiting : List Waiting) : Prop where
  calls_le : waiting.length + 1 ≤ 5 * levels waiting + x.place + rights waiting
  rights_le : rights waiting ≤ r.precedences.card * levels waiting + x.rights r

theorem placed_expression (r : Registry) : Placed r .expression [] :=
  ⟨Nat.le_refl _, Nat.zero_le _⟩

/-- What a call that keeps to the bounds calls keeps to them as well. -/
theorem Placed.calls {w : Waiting} {y : Routine} {waiting : List Waiting}
    (h : Placed g.registry w.routine waiting) (hy : g.Awaits w y) :
    Placed g.registry y (w :: waiting) := by
  obtain ⟨hcalls, hrights⟩ := h
  constructor
  · rw [List.length_cons, levels_cons, rights_cons]
    cases hy <;>
      simp only [Waiting.routine, Routine.place, Waiting.levels, Waiting.rights] at hcalls ⊢ <;>
      omega
  · rw [levels_cons, rights_cons, Nat.mul_add]
    cases hy with
    | @left floor =>
      have := g.registry.rank_le floor
      simp only [Waiting.routine, Routine.rights, Waiting.levels, Waiting.rights] at hrights ⊢
      omega
    | right ho hfloor =>
      -- one right operand more, and one precedence more below the floor
      have := ho.rank_lt hfloor
      simp only [Waiting.routine, Routine.rights, Waiting.levels, Waiting.rights] at hrights ⊢
      omega
    | _ =>
      simp only [Waiting.routine, Routine.rights, Waiting.levels, Waiting.rights] at hrights ⊢
      omega

/-- The calls that wait keep to the bounds, and so does the one that the innermost has made. -/
def Stacked (g : Grammar) : List Waiting → Prop
  | [] => True
  | w :: waiting => Placed g.registry w.routine waiting ∧ (∃ y, g.Awaits w y) ∧ g.Stacked waiting

/-! ## Every moment -/

/-- What the reader keeps to at each moment. -/
structure Fits (g : Grammar) (m : Moment) : Prop where
  nesting_eq : m.nesting = levels m.waiting + m.stage.levels
  nesting_le : (m.nesting : Int) ≤ g.limits.maxNestingDepth
  stacked : g.Stacked m.waiting
  placed : ∀ x, m.stage.routine? = some x → Placed g.registry x m.waiting
  /-- Before the first token no call waits. -/
  idle : m.stage = .start → m.waiting = []

theorem fits_begin : g.Fits .begin where
  nesting_eq := rfl
  nesting_le := Int.le_of_lt g.limits.nesting_pos
  stacked := trivial
  placed := nofun
  idle _ := rfl

theorem Allows.le {nesting nesting' : Nat} (h : g.Allows nesting nesting')
    (hle : (nesting : Int) ≤ g.limits.maxNestingDepth) :
    (nesting' : Int) ≤ g.limits.maxNestingDepth := by
  rcases h with h | h
  · omega
  · exact h

/-- Each turn keeps to that. -/
theorem Fits.shift (h : g.Fits m) (hshift : Shift g m m') : g.Fits m' := by
  obtain ⟨hnesting, hle, hstacked, hplaced, hidle⟩ := h
  cases hshift with
  | starts =>
    obtain rfl := hidle rfl
    exact ⟨hnesting, hle, hstacked, fun _ hx => Option.some.inj hx ▸ placed_expression _, nofun⟩
  | goesOn hx hx' hnesting' hallows =>
    refine ⟨?_, hallows.le hle, hstacked, fun y hy => hplaced y ?_, ?_⟩
    · dsimp only at *
      omega
    · exact hx.trans (hx'.symm.trans hy)
    · rintro rfl
      cases hx'
  | calls hx hy hnesting' hallows =>
    have hcaller := hplaced _ hx
    refine ⟨?_, hallows.le hle, ⟨hcaller, ⟨_, hy⟩, hstacked⟩, ?_, nofun⟩
    · simp only [levels_cons, Stage.levels_enter] at *
      omega
    · exact fun _ hx => Option.some.inj hx ▸ hcaller.calls hy
  | returns hx hnesting' =>
    refine ⟨?_, ?_, hstacked, nofun, nofun⟩ <;> simp only [Stage.levels_back] at * <;> omega
  | resumes hs hnesting' hle' =>
    -- the caller was placed when it made the call, and what waits for it has not changed
    obtain ⟨hcaller, -, hbelow⟩ := hstacked
    simp only [levels_cons, Stage.levels_back] at hnesting
    refine ⟨by dsimp only; omega, by dsimp only at *; omega, hbelow, ?_, ?_⟩
    · rintro x hx
      obtain hs | ⟨e, rfl⟩ := hs
      · obtain rfl := Option.some.inj (hs.symm.trans hx)
        exact hcaller
      · cases hx
    · rintro rfl
      obtain hs | ⟨_, hs⟩ := hs <;> cases hs

theorem Fits.run (hrun : Run g tokens .begin m) : g.Fits m := by
  induction hrun with
  | refl => exact fits_begin
  | tail _ hturn ih =>
    obtain ⟨-, hnext⟩ := hturn
    exact ih.shift (shift_of_next hnext).1

/-- A call that keeps to the bounds keeps to those of its level. -/
theorem Placed.le {x : Routine} {waiting : List Waiting} {nesting : Nat}
    (h : Placed g.registry x waiting) (hnesting : levels waiting ≤ nesting) :
    waiting.length + 1 ≤ 5 * (nesting + 1) + rights waiting ∧
      rights waiting ≤ g.registry.precedences.card * (nesting + 1) := by
  have hplace := x.place_le
  have hrights := x.rights_le g.registry
  have := Nat.mul_le_mul_left g.registry.precedences.card hnesting
  obtain ⟨hcalls, hright⟩ := h
  rw [Nat.mul_add_one g.registry.precedences.card]
  exact ⟨by omega, by omega⟩

theorem Stacked.le {waiting : List Waiting} {nesting : Nat} (h : g.Stacked waiting)
    (hnesting : levels waiting ≤ nesting) :
    waiting.length ≤ 5 * (nesting + 1) + rights waiting ∧
      rights waiting ≤ g.registry.precedences.card * (nesting + 1) := by
  cases waiting with
  | nil => exact ⟨Nat.zero_le _, Nat.zero_le _⟩
  | cons w waiting =>
    obtain ⟨hcaller, ⟨y, hy⟩, -⟩ := h
    obtain ⟨hcalls, hrights⟩ := (hcaller.calls hy).le hnesting
    exact ⟨by omega, hrights⟩

theorem Fits.le (h : g.Fits m) : m.active ≤ 5 * (m.nesting + 1) + rights m.waiting ∧
    rights m.waiting ≤ g.registry.precedences.card * (m.nesting + 1) := by
  have hnesting : levels m.waiting ≤ m.nesting := by
    have := h.nesting_eq
    omega
  unfold Moment.active
  split
  · exact h.stacked.le hnesting
  · exact h.stacked.le hnesting
  next hstart hback =>
  obtain ⟨x, hx⟩ : ∃ x, m.stage.routine? = some x := by
    cases hs : m.stage with
    | start => exact absurd hs hstart
    | back e => exact absurd hs (hback e)
    | _ => exact ⟨_, rfl⟩
  exact (h.placed x hx).le hnesting

theorem Fits.levels_le (h : g.Fits m) : m.nesting + 1 ≤ g.limits.maxNestingDepth.toNat + 1 := by
  have := h.nesting_le
  omega

/-- A depth of calls that is never used up, whatever the tokens are. -/
def callCeiling (g : Grammar) : Nat :=
  (5 + g.registry.precedences.card) * (g.limits.maxNestingDepth.toNat + 1)

theorem Fits.active_le (h : g.Fits m) : m.active ≤ g.callCeiling := by
  obtain ⟨hactive, hrights⟩ := h.le
  calc
    m.active ≤ (5 + g.registry.precedences.card) * (m.nesting + 1) := by
      rw [Nat.add_mul]
      omega
    _ ≤ g.callCeiling := Nat.mul_le_mul_left _ h.levels_le

/-! ## Whole expressions -/

theorem exists_finish_closed (tokens : List Token) : ∃ t ∈ closed tokens, t.kind = .finish := by
  obtain ⟨t, rest, hk, hclosed⟩ := closed_eq tokens
  exact ⟨t, by simp [hclosed], hk⟩

/-- The ceiling is no less than the calls of any moment, so a reader with that depth does not use
it up. -/
theorem comes_of_callCeiling (hend : ∃ t ∈ tokens, t.kind = .finish) {depth : Nat}
    (hdepth : g.callCeiling ≤ depth) : Comes g tokens .begin (g.wholeWithin depth tokens) :=
  comes_of_wholeWithin hend fun _ hrun => (Fits.run hrun).active_le.trans hdepth

/-- Nothing bounds the calls of the machine, and it comes to what the tokens read as. -/
theorem comes_whole (g : Grammar) (tokens : List Token) :
    Comes g (closed tokens) .begin (g.whole tokens) := by
  have hend := exists_finish_closed tokens
  have hwhole : g.wholeWithin (max g.callCeiling (ampleDepth (closed tokens))) (closed tokens) =
      g.whole tokens := by
    have hample : 5 * (closed tokens).length + 5 ≤ ampleDepth (closed tokens) := by
      simp only [ampleDepth]
      omega
    -- beyond the ample depth nothing depends on it
    rw [whole, ← wholeWithin_append hend hample (hample.trans (Nat.le_max_right _ _)),
      List.append_nil]
  rw [← hwhole]
  exact comes_of_callCeiling hend (Nat.le_max_left _ _)

/-- Where more calls are active than the depth allows, the parser fails with that. -/
theorem parseWithin_of_lt {depth : Nat} (hrun : Run g (closed tokens) .begin m)
    (hactive : depth < m.active) : g.parseWithin depth tokens = .error tooDeep := by
  have hdeep := (wholeWithin_eq_tooDeep_iff (exists_finish_closed tokens)).2 ⟨m, hrun, hactive⟩
  rw [parseWithin_eq_whole, hdeep]
  rfl

/-- Where there are no more of them, it does what it does without a bound. -/
theorem parseWithin_of_le {depth : Nat}
    (h : ∀ m, Run g (closed tokens) .begin m → m.active ≤ depth) :
    g.parseWithin depth tokens = g.parse tokens := by
  have hcomes := comes_of_wholeWithin (exists_finish_closed tokens) h
  rw [parseWithin_eq_whole, hcomes.unique (comes_whole g tokens), parse_eq_whole]

/-! ## Operators that bind more and more tightly -/

/-- Operators each of which binds more tightly than the one before it, and the first at least as
tightly as the floor. -/
def Rising (g : Grammar) : Int → List Token → Prop
  | _, [] => True
  | floor, t :: ts =>
    ∃ o, g.registry.InfixToken t o ∧ floor ≤ o.precedence ∧ g.Rising (o.precedence + 1) ts

/-- A name before each operator, and the name of a function behind them. -/
def rising (name function : Token) : List Token → List Token
  | [] => [function]
  | t :: ts => name :: t :: rising name function ts

section Rising

variable {t name function : Token} {index nesting : Nat} {floor : Int} {waiting : List Waiting}

theorem run_operand (ht : tokens[index]? = some t) (hk : t.kind ≠ .operator) :
    Run g tokens ⟨.enter (.binary floor), nesting, index, waiting⟩
      ⟨.enter .primary, nesting, index, .unary :: .left floor :: waiting⟩ := by
  have hunary : Turn g tokens ⟨.enter .unary, nesting, index, .left floor :: waiting⟩
      ⟨.enter .primary, nesting, index, .unary :: .left floor :: waiting⟩ :=
    ⟨ht, by simp [Moment.next, Moment.enter, Cursor.peek, hk, Except.map]⟩
  exact .tail (.single ⟨ht, rfl⟩) hunary

theorem run_name (ht : tokens[index]? = some t) (hk : t.kind = .identifier) {t' : Token}
    (ht' : tokens[index + 1]? = some t') :
    Run g tokens ⟨.enter (.binary floor), nesting, index, waiting⟩
      ⟨.tail floor (.var t.value t.position), nesting, index + 1, waiting⟩ := by
  have hname : Turn g tokens ⟨.enter .primary, nesting, index, .unary :: .left floor :: waiting⟩
      ⟨.back (.var t.value t.position), nesting, index + 1, .unary :: .left floor :: waiting⟩ :=
    ⟨ht, by simp [Moment.next, Moment.enter, Cursor.peek, Cursor.advance, Cursor.atEnd, hk,
      Except.map]⟩
  exact .tail (.tail (.tail (run_operand ht (by simp [hk])) hname) ⟨ht', rfl⟩) ⟨ht', rfl⟩

/-- Each of the operators costs one call, and none of them begins a level of nesting. -/
theorem run_rising (hname : name.kind = .identifier) (hfunction : function.kind = .function)
    {more : List Token} : ∀ {ts : List Token} {floor : Int} {index : Nat} {waiting : List Waiting},
    g.Rising floor ts → tokens.drop index = rising name function ts ++ more →
    ∃ m, Run g tokens ⟨.enter (.binary floor), nesting, index, waiting⟩ m ∧ m.nesting = nesting ∧
      m.active = waiting.length + ts.length + 4
  | [], floor, index, waiting, _, hdrop => by
    have ht : tokens[index]? = some function := by rw [← List.head?_drop, hdrop]; rfl
    have hcall : Turn g tokens
        ⟨.enter .primary, nesting, index, .unary :: .left floor :: waiting⟩
        ⟨.enter .call, nesting, index, .primary :: .unary :: .left floor :: waiting⟩ :=
      ⟨ht, by simp [Moment.next, Moment.enter, Cursor.peek, hfunction, Except.map]⟩
    exact ⟨_, .tail (run_operand ht (by simp [hfunction])) hcall, rfl, rfl⟩
  | t :: ts, floor, index, waiting, ⟨o, ho, hfloor, hrising⟩, hdrop => by
    have ht : tokens[index]? = some name := by rw [← List.head?_drop, hdrop]; rfl
    have hdrop' : tokens.drop (index + 1) = t :: (rising name function ts ++ more) := by
      rw [← List.drop_drop, hdrop]; rfl
    have ht' : tokens[index + 1]? = some t := by rw [← List.head?_drop, hdrop']; rfl
    have hrest : tokens.drop (index + 2) = rising name function ts ++ more := by
      rw [← List.drop_drop, hdrop]; rfl
    have hright : Turn g tokens
        ⟨.tail floor (.var name.value name.position), nesting, index + 1, waiting⟩
        ⟨.enter (.binary (o.precedence + 1)), nesting, index + 2,
          .right floor (.var name.value name.position) o t.position :: waiting⟩ := by
      refine ⟨ht', ?_⟩
      have hinfix : g.infixAt ⟨index + 1, [t]⟩ = some o := infixAt_eq_some.2 ho
      simp [Moment.next, hinfix, Int.not_lt.2 hfloor, Cursor.peek, Cursor.advance, Cursor.atEnd,
        ho.1]
    obtain ⟨m, hrun, hnesting, hactive⟩ := run_rising hname hfunction hrising hrest
    refine ⟨m, ((run_name ht hname ht').tail hright).trans hrun, hnesting, ?_⟩
    simp only [List.length_cons] at hactive ⊢
    omega

/-- **The bound is attained,** at no level of nesting, by operators that bind more and more
tightly. -/
theorem exists_run_rising (hname : name.kind = .identifier) (hfunction : function.kind = .function)
    {ts : List Token} (h : g.Rising 1 ts) :
    ∃ m, Run g (closed (rising name function ts)) .begin m ∧ m.nesting = 0 ∧
      m.active = 5 * (0 + 1) + ts.length := by
  obtain ⟨more, hmore⟩ := closed_eq_append (rising name function ts)
  obtain ⟨first, hfirst, hk⟩ : ∃ t : Token, (closed (rising name function ts))[0]? = some t ∧
      t.kind ≠ .finish := by
    rw [hmore]
    cases ts with
    | nil => exact ⟨function, rfl, by simp [hfunction]⟩
    | cons => exact ⟨name, rfl, by simp [hname]⟩
  have hbegin : Turn g (closed (rising name function ts)) .begin ⟨.enter .expression, 0, 0, []⟩ :=
    ⟨hfirst, by simp [Moment.next, Moment.begin, Cursor.atEnd, Cursor.peek, hk]⟩
  have hexpression : Turn g (closed (rising name function ts)) ⟨.enter .expression, 0, 0, []⟩
      ⟨.enter (.binary 1), 0, 0, [.expression]⟩ := ⟨hfirst, rfl⟩
  obtain ⟨m, hrun, hnesting, hactive⟩ := run_rising hname hfunction h
    (List.drop_zero.trans hmore)
  refine ⟨m, (hrun.head hexpression).head hbegin, hnesting, ?_⟩
  simp only [List.length_singleton] at hactive
  omega

end Rising

/-! ## The cost of a level -/

/-- **What a level of nesting costs.** At every moment at most five calls are active for each level
of nesting, and one more for each right operand that is read; of these there are no more than
precedences for each level. Cut off at a depth, the parser does what it does without a bound, just
if there are no more calls than that at any moment, and so at the depth that follows from the
limit on nesting. Operators that bind more and more tightly need five calls, and one for each of
them, at no level of nesting. -/
theorem parse_callDepth (g : Grammar) :
    (∀ tokens m, Run g (closed tokens) .begin m →
      m.active ≤ 5 * (m.nesting + 1) + rights m.waiting ∧
      rights m.waiting ≤ g.registry.precedences.card * (m.nesting + 1) ∧
      (m.nesting : Int) ≤ g.limits.maxNestingDepth) ∧
    (∀ tokens depth,
      (∀ m, Run g (closed tokens) .begin m → m.active ≤ depth) ∧
        g.parseWithin depth tokens = g.parse tokens ∨
      (∃ m, Run g (closed tokens) .begin m ∧ depth < m.active) ∧
        g.parseWithin depth tokens = .error tooDeep) ∧
    (∀ tokens depth, g.callCeiling ≤ depth → g.parseWithin depth tokens = g.parse tokens) ∧
    ∀ ts name function, g.Rising 1 ts → name.kind = .identifier → function.kind = .function →
      ∃ m, Run g (closed (rising name function ts)) .begin m ∧ m.nesting = 0 ∧
        m.active = 5 * (0 + 1) + ts.length := by
  refine ⟨fun tokens m hrun => ?_, fun tokens depth => ?_, fun tokens depth hdepth => ?_,
    fun ts name function h hname hfunction => exists_run_rising hname hfunction h⟩
  · have hfits := Fits.run hrun
    exact ⟨hfits.le.1, hfits.le.2, hfits.nesting_le⟩
  · by_cases h : ∃ m, Run g (closed tokens) .begin m ∧ depth < m.active
    · obtain ⟨m, hrun, hactive⟩ := h
      exact .inr ⟨⟨m, hrun, hactive⟩, parseWithin_of_lt hrun hactive⟩
    · have hle : ∀ m, Run g (closed tokens) .begin m → m.active ≤ depth :=
        fun m hrun => Nat.not_lt.1 fun hactive => h ⟨m, hrun, hactive⟩
      exact .inl ⟨hle, parseWithin_of_le hle⟩
  · exact parseWithin_of_le fun m hrun => (Fits.run hrun).active_le.trans hdepth

/-- Seven calls at no level of nesting, two of them for right operands; and four hundred and
fifty-five calls for any tokens. -/
theorem parse_callDepth_rising :
    let g : Grammar := ⟨.standard, .standard, none⟩
    let tokens := rising ⟨.identifier, "x", 0⟩ ⟨.function, "MAX", 0⟩
      [⟨.operator, "+", 0⟩, ⟨.operator, "*", 0⟩]
    (∃ m, Run g (closed tokens) .begin m ∧ m.nesting = 0 ∧ m.active = 7 ∧ rights m.waiting = 2) ∧
      g.callCeiling = 455 ∧ g.parseWithin 455 tokens = g.parse tokens := by
  intro g tokens
  obtain ⟨hbounds, -, hparse, hrising⟩ := parse_callDepth g
  have hceiling : g.callCeiling = 455 := by decide +kernel
  have hoperators : g.Rising 1 [⟨.operator, "+", 0⟩, ⟨.operator, "*", 0⟩] :=
    ⟨_, ⟨rfl, rfl, rfl⟩, by decide, _, ⟨rfl, rfl, rfl⟩, by decide, trivial⟩
  obtain ⟨m, hrun, hnesting, hactive⟩ := hrising _ ⟨.identifier, "x", 0⟩
    ⟨.function, "MAX", 0⟩ hoperators rfl rfl
  obtain ⟨hle, hrights, -⟩ := hbounds tokens m hrun
  have hcard : g.registry.precedences.card = 2 := by decide +kernel
  have hactive : m.active = 7 := hactive
  rw [hnesting] at hle
  rw [hnesting, hcard] at hrights
  exact ⟨⟨m, hrun, hnesting, hactive, by omega⟩, hceiling,
    hparse tokens 455 (Nat.le_of_eq hceiling)⟩

/-- A product behind a sum in the arguments of a function, where one level of nesting is allowed:
more than ten calls are active, and cut off at ten the parser fails where it should not. -/
theorem callDepth_exceeds_product :
    let g : Grammar := ⟨.standard, { maxNestingDepth := 1 }, some "MAX(x+y*z)"⟩
    let tokens : List Token := [⟨.function, "MAX", 0⟩, ⟨.leftParen, "(", 3⟩, ⟨.identifier, "x", 4⟩,
      ⟨.operator, "+", 5⟩, ⟨.identifier, "y", 6⟩, ⟨.operator, "*", 7⟩, ⟨.identifier, "z", 8⟩,
      ⟨.rightParen, ")", 9⟩, ⟨.finish, "", 10⟩]
    g.registry.Reached ∧ tokenize "MAX(x+y*z)" g.registry g.limits = .ok tokens ∧
      (∃ m, Run g (closed tokens) .begin m ∧ 5 * (m.nesting + 1) < m.active) ∧
      g.parseWithin (5 * (1 + 1)) tokens = .error tooDeep ∧ ∃ t, g.parse tokens = .ok t := by
  intro g tokens
  have hdeep : g.wholeWithin (5 * (1 + 1)) (closed tokens) = .error tooDeep := rfl
  obtain ⟨m, hrun, hactive⟩ := (wholeWithin_eq_tooDeep_iff (exists_finish_closed tokens)).1 hdeep
  have hnesting : (m.nesting : Int) ≤ 1 := (Fits.run hrun).nesting_le
  exact ⟨Registry.standard_reached, rfl, ⟨m, hrun, by omega⟩, parseWithin_of_lt hrun hactive,
    exists_of_isOk (show (g.parse tokens).isOk = true by decide +kernel)⟩

end Grammar

end Reckon
