/-
What the reader fails with where every token by itself can be read: a limit is
exceeded, or the grammar is broken at one of the tokens (`Grammar.whole_refused`).
The depth of calls is never used up, no number is unreadable, and no function
unknown. The texts that a problem names are values of tokens.

A token is blamed for a reason (`Registry.Blames`): it leads nowhere from where
the tokens before it lead, or it names a function that does not take the
arguments of its call.

As for what is accepted, the statement is one for each of the five functions,
by induction on the depth of calls (`Grammar.Refusing`). Each function is told
how many tokens its depth is ample for, and begins where an operand is expected,
whatever is open around it.
-/
import Reckon.Proofs.Diagnostic
import Reckon.Proofs.Grammar.Parsing
import Reckon.Proofs.Grammar.Viable

namespace Reckon

/-- The texts that the problem names are values of the tokens, and it is not that a function is
unknown. -/
structure GrammarProblem.About (problem : GrammarProblem) (ts : List Token) : Prop where
  known : ∀ name, problem ≠ .unknownFunction name
  texts : ∀ text ∈ problem.texts, ∃ t ∈ ts, t.value = text

namespace GrammarProblem.About

variable {problem : GrammarProblem} {ts ts' : List Token}

theorem plain (h : problem.texts = []) : problem.About ts where
  known := by
    rintro name rfl
    cases h
  texts := by simp [h]

theorem named {t : Token} (ht : t ∈ ts) (h : problem.texts = [t.value])
    (hknown : ∀ name, problem ≠ .unknownFunction name) : problem.About ts where
  known := hknown
  texts := by simpa [h] using ⟨t, ht, rfl⟩

theorem mono (h : problem.About ts) (hts : ∀ t ∈ ts, t ∈ ts') : problem.About ts' where
  known := h.known
  texts := fun text htext =>
    let ⟨t, ht, hvalue⟩ := h.texts text htext
    ⟨t, hts t ht, hvalue⟩

end GrammarProblem.About

/-- The problem is that a function does not take so many arguments. -/
def GrammarProblem.IsCount : GrammarProblem → Prop
  | argumentCount .. => True
  | _ => False

/-! ## Reasons -/

namespace Registry

/-- Why a token is wrong, when the tokens before it begin at an outlook. -/
inductive Blames (r : Registry) (p : Outlook) (before : List Token) (t : Token)
    (rest : List Token) : GrammarProblem → Prop
  /-- It leads nowhere from there; if it is the end, something is missing before it. -/
  | stuck {q problem} : r.Runs p before q → (∀ q', ¬ r.Step q t q') →
      (t.kind = .finish → q ≠ .final) → ¬ problem.IsCount → Blames r p before t rest problem
  /-- It begins a call of a function that does not take so many arguments. -/
  | rejected {o a args b more} : Derives r .primary (.call t o a args b) →
      t :: rest = (Derivation.call t o a args b).tokens ++ more →
      o.accepts args.exprs.length = false →
      Blames r p before t rest (.argumentCount o.name o.operandCount args.exprs.length)

variable {r : Registry} {p q : Outlook} {before ts rest : List Token} {t : Token}

theorem Blames.behind {problem : GrammarProblem} (hruns : r.Runs p ts q)
    (h : r.Blames q before t rest problem) : r.Blames p (ts ++ before) t rest problem := by
  cases h with
  | stuck hbefore hstuck hend hcount => exact .stuck (hruns.append hbefore) hstuck hend hcount
  | rejected hcall htokens haccepts => exact .rejected hcall htokens haccepts

theorem Step.ne_finish (h : r.Step p t q) : t.kind ≠ .finish := by
  cases h <;> simp_all [InfixToken, FunctionToken]

/-- For a token that does not close a call it does not matter whether one could. -/
theorem Step.orClose {b : Bool} {opened : List Bracket} (h : r.Step ⟨.operand b, opened⟩ t q)
    (hk : t.kind ≠ .rightParen) (b' : Bool) : r.Step ⟨.operand b', opened⟩ t q := by
  cases h with
  | number hk hx => exact .number hk hx
  | name hk => exact .name hk
  | sign hk hv => exact .sign hk hv
  | group hk => exact .group hk
  | function hf => exact .function hf
  | noArguments hclose => exact absurd hclose hk

/-- An operand begins with none of these tokens, but with a sign. -/
theorem not_step_operand (r : Registry) {t : Token} (opened : List Bracket)
    (hk : t.kind ∈ [TokenKind.finish, .operator, .rightParen, .comma])
    (hminus : ¬ (t.kind = .operator ∧ t.value = Operation.negation.name)) :
    ∀ q, ¬ r.Step ⟨.operand false, opened⟩ t q := by
  intro q h
  cases h with
  | number hk' | name hk' | group hk' => simp [hk'] at hk
  | function hf => simp [hf.1] at hk
  | sign hk' hv => exact hminus ⟨hk', hv⟩

/-- Behind a whole expression a token leads nowhere that closes nothing and separates nothing. -/
theorem StopsAt.not_step (hr : r.Reached) (hs : r.StopsAt 1 (t :: rest)) (opened : List Bracket)
    (hclose : ∀ bracket below, opened = bracket :: below → t.kind ≠ .rightParen)
    (hcomma : ∀ below, opened = .call :: below → t.kind ≠ .comma) :
    ∀ q, ¬ r.Step ⟨.operator, opened⟩ t q := by
  intro q h
  cases h with
  | operator ht =>
    have hlow := hs t rfl _ ht
    have hpositive := hr.one_le_of_infixToken ht
    omega
  | comma hk => exact hcomma _ rfl hk
  | close hk => exact hclose _ _ rfl hk

end Registry

namespace Grammar

variable {g : Grammar} {p q : Outlook}

/-- There is an end among the tokens, their numerals are numbers, and their names of functions are
registered. -/
structure Readable (g : Grammar) (ts : List Token) : Prop where
  ends : ∃ t ∈ ts, t.kind = .finish
  number : ∀ t ∈ ts, t.kind = .number → (Decimal.read? t.value).isSome
  function : ∀ t ∈ ts, t.kind = .function → ∃ o, g.registry.FunctionToken t o

theorem Readable.of_append {xs ts : List Token} (h : g.Readable (xs ++ ts))
    (hxs : ∀ t ∈ xs, t.kind ≠ .finish) : g.Readable ts where
  ends := by
    obtain ⟨t, ht, hk⟩ := h.ends
    rcases List.mem_append.1 ht with ht | ht
    · exact absurd hk (hxs t ht)
    · exact ⟨t, ht, hk⟩
  number := fun t ht => h.number t (List.mem_append_right _ ht)
  function := fun t ht => h.function t (List.mem_append_right _ ht)

/-- The token at the cursor is one of the list. -/
theorem Readable.rest_eq {c : Cursor} (h : g.Readable c.rest) :
    ∃ ts, c.rest = c.peek :: ts := by
  obtain ⟨index, rest⟩ := c
  cases rest with
  | nil => simpa using h.ends
  | cons t ts => exact ⟨ts, rfl⟩

theorem Readable.peek_mem {c : Cursor} (h : g.Readable c.rest) : c.peek ∈ c.rest := by
  obtain ⟨ts, hts⟩ := h.rest_eq
  exact hts ▸ List.mem_cons_self

theorem Readable.advance {c : Cursor} (h : g.Readable c.rest) (hk : c.peek.kind ≠ .finish) :
    g.Readable c.advance.rest := by
  have hrest : c.rest = [c.peek] ++ c.advance.rest := (Cursor.rest_eq_cons hk).1
  exact Readable.of_append (hrest ▸ h) (by simpa using hk)

theorem Readable.after {c after : Cursor} {s es} (h : g.Readable c.rest)
    (hd : g.Derived s c es after) : g.Readable after.rest := by
  obtain ⟨d, hd, _, _, hrest, _⟩ := hd
  exact Readable.of_append (hrest ▸ h) hd.kind_ne_finish

/-- What the reader fails with from a place on, when it begins at an outlook: a limit, or a problem
at a token from there on. -/
inductive Refused (g : Grammar) (p : Outlook) (c : Cursor) : Failure → Prop
  | limit {limit bound actual} :
      Refused g p c (.diagnostic { cause := .limitExceeded limit bound actual })
  | problem {before t rest problem} : c.rest = before ++ t :: rest → problem.About c.rest →
      g.registry.Blames p before t rest problem →
      Refused g p c (.diagnostic {
        cause := .grammar problem (some (c.index + before.length : Nat))
        position := some t.position
        source := g.source })

/-- The token at the cursor is to blame. -/
theorem Refused.here {c : Cursor} {problem : GrammarProblem} {ts : List Token}
    (hts : c.rest = c.peek :: ts) (hp : problem.About c.rest)
    (hblames : g.registry.Blames p [] c.peek ts problem) :
    g.Refused p c (g.problemAt c problem) := by
  have hbefore : c.rest = [] ++ c.peek :: ts := hts
  exact .problem hbefore hp hblames

/-- The token at the cursor leads nowhere. -/
theorem Refused.stuck {c : Cursor} {problem : GrammarProblem} (h : g.Readable c.rest)
    (hp : problem.About c.rest) (hcount : ¬ problem.IsCount)
    (hstuck : ∀ q, ¬ g.registry.Step p c.peek q) (hend : c.peek.kind = .finish → p ≠ .final) :
    g.Refused p c (g.problemAt c problem) := by
  obtain ⟨ts, hts⟩ := h.rest_eq
  exact .here hts hp (.stuck .nil hstuck hend hcount)

/-- Behind an expression the token at the cursor is wrong if nothing that is open takes it. -/
theorem Refused.stops (hr : g.registry.Reached) {c : Cursor} {problem : GrammarProblem}
    (h : g.Readable c.rest) (hp : problem.About c.rest) (hcount : ¬ problem.IsCount)
    (hs : g.registry.StopsAt 1 c.rest) {opened : List Bracket}
    (hclose : ∀ bracket below, opened = bracket :: below → c.peek.kind ≠ .rightParen)
    (hcomma : ∀ below, opened = .call :: below → c.peek.kind ≠ .comma)
    (hend : c.peek.kind = .finish → opened ≠ []) :
    g.Refused ⟨.operator, opened⟩ c (g.problemAt c problem) := by
  obtain ⟨ts, hts⟩ := h.rest_eq
  rw [hts] at hs
  exact .stuck h hp hcount (hs.not_step hr opened hclose hcomma)
    fun hk hfinal => hend hk (congrArg Outlook.opened hfinal)

/-- What is wrong behind some tokens is wrong from before them on. -/
theorem Refused.behind {c after : Cursor} {ts : List Token} {f : Failure}
    (hrest : c.rest = ts ++ after.rest) (hindex : after.index = c.index + ts.length)
    (hruns : g.registry.Runs p ts q) (h : g.Refused q after f) : g.Refused p c f := by
  cases h with
  | limit => exact .limit
  | @problem before t rest problem hbefore hp hblames =>
    rw [hindex, Nat.add_assoc, ← List.length_append]
    exact .problem (by rw [hrest, hbefore, List.append_assoc])
      (hp.mono fun t ht => hrest ▸ List.mem_append_right _ ht) (hblames.behind hruns)

theorem Refused.advance {c : Cursor} {f : Failure} (hstep : g.registry.Step p c.peek q)
    (h : g.Refused q c.advance f) : g.Refused p c f := by
  obtain ⟨hrest, hindex⟩ := Cursor.rest_eq_cons hstep.ne_finish
  have hfirst : c.rest = [c.peek] ++ c.advance.rest := hrest
  exact h.behind hfirst hindex hstep.runs

/-- A function without a parenthesis: what is wrong is the token after its name. -/
theorem Refused.notOpened {c : Cursor} {o : Operation} {opened : List Bracket}
    (hf : g.registry.FunctionToken c.peek o) (hc : g.Readable c.rest)
    (hopen : c.advance.peek.kind ≠ .leftParen) :
    g.Refused ⟨.operand false, opened⟩ c
      (g.problemAt c.advance (.callWithoutOpen c.peek.value)) := by
  have hk : c.peek.kind ≠ .finish := by simp [hf.1]
  obtain ⟨hrest, hindex⟩ := Cursor.rest_eq_cons hk
  obtain ⟨ts, hts⟩ := (hc.advance hk).rest_eq
  have hfirst : c.rest = [c.peek] ++ c.advance.peek :: ts := by
    rw [hrest, hts]
    rfl
  have hstuck (q : Outlook) : ¬ g.registry.Step ⟨.opening, opened⟩ c.advance.peek q := by
    intro hstep
    cases hstep with
    | call hleft => exact hopen hleft
  rw [problemAt, hindex]
  -- the problem names the function, which is not among the tokens from the problem on
  exact .problem hfirst (.named hc.peek_mem rfl (by simp))
    (.stuck (Registry.Step.function hf).runs hstuck (fun _ => nofun) id)

/-- Where an operand has been read, an operator is expected. -/
theorem Refused.after {c after : Cursor} {s es} {f : Failure} {orClose : Bool}
    {opened : List Bracket} (hd : g.Derived s c es after) (hs : s.Single)
    (h : g.Refused ⟨.operator, opened⟩ after f) : g.Refused ⟨.operand orClose, opened⟩ c f := by
  obtain ⟨d, hd, _, _, hrest, hindex⟩ := hd
  exact h.behind hrest hindex (hd.runs_single hs orClose opened)

/-- What is wrong with an operand is wrong with a first argument. -/
theorem Refused.orClose {c : Cursor} {f : Failure} {opened : List Bracket}
    (hk : c.peek.kind ≠ .rightParen) (h : g.Refused ⟨.operand false, opened⟩ c f) :
    g.Refused ⟨.operand true, opened⟩ c f := by
  cases h with
  | limit => exact .limit
  | @problem before t rest problem hrest hp hblames =>
    refine .problem hrest hp ?_
    cases hblames with
    | rejected hcall htokens haccepts => exact .rejected hcall htokens haccepts
    | stuck hruns hstuck hend hcount =>
      rw [Cursor.peek, hrest] at hk
      cases hruns with
      | nil =>
        refine .stuck .nil (fun q' h => ?_) (fun _ h => by cases h) hcount
        exact hstuck q' (h.orClose hk false)
      | cons hstep hruns => exact .stuck (.cons (hstep.orClose hk true) hruns) hstuck hend hcount

theorem refused_of_check {c : Cursor} {limit : String} {bound actual : Int} {f : Failure}
    (h : check (Limits.check limit bound actual) = .error f) : g.Refused p c f := by
  obtain ⟨_, rfl⟩ := check_eq_error.1 h
  exact .limit

theorem expect_eq_error {c : Cursor} {k : TokenKind} {problem : GrammarProblem} {f : Failure}
    (h : g.expect c k problem = .error f) : c.peek.kind ≠ k ∧ f = g.problemAt c problem := by
  unfold expect at h
  split at h
  · cases h
  · next hk => exact ⟨by simpa using hk, (Except.error.inj h).symm⟩

theorem Derived.length_le {c after : Cursor} {s es} (h : g.Derived s c es after) :
    after.rest.length ≤ c.rest.length := by
  obtain ⟨d, _, _, _, hrest, _⟩ := h
  simp [hrest]

theorem Derived.length_lt {c after : Cursor} {s es} (h : g.Derived s c es after) (hs : s.Single) :
    after.rest.length < c.rest.length := by
  obtain ⟨d, hd, _, _, hrest, _⟩ := h
  have := hd.length_pos hs
  rw [hrest, List.length_append]
  omega

theorem length_advance {c : Cursor} (hk : c.peek.kind ≠ .finish) :
    c.advance.rest.length + 1 = c.rest.length :=
  Cursor.length_rest_advance (by simpa [Cursor.atEnd] using hk)

/-! ## The loops -/

theorem infixTail_refused (hr : g.registry.Reached) {operand : Int → Cursor → Reading}
    {bound : Nat} {opened : List Bracket}
    (hok : ∀ {p c e after}, operand p c = .ok (e, after) → g.LevelRead p c e after)
    (herror : ∀ {p c f}, g.Readable c.rest → c.rest.length < bound → operand p c = .error f →
      g.Refused ⟨.operand false, opened⟩ c f) {floor : Int} {f : Failure} :
    ∀ {count left c}, g.Readable c.rest → c.rest.length ≤ bound →
      infixTail g operand floor count left c = .error f → g.Refused ⟨.operator, opened⟩ c f
  | 0, _, _, _, _, h => by cases h
  | count + 1, left, c, hc, hlength, h => by
    simp only [infixTail] at h
    split at h
    · cases h
    next o ho =>
    split at h
    · cases h
    have ht := infixAt_eq_some.1 ho
    have hk : c.peek.kind ≠ .finish := by simp [ht.1]
    have hnext := hc.advance hk
    have hshort := length_advance hk
    simp only [checkInfix_eq_ok.2 (hr.accepts_infix ht), bind_eq_error] at h
    rcases h with h | ⟨⟨right, after⟩, hright, h | ⟨_, _, h⟩⟩
    · exact (herror hnext (by omega) h).advance (.operator ht)
    · cases h
    · have hread := (hok hright).1
      have := hread.length_le
      have htail := infixTail_refused hr hok herror (hnext.after hread) (by omega) h
      exact (htail.after hread trivial).advance (.operator ht)

section Arguments

variable {argument : Cursor → Reading} {bound : Nat} {opened : List Bracket}
  (hok : ∀ {c e after}, argument c = .ok (e, after) → g.LevelRead 1 c e after)

section Ends

include hok

/-- Behind the last argument there is no comma, and no operator either. -/
theorem argumentTail_ends : ∀ {count c es after}, c.rest.length ≤ count →
    g.registry.StopsAt 1 c.rest → argumentTail argument count c = .ok (es, after) →
    after.peek.kind ≠ .comma ∧ g.registry.StopsAt 1 after.rest
  | 0, c, es, after, hcount, hs, h => by
    obtain ⟨-, rfl⟩ := Prod.mk.inj (Except.ok.inj h)
    have hnil := List.eq_nil_of_length_eq_zero (Nat.le_zero.1 hcount)
    exact ⟨by simp [Cursor.peek, hnil, Token.finish], hs⟩
  | count + 1, c, es, after, hcount, hs, h => by
    simp only [argumentTail] at h
    split at h
    · next hcomma =>
      have hshort := length_advance (c := c) (by simp_all)
      simp only [bind_eq_ok, pure_eq_ok, Prod.mk.injEq] at h
      obtain ⟨⟨first, next⟩, hfirst, ⟨others, last⟩, hothers, _, rfl⟩ := h
      obtain ⟨hread, hstop⟩ := hok hfirst
      have := hread.length_le
      exact argumentTail_ends (by omega) hstop hothers
    · next hcomma =>
      obtain ⟨-, rfl⟩ := Prod.mk.inj (Except.ok.inj h)
      exact ⟨by simpa using hcomma, hs⟩

/-- If no parenthesis closes the arguments there are some, and what is behind them is no comma and
no operator. -/
theorem arguments_ends {c es after} (h : arguments argument c = .ok (es, after))
    (hclose : after.peek.kind ≠ .rightParen) : after.rest.length < c.rest.length ∧
      after.peek.kind ≠ .comma ∧ g.registry.StopsAt 1 after.rest := by
  unfold arguments at h
  split at h
  · next hclosed =>
    obtain ⟨-, rfl⟩ := Prod.mk.inj (Except.ok.inj h)
    exact absurd (by simpa using hclosed) hclose
  · simp only [bind_eq_ok, pure_eq_ok, Prod.mk.injEq] at h
    obtain ⟨⟨first, next⟩, hfirst, ⟨others, last⟩, hothers, _, rfl⟩ := h
    obtain ⟨hread, hstop⟩ := hok hfirst
    have hlt := hread.length_lt trivial
    have hle := (argumentTail_sound (fun h => (hok h).1) hothers).length_le
    exact ⟨Nat.lt_of_le_of_lt hle hlt, argumentTail_ends hok (Nat.le_refl _) hstop hothers⟩

/-- A call that is not closed. -/
theorem arguments_unclosed (hr : g.registry.Reached) {c es after} (hc : g.Readable c.rest)
    (h : arguments argument c = .ok (es, after)) (hclose : after.peek.kind ≠ .rightParen)
    {problem : GrammarProblem} (hp : problem.texts = []) (hcount : ¬ problem.IsCount) :
    g.Refused ⟨.operand true, .call :: opened⟩ c (g.problemAt after problem) := by
  obtain ⟨hlt, hcomma, hstop⟩ := arguments_ends hok h hclose
  have hread := arguments_sound (fun h => (hok h).1) h
  have hafter := hc.after hread
  obtain ⟨d, hd, _, _, hrest, hindex⟩ := hread
  rcases hd.runs with hnil | hruns
  · simp [hrest, hnil] at hlt
  · refine Refused.behind hrest hindex (hruns opened) ?_
    exact .stops hr hafter (.plain hp) hcount hstop (fun _ _ _ => hclose) (fun _ _ => hcomma)
      fun _ => nofun

end Ends

variable (herror : ∀ {c f}, g.Readable c.rest → c.rest.length ≤ bound → argument c = .error f →
    g.Refused ⟨.operand false, .call :: opened⟩ c f)

include hok herror

theorem argumentTail_refused {f : Failure} : ∀ {count c}, g.Readable c.rest →
    c.rest.length ≤ bound → argumentTail argument count c = .error f →
    g.Refused ⟨.operator, .call :: opened⟩ c f
  | 0, _, _, _, h => by cases h
  | count + 1, c, hc, hlength, h => by
    simp only [argumentTail] at h
    split at h
    · next hcomma =>
      have hcomma : c.peek.kind = .comma := by simpa using hcomma
      have hk : c.peek.kind ≠ .finish := by simp [hcomma]
      have hnext := hc.advance hk
      have hshort := length_advance hk
      simp only [bind_eq_error] at h
      rcases h with h | ⟨⟨first, after⟩, hfirst, h | ⟨_, _, h⟩⟩
      · exact (herror hnext (by omega) h).advance (.comma hcomma)
      · have hread := (hok hfirst).1
        have := hread.length_le
        have htail := argumentTail_refused (hnext.after hread) (by dsimp only at *; omega) h
        exact (htail.after hread trivial).advance (.comma hcomma)
      · cases h
    · cases h

theorem arguments_refused {c f} (hc : g.Readable c.rest) (hlength : c.rest.length ≤ bound)
    (h : arguments argument c = .error f) : g.Refused ⟨.operand true, .call :: opened⟩ c f := by
  unfold arguments at h
  split at h
  · cases h
  next hclose =>
  have hclose : c.peek.kind ≠ .rightParen := by simpa using hclose
  simp only [bind_eq_error] at h
  rcases h with h | ⟨⟨first, after⟩, hfirst, h | ⟨_, _, h⟩⟩
  · exact (herror hc hlength h).orClose hclose
  · have hread := (hok hfirst).1
    have := hread.length_le
    have htail := argumentTail_refused hok herror (hc.after hread) (by dsimp only at *; omega) h
    exact htail.after hread trivial
  · cases h

end Arguments

/-! ## The five functions -/

/-- What each function of the reader fails with, for as many tokens as its depth is ample for. -/
structure Refusing (g : Grammar) (depth : Nat) : Prop where
  expression : ∀ {nesting c f opened}, g.Readable c.rest → 5 * c.rest.length + 5 ≤ depth →
    expression g depth nesting c = .error f → g.Refused ⟨.operand false, opened⟩ c f
  binary : ∀ {nesting floor c f opened}, g.Readable c.rest → 5 * c.rest.length + 4 ≤ depth →
    binary g depth nesting floor c = .error f → g.Refused ⟨.operand false, opened⟩ c f
  unary : ∀ {nesting c f opened}, g.Readable c.rest → 5 * c.rest.length + 3 ≤ depth →
    unary g depth nesting c = .error f → g.Refused ⟨.operand false, opened⟩ c f
  primary : ∀ {nesting c f opened}, g.Readable c.rest → 5 * c.rest.length + 2 ≤ depth →
    ¬ (c.peek.kind = .operator ∧ c.peek.value = Operation.negation.name) →
    primary g depth nesting c = .error f → g.Refused ⟨.operand false, opened⟩ c f
  call : ∀ {nesting c f opened}, g.Readable c.rest → 5 * c.rest.length + 1 ≤ depth →
    c.peek.kind = .function → call g depth nesting c = .error f →
    g.Refused ⟨.operand false, opened⟩ c f

variable {depth nesting : Nat} {c : Cursor} {f : Failure} {opened : List Bracket}

theorem Refusing.succ_binary (hr : g.registry.Reached) (ih : g.Refusing depth) {floor : Int}
    (hc : g.Readable c.rest) (hdepth : 5 * c.rest.length + 4 ≤ depth + 1)
    (h : Grammar.binary g (depth + 1) nesting floor c = .error f) :
    g.Refused ⟨.operand false, opened⟩ c f := by
  simp only [Grammar.binary, bind_eq_error] at h
  rcases h with h | ⟨⟨left, after⟩, hleft, h⟩
  · exact ih.unary hc (by omega) h
  · have hread := (sound g depth).unary hleft
    have hlt := hread.length_lt trivial
    refine Refused.after hread trivial ?_
    exact infixTail_refused hr (sound g depth).binary
      (fun hc hlength h => ih.binary hc (by omega) h) (hc.after hread) (Nat.le_refl _) h

theorem Refusing.succ_unary (ih : g.Refusing depth) (hc : g.Readable c.rest)
    (hdepth : 5 * c.rest.length + 3 ≤ depth + 1)
    (h : Grammar.unary g (depth + 1) nesting c = .error f) :
    g.Refused ⟨.operand false, opened⟩ c f := by
  simp only [Grammar.unary, Bool.and_eq_true, beq_iff_eq] at h
  split at h
  · next hminus =>
    have hk : c.peek.kind ≠ .finish := by simp [hminus.1]
    have hshort := length_advance hk
    simp only [bind_eq_error] at h
    rcases h with h | ⟨_, _, h | ⟨_, _, h⟩⟩
    · exact refused_of_check h
    · exact (ih.unary (hc.advance hk) (by omega) h).advance (.sign hminus.1 hminus.2)
    · cases h
  · next hminus => exact ih.primary hc (by omega) hminus h

theorem Refusing.succ_primary (hr : g.registry.Reached) (ih : g.Refusing depth)
    (hc : g.Readable c.rest) (hdepth : 5 * c.rest.length + 2 ≤ depth + 1)
    (hminus : ¬ (c.peek.kind = .operator ∧ c.peek.value = Operation.negation.name))
    (h : Grammar.primary g (depth + 1) nesting c = .error f) :
    g.Refused ⟨.operand false, opened⟩ c f := by
  simp only [Grammar.primary] at h
  split at h
  · next hk =>
    obtain ⟨x, hx⟩ := Option.isSome_iff_exists.1 (hc.number _ hc.peek_mem hk)
    simp [numberOf, hx, bind, Except.bind, pure, Except.pure] at h
  · cases h
  · next hk => exact ih.call hc (by omega) hk h
  · next hopen =>
    have hk : c.peek.kind ≠ .finish := by simp [hopen]
    have hnext := hc.advance hk
    have hshort := length_advance hk
    simp only [bind_eq_error] at h
    rcases h with h | ⟨_, _, h | ⟨⟨inner, after⟩, hinner, h | ⟨_, _, h⟩⟩⟩
    · exact refused_of_check h
    · exact (ih.expression hnext (by omega) h).advance (.group hopen)
    · obtain ⟨hread, hstop⟩ := (sound g depth).expression hinner
      obtain ⟨hclose, rfl⟩ := expect_eq_error h
      refine (Refused.after hread trivial ?_).advance (.group hopen)
      exact .stops hr (hnext.after hread) (.plain rfl) id hstop (fun _ _ _ => hclose)
        (fun _ h => by cases h) fun _ h => by cases h
    · cases h
  all_goals
    next hk =>
    obtain rfl := Except.error.inj h
    have hstuck := g.registry.not_step_operand opened (by simp [hk]) hminus
    refine .stuck hc ?_ id hstuck fun _ h => by cases h
    first | exact .plain rfl | exact .named hc.peek_mem rfl (by simp)

theorem Refusing.succ_call (hr : g.registry.Reached) (ih : g.Refusing depth)
    (hc : g.Readable c.rest) (hdepth : 5 * c.rest.length + 1 ≤ depth + 1)
    (hfunction : c.peek.kind = .function)
    (h : Grammar.call g (depth + 1) nesting c = .error f) :
    g.Refused ⟨.operand false, opened⟩ c f := by
  have hk : c.peek.kind ≠ .finish := by simp [hfunction]
  have hnext := hc.advance hk
  have hshort := length_advance hk
  simp only [Grammar.call] at h
  split at h
  · next hnone =>
    obtain ⟨o, ho⟩ := hc.function _ hc.peek_mem hfunction
    rw [(function_eq_some hfunction).2 ho] at hnone
    cases hnone
  next o ho =>
  have hf := (function_eq_some hfunction).1 ho
  have hname : o.name = c.peek.value := Registry.name_of_get? hf.2.1
  rw [bind_eq_error] at h
  rcases h with h | ⟨_, hopened, h⟩
  · obtain ⟨hopen, rfl⟩ := expect_eq_error h
    exact .notOpened hf hc hopen
  obtain ⟨hopen, rfl⟩ := expect_eq_ok hopened
  have hk' : c.advance.peek.kind ≠ .finish := by simp [hopen]
  have hnext' := hnext.advance hk'
  have hshort' := length_advance hk'
  have hinside {f : Failure}
      (h : g.Refused ⟨.operand true, .call :: opened⟩ c.advance.advance f) :
      g.Refused ⟨.operand false, opened⟩ c f :=
    (h.advance (.call hopen)).advance (.function hf)
  rw [bind_eq_error] at h
  rcases h with h | ⟨_, _, h⟩
  · exact refused_of_check h
  rw [bind_eq_error] at h
  rcases h with h | ⟨⟨operands, after⟩, hargs, h⟩
  · exact hinside (arguments_refused (sound g depth).expression
      (fun hc hlength h => ih.expression hc (by omega) h) hnext' (Nat.le_refl _) h)
  have hread := arguments_sound (fun {_ _ _} h => ((sound g depth).expression h).1) hargs
  simp only [bind_eq_error] at h
  rcases h with h | ⟨close, hclosed, h | ⟨_, _, h⟩⟩
  · obtain ⟨hclose, rfl⟩ := expect_eq_error h
    exact hinside (arguments_unclosed (sound g depth).expression hr hnext' hargs hclose rfl id)
  · exact refused_of_check h
  · split at h
    · cases h
    next haccepts =>
    obtain rfl := Except.error.inj h
    obtain ⟨hclose, rfl⟩ := expect_eq_ok hclosed
    obtain ⟨args, hcall, _, rfl, hrest, _⟩ := Derived.call hf hopen hread hclose
    obtain ⟨ts, hts⟩ := hc.rest_eq
    exact .here hts (.named hc.peek_mem (by rw [← hname]; rfl) (by simp))
      (.rejected hcall (hts ▸ hrest) (by simpa using haccepts))

theorem refusing (g : Grammar) (hr : g.registry.Reached) : ∀ depth, g.Refusing depth
  | 0 => by constructor <;> intros <;> omega
  | depth + 1 => by
    have ih := refusing g hr depth
    refine ⟨?_, ih.succ_binary hr, ih.succ_unary, ih.succ_primary hr, ih.succ_call hr⟩
    intro nesting c f opened hc hdepth h
    exact ih.binary hc (by omega) (by simpa [Grammar.expression] using h)

/-! ## Whole expressions -/

/-- **On readable tokens the reader fails at a limit or at a token.** -/
theorem whole_refused (hr : g.registry.Reached) {tokens : List Token}
    (hreadable : g.Readable (closed tokens))
    (h : g.whole tokens = .error f) : g.Refused .start ⟨0, closed tokens⟩ f := by
  simp only [whole, wholeWithin] at h
  split at h
  · next hend =>
    obtain rfl := Except.error.inj h
    refine .stuck hreadable (.plain rfl) id (fun q hstep => ?_) fun _ h => by cases h
    exact hstep.ne_finish (by simpa [Cursor.atEnd] using hend)
  rw [bind_eq_error] at h
  rcases h with h | ⟨⟨e, after⟩, hread, h⟩
  · refine (refusing g hr _).expression (c := ⟨0, closed tokens⟩) hreadable ?_ h
    simp only [ampleDepth]
    omega
  · obtain ⟨hderived, hstop⟩ := (sound g _).expression hread
    have hafter := hreadable.after (c := ⟨0, closed tokens⟩) hderived
    dsimp only at h
    split at h
    · cases h
    next hend =>
    have hend : after.peek.kind ≠ .finish := fun hk => hend (by simpa [Cursor.atEnd] using hk)
    -- nothing is open, so only an operator could go on
    have hstops {problem : GrammarProblem} (hp : problem.About after.rest)
        (hcount : ¬ problem.IsCount) : g.Refused .final after (g.problemAt after problem) :=
      .stops hr hafter hp hcount hstop (fun _ _ h => by cases h) (fun _ h => by cases h)
        fun hk => absurd hk hend
    split at h <;> obtain rfl := Except.error.inj h
    · exact (hstops (.plain rfl) id).after hderived trivial
    · exact (hstops (.named hafter.peek_mem rfl (by simp)) id).after hderived trivial

end Grammar

end Reckon
