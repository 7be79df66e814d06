/-
What can be gone on with to a sentence (`Registry.exists_sentence_iff`), and what
is a sentence already (`Registry.sentence_iff`).

To go on, no derivation need be known: what is expected next and what is open
around it (`Outlook`) tell which tokens may follow, and each token leads to the
next outlook (`Registry.Step`). Precedences have no part in it.

Whatever is derived runs from an operand that is expected to an operator that is
(`Derives.runs`). The other way round, the tokens that have run to an outlook are
cut up into what each open bracket has before it and the operand that is not
complete (`Registry.Reaches`); an operator goes on with whatever is to its left
(`Derives.operator`), so such tokens can be completed.
-/
import Reckon.Proofs.Grammar.Soundness
import Reckon.Proofs.Registry.Reached

namespace Reckon

/-! ## Outlooks -/

/-- What an open parenthesis belongs to. -/
inductive Bracket where
  | group
  | call

/-- What can come next: an operand, or also the end of a call that has no arguments, the
parenthesis of a call, or an operator or the end of what is open. -/
inductive Expected where
  | operand (orClose : Bool)
  | opening
  | operator

/-- What can come next, and the brackets that are open, from the inside out. -/
structure Outlook where
  expected : Expected
  opened : List Bracket

namespace Outlook

/-- Nothing is there yet. -/
def start : Outlook := ⟨.operand false, []⟩

/-- Nothing is open and nothing is missing. -/
def final : Outlook := ⟨.operator, []⟩

end Outlook

namespace Registry

/-- A token leads from one outlook to the next. -/
inductive Step (r : Registry) : Outlook → Token → Outlook → Prop
  | number {orClose opened t x} : t.kind = .number → Decimal.read? t.value = some x →
      Step r ⟨.operand orClose, opened⟩ t ⟨.operator, opened⟩
  | name {orClose opened t} : t.kind = .identifier →
      Step r ⟨.operand orClose, opened⟩ t ⟨.operator, opened⟩
  | sign {orClose opened t} : t.kind = .operator → t.value = Operation.negation.name →
      Step r ⟨.operand orClose, opened⟩ t ⟨.operand false, opened⟩
  | group {orClose opened t} : t.kind = .leftParen →
      Step r ⟨.operand orClose, opened⟩ t ⟨.operand false, .group :: opened⟩
  | function {orClose opened t o} : r.FunctionToken t o →
      Step r ⟨.operand orClose, opened⟩ t ⟨.opening, opened⟩
  | call {opened t} : t.kind = .leftParen →
      Step r ⟨.opening, opened⟩ t ⟨.operand true, .call :: opened⟩
  | noArguments {opened t} : t.kind = .rightParen →
      Step r ⟨.operand true, .call :: opened⟩ t ⟨.operator, opened⟩
  | operator {opened t o} : r.InfixToken t o →
      Step r ⟨.operator, opened⟩ t ⟨.operand false, opened⟩
  | comma {opened t} : t.kind = .comma →
      Step r ⟨.operator, .call :: opened⟩ t ⟨.operand false, .call :: opened⟩
  | close {bracket opened t} : t.kind = .rightParen →
      Step r ⟨.operator, bracket :: opened⟩ t ⟨.operator, opened⟩

/-- Tokens lead from one outlook to another, step by step. -/
inductive Runs (r : Registry) : Outlook → List Token → Outlook → Prop
  | nil {p} : Runs r p [] p
  | cons {p t q ts p'} : r.Step p t q → Runs r q ts p' → Runs r p (t :: ts) p'

variable {r : Registry} {p p' q q' : Outlook} {t : Token} {ts ts' : List Token}

theorem Step.unique (h : r.Step p t q) (h' : r.Step p t q') : q = q' := by
  cases h <;> cases h' <;> simp_all [InfixToken, FunctionToken]

theorem Step.runs (h : r.Step p t q) : r.Runs p [t] q := .cons h .nil

theorem Runs.append (h : r.Runs p ts q) (h' : r.Runs q ts' q') : r.Runs p (ts ++ ts') q' := by
  induction h with
  | nil => exact h'
  | cons hstep _ ih => exact .cons hstep (ih h')

/-- What leads through some tokens leads to a place between them. -/
theorem Runs.split : ∀ {ts : List Token} {p}, r.Runs p (ts ++ ts') q →
    ∃ p', r.Runs p ts p' ∧ r.Runs p' ts' q
  | [], p, h => ⟨p, .nil, h⟩
  | t :: ts, _, h => by
    cases h with
    | cons hstep hrest =>
      obtain ⟨p', hruns, hruns'⟩ := Runs.split hrest
      exact ⟨p', .cons hstep hruns, hruns'⟩

theorem Runs.unique (h : r.Runs p ts q) (h' : r.Runs p ts q') : q = q' := by
  induction h with
  | nil =>
    cases h'
    rfl
  | cons hstep _ ih =>
    cases h' with
    | cons hstep' hrest =>
      obtain rfl := hstep.unique hstep'
      exact ih hrest

/-! ## Derivations run -/

/-- How the tokens of a symbol run, whatever is open around them. -/
def Running (r : Registry) : Symbol → List Token → Prop
  | .level _, ts | .unary, ts | .primary, ts =>
    ∀ orClose opened, r.Runs ⟨.operand orClose, opened⟩ ts ⟨.operator, opened⟩
  | .arguments, ts => ts = [] ∨
    ∀ opened, r.Runs ⟨.operand true, .call :: opened⟩ ts ⟨.operator, .call :: opened⟩
  | .furtherArguments, ts =>
    ∀ opened, r.Runs ⟨.operator, .call :: opened⟩ ts ⟨.operator, .call :: opened⟩

/-- Arguments run to the parenthesis that closes their call, and through it. -/
theorem Running.close {b : Token} (h : r.Running .arguments ts) (hb : b.kind = .rightParen)
    (opened : List Bracket) :
    r.Runs ⟨.operand true, .call :: opened⟩ (ts ++ [b]) ⟨.operator, opened⟩ := by
  rcases h with rfl | h
  · exact (Step.noArguments hb).runs
  · exact (h opened).append (Step.close hb).runs

end Registry

open Registry (Step Runs)

/-- **What the grammar derives runs**, from where an operand is expected to where an operator is. -/
theorem Derives.runs {r : Registry} {s d} (h : Derives r s d) : r.Running s d.tokens := by
  induction h with
  | operand _ ih | plain _ ih => exact ih
  | binary _ ht _ _ ihl ihr =>
    exact fun orClose opened =>
      (ihl orClose opened).append (.cons (.operator ht) (ihr false opened))
  | negation hk hv _ ih => exact fun _ opened => .cons (.sign hk hv) (ih false opened)
  | number hk hx => exact fun _ _ => (Step.number hk hx).runs
  | name hk => exact fun _ _ => (Step.name hk).runs
  | group ha _ hb ih =>
    exact fun _ opened => .cons (.group ha) ((ih false _).append (Step.close hb).runs)
  | call hf ha _ hb ih =>
    exact fun _ opened => .cons (.function hf) (.cons (.call ha) (ih.close hb opened))
  | noArguments => exact .inl rfl
  | arguments _ _ ihd ihr => exact .inr fun opened => (ihd true _).append (ihr opened)
  | noFurther => exact fun _ => .nil
  | further hc _ _ ihd ihr =>
    exact fun opened => .cons (.comma hc) ((ihd false _).append (ihr opened))

theorem Derives.runs_single {r : Registry} {s d} (h : Derives r s d) (hs : s.Single)
    (orClose : Bool) (opened : List Bracket) :
    r.Runs ⟨.operand orClose, opened⟩ d.tokens ⟨.operator, opened⟩ := by
  cases s with
  | level | unary | primary => exact h.runs orClose opened
  | arguments | furtherArguments => exact hs.elim

/-! ## Operands that are not complete -/

/-- An operator with an operand to its right goes on with an expression, wherever in it the left
operand is that the precedence finds. -/
theorem Derives.operator {r : Registry} {t o} (ht : r.InfixToken t o) {u}
    (hu : Derives r .unary u) : ∀ {d p}, Derives r (.level p) d → p ≤ o.precedence →
      ∃ d', Derives r (.level p) d' ∧ d'.tokens = d.tokens ++ t :: u.tokens
  | _, p, .operand (u := left) hleft, hp =>
    ⟨.binary (.operand left) t o (.operand u), .binary (.operand hleft) ht hp (.operand hu), rfl⟩
  | _, p, .binary (o := top) hl ht' hp' hright, hp => by
    by_cases htop : o.precedence ≤ top.precedence
    · -- all that is there is the left operand
      exact ⟨_, .binary (.binary hl ht' htop hright) ht hp (.operand hu), rfl⟩
    · obtain ⟨right', hright', htokens⟩ := Derives.operator ht hu hright (by omega)
      exact ⟨_, .binary hl ht' hp' hright', by simp [Derivation.tokens, htokens]⟩

namespace Registry

variable {r : Registry}

/-- An operand behind these tokens makes them an expression. -/
def Leading (r : Registry) (ts : List Token) : Prop :=
  ∀ u, Derives r .unary u → ∃ d, Derives r (.level 1) d ∧ d.tokens = ts ++ u.tokens

theorem leading_nil : r.Leading [] := fun u hu => ⟨.operand u, .operand hu, rfl⟩

theorem Leading.sign {ts : List Token} {t : Token} (h : r.Leading ts) (hk : t.kind = .operator)
    (hv : t.value = Operation.negation.name) : r.Leading (ts ++ [t]) := by
  intro u hu
  obtain ⟨d, hd, htokens⟩ := h _ (.negation hk hv hu)
  exact ⟨d, hd, by simp [htokens, Derivation.tokens]⟩

theorem Leading.primary {ts : List Token} (h : r.Leading ts) {p : Derivation}
    (hp : Derives r .primary p) : ∃ d, Derives r (.level 1) d ∧ d.tokens = ts ++ p.tokens :=
  h (.plain p) (.plain hp)

/-- An expression, and behind it maybe others, make arguments of these tokens. -/
def Listing (r : Registry) (ts : List Token) : Prop :=
  ∀ d more, Derives r (.level 1) d → Derives r .furtherArguments more →
    ∃ args, Derives r .arguments args ∧ args.tokens = ts ++ (d.tokens ++ more.tokens)

theorem listing_nil : r.Listing [] := fun d more hd hm => ⟨.arguments d more, .arguments hd hm, rfl⟩

theorem Listing.comma {ts : List Token} {d : Derivation} {t : Token} (h : r.Listing ts)
    (hd : Derives r (.level 1) d) (hk : t.kind = .comma) : r.Listing (ts ++ d.tokens ++ [t]) := by
  intro d' more hd' hm
  obtain ⟨args, hargs, htokens⟩ := h d _ hd (.further hk hd' hm)
  exact ⟨args, hargs, by simp [htokens, Derivation.tokens]⟩

/-- The tokens before an expression that is not complete, among these open brackets. -/
inductive Enclosed (r : Registry) : List Bracket → List Token → Prop
  | nil : Enclosed r [] []
  | group {opened before ts a} : Enclosed r opened before → r.Leading ts → a.kind = .leftParen →
      Enclosed r (.group :: opened) (before ++ ts ++ [a])
  | call {opened before ts t o a listed} : Enclosed r opened before → r.Leading ts →
      r.FunctionToken t o → a.kind = .leftParen → r.Listing listed →
      Enclosed r (.call :: opened) (before ++ ts ++ t :: a :: listed)

/-- What the tokens are that have led to an outlook. -/
inductive Reaches (r : Registry) : Outlook → List Token → Prop
  | operand {opened before ts} : Enclosed r opened before → r.Leading ts →
      Reaches r ⟨.operand false, opened⟩ (before ++ ts)
  | opening {opened before ts t o} : Enclosed r opened before → r.Leading ts →
      r.FunctionToken t o → Reaches r ⟨.opening, opened⟩ (before ++ ts ++ [t])
  | arguments {opened before ts t o a} : Enclosed r opened before → r.Leading ts →
      r.FunctionToken t o → a.kind = .leftParen →
      Reaches r ⟨.operand true, .call :: opened⟩ (before ++ ts ++ [t, a])
  | operator {opened before d} : Enclosed r opened before → Derives r (.level 1) d →
      Reaches r ⟨.operator, opened⟩ (before ++ d.tokens)

theorem reaches_start : r.Reaches .start [] := .operand .nil leading_nil

/-- The operand that is expected is one behind some tokens in the innermost bracket. -/
theorem Reaches.leading {orClose : Bool} {opened : List Bracket} {ts : List Token}
    (h : r.Reaches ⟨.operand orClose, opened⟩ ts) :
    ∃ before rest, r.Enclosed opened before ∧ r.Leading rest ∧ ts = before ++ rest := by
  cases h with
  | operand hbefore hleading => exact ⟨_, _, hbefore, hleading, rfl⟩
  | arguments hbefore hleading hf ha =>
    exact ⟨_, [], .call hbefore hleading hf ha listing_nil, leading_nil, by simp⟩

theorem Reaches.primary {opened : List Bracket} {before ts : List Token}
    (hbefore : r.Enclosed opened before) (hleading : r.Leading ts) {p : Derivation}
    (hp : Derives r .primary p) : r.Reaches ⟨.operator, opened⟩ (before ++ ts ++ p.tokens) := by
  obtain ⟨d, hd, htokens⟩ := hleading.primary hp
  rw [List.append_assoc, ← htokens]
  exact .operator hbefore hd

theorem Reached.one_le_of_infixToken (hr : r.Reached) {t : Token} {o : Operation}
    (ht : r.InfixToken t o) : 1 ≤ o.precedence :=
  hr.one_le_precedence ht.2.1 ht.2.2

variable (hr : r.Reached)

include hr

/-- One more token leads on. -/
theorem Step.reaches {p q : Outlook} {t : Token} {ts : List Token} (hstep : r.Step p t q)
    (h : r.Reaches p ts) : r.Reaches q (ts ++ [t]) := by
  cases hstep with
  | number hk hx =>
    obtain ⟨_, _, hbefore, hleading, rfl⟩ := h.leading
    exact .primary hbefore hleading (.number hk hx)
  | name hk =>
    obtain ⟨_, _, hbefore, hleading, rfl⟩ := h.leading
    exact .primary hbefore hleading (.name hk)
  | sign hk hv =>
    obtain ⟨_, _, hbefore, hleading, rfl⟩ := h.leading
    rw [List.append_assoc]
    exact .operand hbefore (hleading.sign hk hv)
  | group hk =>
    obtain ⟨_, _, hbefore, hleading, rfl⟩ := h.leading
    simpa using Reaches.operand (.group hbefore hleading hk) leading_nil
  | function hf =>
    obtain ⟨_, _, hbefore, hleading, rfl⟩ := h.leading
    exact .opening hbefore hleading hf
  | call hk =>
    cases h with
    | opening hbefore hleading hf => simpa using Reaches.arguments hbefore hleading hf hk
  | noArguments hk =>
    cases h with
    | arguments hbefore hleading hf ha =>
      simpa [Derivation.tokens] using Reaches.primary hbefore hleading (.call hf ha .noArguments hk)
  | operator ht =>
    cases h with
    | @operator _ _ d hbefore hd =>
      have hleading : r.Leading (d.tokens ++ [_]) := fun u hu => by
        simpa using Derives.operator ht hu hd (hr.one_le_of_infixToken ht)
      simpa using Reaches.operand hbefore hleading
  | comma hk =>
    cases h with
    | operator hbefore hd =>
      cases hbefore with
      | call hbefore hleading hf ha hlisting =>
        have hlisting' := hlisting.comma hd hk
        simpa using Reaches.operand (.call hbefore hleading hf ha hlisting') leading_nil
  | close hk =>
    cases h with
    | operator hbefore hd =>
      cases hbefore with
      | group hbefore hleading ha =>
        simpa [Derivation.tokens] using Reaches.primary hbefore hleading (.group ha hd hk)
      | call hbefore hleading hf ha hlisting =>
        obtain ⟨args, hargs, htokens⟩ := hlisting _ _ hd .noFurther
        simpa [Derivation.tokens, htokens] using
          Reaches.primary hbefore hleading (.call hf ha hargs hk)

theorem Runs.reaches {p q : Outlook} {ts ts' : List Token} (hruns : r.Runs p ts' q)
    (h : r.Reaches p ts) : r.Reaches q (ts ++ ts') := by
  induction hruns generalizing ts with
  | nil => rwa [List.append_nil]
  | cons hstep _ ih => simpa using ih (hstep.reaches hr h)

omit hr

/-! ## Sentences -/

/-- The tokens are a sentence of the grammar, whatever the arguments of its calls. -/
def Sentence (r : Registry) (ts : List Token) : Prop :=
  ∃ d, Derives r (.level 1) d ∧ d.tokens = ts

/-- Whatever is open can be closed. -/
theorem exists_runs_closing (r : Registry) : ∀ opened : List Bracket,
    ∃ ts, r.Runs ⟨.operator, opened⟩ ts .final
  | [] => ⟨[], .nil⟩
  | _ :: opened =>
    let ⟨ts, h⟩ := exists_runs_closing r opened
    ⟨⟨.rightParen, ")", 0⟩ :: ts, .cons (.close rfl) h⟩

/-- From every outlook some tokens lead to the end. -/
theorem exists_runs_final (r : Registry) : ∀ p : Outlook, ∃ ts, r.Runs p ts .final
  | ⟨.operand _, opened⟩ =>
    let ⟨ts, h⟩ := exists_runs_closing r opened
    ⟨⟨.identifier, "x", 0⟩ :: ts, .cons (.name rfl) h⟩
  | ⟨.opening, opened⟩ =>
    let ⟨ts, h⟩ := exists_runs_closing r opened
    ⟨⟨.leftParen, "(", 0⟩ :: ⟨.rightParen, ")", 0⟩ :: ts,
      .cons (.call rfl) (.cons (.noArguments rfl) h)⟩
  | ⟨.operator, opened⟩ => exists_runs_closing r opened

theorem Sentence.runs {ts : List Token} (h : r.Sentence ts) : r.Runs .start ts .final := by
  obtain ⟨d, hd, rfl⟩ := h
  exact hd.runs false []

include hr

/-- **Sentences are what runs from the start to the end.** -/
theorem sentence_iff {ts : List Token} : r.Sentence ts ↔ r.Runs .start ts .final := by
  refine ⟨Sentence.runs, fun h => ?_⟩
  have hreaches := h.reaches hr reaches_start
  rw [List.nil_append] at hreaches
  generalize hp : Outlook.final = p at hreaches
  cases hreaches with
  | operator hbefore hd =>
    obtain rfl := congrArg Outlook.opened hp
    cases hbefore with
    | nil => exact ⟨_, hd, rfl⟩
  | operand | opening | arguments => cases congrArg Outlook.expected hp

/-- **Tokens begin a sentence just if they run.** -/
theorem exists_sentence_iff {ts : List Token} :
    (∃ rest, r.Sentence (ts ++ rest)) ↔ ∃ q, r.Runs .start ts q := by
  constructor
  · rintro ⟨rest, h⟩
    obtain ⟨q, hruns, _⟩ := h.runs.split
    exact ⟨q, hruns⟩
  · rintro ⟨q, hruns⟩
    obtain ⟨rest, hrest⟩ := exists_runs_final r q
    exact ⟨rest, (sentence_iff hr).2 (hruns.append hrest)⟩

end Registry

end Reckon
