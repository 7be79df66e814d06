/-
Dropping white space keeps the tokens of an expression (`Scanner.Scans.strip`).
It may put two runs next to each other, which would then be read as one; but in
an expression no two runs are neighbours (`Derives.apart`), and no other token
depends on the white space around it.

Where the source has white space after a run, its scan has the token at once,
and that of the stripped source still gathers: it will have the token when the
run is ended by what comes next, which is no run (`Scanner.Trails`).
-/
import Mathlib.Data.List.Chain
import Reckon.Proofs.Token.Embedding

namespace Reckon

/-- One of the two is no run. -/
def Token.Apart (t t' : Token) : Prop := t.kind.isRun = false ∨ t'.kind.isRun = false

/-! ## Expressions -/

theorem apart_cons {t : Token} {ts : List Token} (ht : t.kind.isRun = false)
    (h : ts.IsChain Token.Apart) : (t :: ts).IsChain Token.Apart := by
  cases h with
  | nil => exact .singleton t
  | singleton u => exact .cons_cons (.inl ht) (.singleton u)
  | cons_cons hu hus => exact .cons_cons (.inl ht) (.cons_cons hu hus)

/-- What begins with no run is apart from what is before it. -/
theorem apart_append {ts us : List Token} (h : ts.IsChain Token.Apart)
    (h' : us.IsChain Token.Apart) (hhead : ∀ u ∈ us.head?, u.kind.isRun = false) :
    (ts ++ us).IsChain Token.Apart :=
  List.isChain_append.2 ⟨h, h', fun _ _ u hu => .inr (hhead u hu)⟩

/-- Further arguments begin with a comma. -/
theorem Derives.head_furtherArguments {r : Registry} {d : Derivation}
    (h : Derives r .furtherArguments d) : ∀ t ∈ d.tokens.head?, t.kind.isRun = false := by
  cases h with
  | noFurther => simp [Derivation.tokens]
  | further hc => simp [Derivation.tokens, hc, TokenKind.isRun]

/-- **In an expression no two runs are neighbours.** -/
theorem Derives.apart {r : Registry} {s d} (h : Derives r s d) : d.tokens.IsChain Token.Apart := by
  have hfunction {t : Token} {us : List Token} (hus : us.IsChain Token.Apart)
      (hhead : ∀ u ∈ us.head?, u.kind.isRun = false) : (t :: us).IsChain Token.Apart :=
    apart_append (.singleton t) hus hhead
  induction h with
  | operand _ ih | plain _ ih => exact ih
  | binary _ ho _ _ ihl ihr =>
    have ht := show TokenKind.operator.isRun = false from rfl
    rw [← ho.1] at ht
    refine apart_append ihl (apart_cons ht ihr) ?_
    simpa using ht
  | negation hk _ _ ih => exact apart_cons (by rw [hk]; rfl) ih
  | number | name => exact .singleton _
  | group ha _ hb ih =>
    refine apart_cons (by rw [ha]; rfl) (apart_append ih (.singleton _) ?_)
    simp [hb, TokenKind.isRun]
  | call _ ha _ hb ih =>
    refine hfunction (apart_cons (by rw [ha]; rfl) (apart_append ih (.singleton _) ?_)) ?_
    · simp [hb, TokenKind.isRun]
    · simp [ha, TokenKind.isRun]
  | noArguments | noFurther => exact .nil
  | arguments _ hrest ihd ihr => exact apart_append ihd ihr hrest.head_furtherArguments
  | further hc _ hrest ihd ihr =>
    exact apart_cons (by rw [hc]; rfl) (apart_append ihd ihr hrest.head_furtherArguments)

namespace Scanner

variable {r : Registry}

/-! ## Runs -/

/-- A run that is open becomes a token. -/
theorem Flushed.head_of_run {s s' : State} {ts : List Token} (h : Flushed r s ts s')
    (hne : s.run ≠ []) (us : List Token) : ∃ t ∈ (ts ++ us).head?, t.kind.isRun = true := by
  cases h with
  | nothing hnil => exact absurd hnil hne
  | run _ _ hk => exact ⟨_, rfl, hk⟩

theorem Scans.head_of_run {s : State} {position : Nat} {cs : List Char} {ts : List Token}
    (h : Scans r s position cs ts) (hne : s.run ≠ []) : ∃ t ∈ ts.head?, t.kind.isRun = true := by
  induction h with
  | finish hflush | begin _ hflush | token _ hflush | space _ hflush =>
    exact hflush.head_of_run hne _
  | join _ _ ih => exact ih (by simp [State.gather])
  | skip _ _ ih => exact ih hne

/-! ## Two scans -/

/-- How the scan of the stripped source stands to that of the source, which goes on with `ts`: the
forms of the tokens that the source has had already. -/
inductive Trails (r : Registry) (s s' : State) (ts : List Token) :
    List (TokenKind × String) → Prop
  | even : Within [] s s' → Trails r s s' ts []
  /-- White space has ended the run of the source. -/
  | behind {k} : s.run = [] → Lexeme r s'.run k → k.isRun = true → s'.groups = s.groups →
      s.afterFunction = (k == .function) → (∀ t ∈ ts.head?, t.kind.isRun = false) →
      Trails r s s' ts [(k, String.ofList s'.run)]

section Within

variable {s s' : State} (h : Within [] s s')

include h

theorem Within.closed (k : TokenKind) (c : Char) (hnil : s.run = []) :
    Within [] (s.close k c) (s'.close k c) where
  run := h.run
  previous := fun hne => absurd hnil hne
  groups := by
    have hgroups := h.groups
    rw [List.append_nil] at hgroups
    simp [State.close, hgroups, h.afterFunction]
  afterFunction := rfl

theorem Within.groups_eq : s'.groups = s.groups := by
  rw [h.groups, List.append_nil]

end Within

section Trails

variable {s s' s₁ : State} {ts us : List Token} {forms : List (TokenKind × String)}

/-- Once both have ended their runs they are even. -/
theorem Trails.flushed (h : Trails r s s' us forms) (hflush : Flushed r s ts s₁) :
    ∃ ts' s₁', Flushed r s' ts' s₁' ∧ ts'.map Token.form = forms ++ ts.map Token.form ∧
      Within [] s₁ s₁' := by
  cases h with
  | even hwithin => exact hwithin.flushed hflush
  | behind hnil hlex hk hgroups hfunction _ =>
    cases hflush with
    | run hne => exact absurd hnil hne
    | nothing =>
      refine ⟨_, _, .run hlex.ne_nil hlex hk, rfl, ?_⟩
      exact ⟨hnil.symm, fun hne => absurd hnil hne, by simp [hgroups], hfunction.symm⟩

/-- White space ends the run of the source only. -/
theorem Trails.space (h : Trails r s s' (ts ++ us) forms) (hflush : Flushed r s ts s₁)
    (hapart : (ts ++ us).IsChain Token.Apart) (c : Char) :
    Trails r { s₁ with previous := some c } s' us (forms ++ ts.map Token.form) := by
  cases hflush with
  | nothing hnil =>
    rw [List.map_nil, List.append_nil]
    cases h with
    | even hwithin => exact .even { hwithin with previous := fun hne => absurd hnil hne }
    | behind _ hlex hk hgroups hfunction hhead =>
      exact .behind hnil hlex hk hgroups hfunction hhead
  | @run k hne hlex hk =>
    cases h with
    | behind hnil => exact absurd hnil hne
    | even hwithin =>
      have hhead : ∀ u ∈ us.head?, u.kind.isRun = false := by
        intro u hu
        have happly := (List.isChain_append.1 hapart).2.2 _ rfl u hu
        exact happly.resolve_left (by simp [hk])
      rw [← hwithin.run] at hlex
      simp only [List.nil_append, List.map_cons, List.map_nil, Token.form, ← hwithin.run]
      exact .behind rfl hlex hk hwithin.groups_eq rfl hhead

end Trails

/-- White space is all that goes. -/
theorem filter_cons_of_effect (hr : r.Reached) {s : State} {c : Char} {e : Effect}
    (he : effect r s c = e) (hne : e ≠ .space) (cs : List Char) :
    (c :: cs).filter (!isSpace ·) = c :: cs.filter (!isSpace ·) := by
  rw [← he, Ne, effect_eq_space_iff hr, Bool.not_eq_true] at hne
  simp [hne]

/-- **The stripped source is scanned to tokens of the same forms.** -/
theorem Scans.strip (hr : r.Reached) {s : State} {position : Nat} {cs : List Char}
    {ts : List Token} (h : Scans r s position cs ts) (hapart : ts.IsChain Token.Apart)
    {s' : State} {forms : List (TokenKind × String)} (htrails : Trails r s s' ts forms)
    (position' : Nat) :
    ∃ again, Scans r s' position' (cs.filter (!isSpace ·)) again ∧
      again.map Token.form = forms ++ ts.map Token.form := by
  induction h generalizing s' forms position' with
  | finish hflush =>
    obtain ⟨ts', s₁', hflush', hforms, _⟩ := htrails.flushed hflush
    exact ⟨_, .finish hflush', by simp [hforms, Token.form, Token.finish]⟩
  | @join s position c cs ts he hscans ih =>
    rw [filter_cons_of_effect hr he (by simp)]
    cases htrails with
    | even hwithin =>
      obtain ⟨again, hagain, hforms⟩ :=
        ih hapart (.even (hwithin.gather c position position')) (position' + 1)
      exact ⟨again, .join (by rw [hwithin.effect (by simp), he]) hagain, hforms⟩
    | behind _ _ _ _ _ hhead =>
      -- the source would go on with another run
      obtain ⟨t, ht, hk⟩ := hscans.head_of_run (by simp [State.gather])
      rw [hhead t ht] at hk
      cases hk
  | @begin s position c cs ts s₁ ts₁ he hflush hscans ih =>
    -- two runs would be neighbours
    cases hflush with
    | nothing hnil => exact absurd hnil (effect_eq_begin_iff.1 he).1
    | run _ _ hk =>
      obtain ⟨u, hu, hku⟩ := hscans.head_of_run (by simp [State.gather])
      have happly := (List.isChain_append.1 hapart).2.2 _ rfl u hu
      rcases happly with happly | happly
      · simp [hk] at happly
      · simp [hku] at happly
  | @skip s position c cs ts he _ ih =>
    rw [filter_cons_of_effect hr he (by simp)]
    obtain ⟨again, hagain, hforms⟩ := ih hapart htrails (position' + 1)
    have hgroups : s'.groups = s.groups := by
      cases htrails with
      | even hwithin => exact hwithin.groups_eq
      | behind _ _ _ hgroups => exact hgroups
    rw [effect_eq_skip_iff, ← hgroups] at he
    exact ⟨again, .skip (effect_eq_skip_iff.2 he) hagain, hforms⟩
  | @token s position c cs ts s₁ k ts₁ he hflush _ ih =>
    rw [filter_cons_of_effect hr he (by simp)]
    obtain ⟨ts', s₁', hflush', hforms', hwithin⟩ := htrails.flushed hflush
    obtain ⟨again, hagain, hforms⟩ :=
      ih (List.isChain_append.1 hapart).2.1.of_cons (.even (hwithin.closed k c hflush.run_eq_nil))
        (position' + 1)
    obtain ⟨hlex, hk⟩ := lexeme_of_effect he
    have he' : effect r s' c = .token k := by
      refine effect_of_lexeme hr hlex hk fun hcomma => ?_
      subst hcomma
      rw [← hflush'.groups, hwithin.groups_eq, hflush.groups]
      exact head?_of_comma he
    refine ⟨ts' ++ single k c position' :: again, .token he' hflush' hagain, ?_⟩
    simp [hforms, hforms', Token.form, single]
  | @space s position c cs ts s₁ ts₁ he hflush _ ih =>
    have hspace : (c :: cs).filter (!isSpace ·) = cs.filter (!isSpace ·) := by
      simp [(effect_eq_space_iff hr).1 he]
    obtain ⟨again, hagain, hforms⟩ :=
      ih (List.isChain_append.1 hapart).2.1 (htrails.space hflush hapart c) position'
    exact ⟨again, hspace ▸ hagain, by simp [hforms]⟩

/-- Every character of an expression has an effect. -/
theorem Scans.legal {s : State} {position : Nat} {cs : List Char} {ts : List Token}
    (h : Scans r s position cs ts) : ∀ c ∈ cs, ∃ s, effect r s c ≠ .illegal := by
  induction h with
  | finish => simp
  | join he _ ih | skip he _ ih | begin he _ _ ih | token he _ _ ih | space he _ _ ih =>
    exact List.forall_mem_cons.2 ⟨⟨_, he.trans_ne (by simp)⟩, ih⟩

end Scanner

/-! ## The standard registry -/

theorem le_of_isSpace {c : Char} (h : isSpace c = true) : c.toNat ≤ 32 := by
  simp only [isSpace, Bool.or_eq_true, decide_eq_true_eq] at h
  rcases h with ((rfl | rfl) | rfl) | rfl <;> decide

theorem Registry.symbol_of_standard {c : Char}
    (h : standard.isOperator (String.singleton c) = true) : c ∈ ['+', '-', '*', '/', '%'] := by
  have hnames : standard.operations.map (fun o => (o.name, o.isFunction)) =
      [("+", false), ("-", false), ("*", false), ("/", false), ("%", false), ("ABS", true),
        ("MIN", true), ("MAX", true), ("SUM", true), ("AVG", true)] := by decide +kernel
  unfold isOperator at h
  split at h
  · next o ho =>
    have hmem := List.mem_map_of_mem (f := fun o => (o.name, o.isFunction))
      (List.mem_of_find?_eq_some ho)
    rw [hnames, name_of_get? ho, (Bool.not_eq_eq_eq_not.1 h : o.isFunction = false)] at hmem
    simpa [← String.toList_inj] using hmem
  · cases h

/-- Of the characters of an expression white space is what leaves no mark. -/
theorem isUnprintable_eq_isSpace {s : Scanner.State} {c : Char}
    (h : Scanner.effect .standard s c ≠ .illegal) : Text.isUnprintable c = isSpace c := by
  have hmark (hlow : 33 ≤ c.toNat) (hhigh : c.toNat < 127) : Text.isUnprintable c = isSpace c := by
    have hspace : isSpace c = false := by
      rw [← Bool.not_eq_true]
      intro hspace
      have := le_of_isSpace hspace
      omega
    rw [Text.isUnprintable_of_mark ⟨hlow, hhigh⟩, hspace]
  rcases Scanner.effect_cases .standard s c with he | ⟨_, _, he⟩
  · generalize Scanner.effect .standard s c = e at he
    cases he with
    | digit hd =>
      rw [Text.isDigit_iff] at hd
      exact hmark (by omega) (by omega)
    | letter hl =>
      rw [Text.isLetter_iff] at hl
      exact hmark (by omega) (by omega)
    | point hc => exact hmark (by rw [hc]; decide) (by rw [hc]; decide)
  · generalize Scanner.effect .standard s c = e at he h
    cases he with
    | separator hc | skipped hc | leftParen hc | rightParen hc =>
      exact hmark (by rw [hc]; decide) (by rw [hc]; decide)
    | operator _ _ _ hop =>
      have hc := Registry.symbol_of_standard hop
      simp only [List.mem_cons, List.not_mem_nil, or_false] at hc
      rcases hc with rfl | rfl | rfl | rfl | rfl <;> exact hmark (by decide) (by decide)
    | space _ _ _ _ hspace =>
      have hle := le_of_isSpace hspace
      rw [Text.isUnprintable_eq (by omega), hspace, decide_eq_true hle]
    | illegal => exact absurd rfl h

/-- **Stripping keeps the tokens of a text in which no two runs are neighbours.** -/
theorem tokenize_strip {source : String} {limits : Limits} {tokens : List Token}
    (h : tokenize source .standard limits = .ok tokens) (hapart : tokens.IsChain Token.Apart) :
    ∃ again, tokenize (stripUnprintable source) .standard limits = .ok again ∧
      again.map Token.form = tokens.map Token.form := by
  have hscans := scans_of_tokenize h
  have hstrip : (stripUnprintable source).toList = source.toList.filter (!isSpace ·) := by
    rw [stripUnprintable, String.toList_ofList]
    refine List.filter_congr fun c hc => ?_
    obtain ⟨s, hs⟩ := hscans.legal c hc
    rw [isUnprintable_eq_isSpace hs]
  obtain ⟨again, hagain, hforms⟩ := hscans.strip Registry.standard_reached hapart
    (.even ⟨rfl, fun _ => rfl, rfl, rfl⟩) 0
  rw [← hstrip] at hagain
  have hlength : (stripUnprintable source).length ≤ source.length := by
    rw [← String.length_toList, ← String.length_toList, hstrip]
    exact List.length_filter_le _ _
  rw [tokenize, bind_eq_ok] at h
  obtain ⟨_, hcheck, _⟩ := h
  refine ⟨again, ?_, hforms⟩
  rw [tokenize, bind_eq_ok]
  exact ⟨(), Limits.checkLength_of_le hcheck hlength, Scanner.scan_eq_ok.2 hagain⟩

end Reckon
