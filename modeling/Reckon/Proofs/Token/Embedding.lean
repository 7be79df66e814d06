/-
A text in parentheses is scanned as it is by itself (`Scanner.Scans.embed`).
What the scanner has read before it shows in the innermost open parenthesis
only, and where the tokens of the text close no more parentheses than they open
that is never an older one than the one in front of the text.

Texts that are scanned alike wherever they stand can be put together
(`Scanner.Chunk`): a chunk begins and ends where no run is open.
-/
import Reckon.Proofs.Grammar.Derivation
import Reckon.Proofs.Token.RoundTrip

namespace Reckon

/-! ## Balance -/

/-- The count of open parentheses after tokens, unless one of them closes what is not open. -/
def openAfter (n : Nat) : List Token → Option Nat
  | [] => some n
  | t :: ts =>
    match t.kind with
    | .leftParen => openAfter (n + 1) ts
    | .rightParen => if n = 0 then none else openAfter (n - 1) ts
    | _ => openAfter n ts

theorem openAfter_leftParen {n : Nat} {t : Token} {ts : List Token} (h : t.kind = .leftParen) :
    openAfter n (t :: ts) = openAfter (n + 1) ts := by
  simp [openAfter, h]

theorem openAfter_rightParen {n : Nat} {t : Token} {ts : List Token} (h : t.kind = .rightParen) :
    openAfter (n + 1) (t :: ts) = openAfter n ts := by
  simp [openAfter, h]

theorem openAfter_of_ne {n : Nat} {t : Token} {ts : List Token} (hopen : t.kind ≠ .leftParen)
    (hclose : t.kind ≠ .rightParen) : openAfter n (t :: ts) = openAfter n ts := by
  rw [openAfter]
  split
  · exact absurd (by assumption) hopen
  · exact absurd (by assumption) hclose
  · rfl

/-- What is open is what has been opened and not closed. -/
theorem countP_of_openAfter : ∀ {ts : List Token} {n m : Nat}, openAfter n ts = some m →
    n + ts.countP (·.kind == .leftParen) = m + ts.countP (·.kind == .rightParen)
  | [], n, m, h => by
    obtain rfl := Option.some.inj h
    rfl
  | t :: ts, n, m, h => by
    rw [List.countP_cons, List.countP_cons]
    by_cases hopen : t.kind = .leftParen
    · rw [openAfter_leftParen hopen] at h
      have := countP_of_openAfter h
      simp [hopen]
      omega
    by_cases hclose : t.kind = .rightParen
    · simp only [openAfter, hclose] at h
      split at h
      · cases h
      · have := countP_of_openAfter h
        simp [hclose]
        omega
    · rw [openAfter_of_ne hopen hclose] at h
      simpa [hopen, hclose] using countP_of_openAfter h

/-- **A derivation closes what it opens, and nothing else.** -/
theorem Derives.openAfter {r : Registry} {s d} (h : Derives r s d) (n : Nat)
    (rest : List Token) : openAfter n (d.tokens ++ rest) = openAfter n rest := by
  induction h generalizing n rest with
  | operand _ ih | plain _ ih => exact ih n rest
  | binary _ ho _ _ ihl ihr =>
    rw [Derivation.tokens, List.append_assoc, ihl, List.cons_append,
      openAfter_of_ne (by simp [ho.1]) (by simp [ho.1]), ihr]
  | negation hk _ _ ih =>
    rw [Derivation.tokens, List.cons_append, openAfter_of_ne (by simp [hk]) (by simp [hk]), ih]
  | number hk | name hk =>
    exact openAfter_of_ne (by simp [hk]) (by simp [hk])
  | group ha _ hb ih =>
    rw [Derivation.tokens, List.cons_append, openAfter_leftParen ha, List.append_assoc, ih]
    exact openAfter_rightParen hb
  | call hf ha _ hb ih =>
    rw [Derivation.tokens, List.cons_append, openAfter_of_ne (by simp [hf.1]) (by simp [hf.1]),
      List.cons_append, openAfter_leftParen ha, List.append_assoc, ih]
    exact openAfter_rightParen hb
  | noArguments | noFurther => rfl
  | arguments _ _ ihd ihr => rw [Derivation.tokens, List.append_assoc, ihd, ihr]
  | further hc _ _ ihd ihr =>
    rw [Derivation.tokens, List.cons_append, openAfter_of_ne (by simp [hc]) (by simp [hc]),
      List.append_assoc, ihd, ihr]

namespace Scanner

variable {r : Registry}

/-! ## A text in parentheses -/

/-- The second state is as the first, but within more open parentheses. -/
structure Within (outer : List Bool) (s s' : State) : Prop where
  run : s'.run = s.run
  previous : s.run ≠ [] → s'.previous = s.previous
  groups : s'.groups = s.groups ++ outer
  afterFunction : s'.afterFunction = s.afterFunction

section Within

variable {outer : List Bool} {s s' : State}

theorem Within.continues (h : Within outer s s') (same : Char → Bool) :
    s'.continues same = s.continues same := by
  unfold State.continues
  rw [h.run]
  by_cases hnil : s.run = []
  · simp [hnil]
  · rw [h.previous hnil]

/-- Characters do the same where the text does not stand right among arguments. -/
theorem Within.effect (h : Within outer s s') (houter : outer.head? ≠ some true) (c : Char) :
    effect r s' c = effect r s c := by
  have hgroup : (s'.groups.head? == some true) = (s.groups.head? == some true) := by
    rw [h.groups]
    cases s.groups with
    | nil => simpa using houter
    | cons => rfl
  unfold Scanner.effect
  rw [h.continues, h.continues, hgroup]

theorem Within.gather (h : Within outer s s') (c : Char) (position position' : Nat) :
    Within outer (s.gather c position) (s'.gather c position') where
  run := by simp [State.gather, h.run]
  previous := fun _ => rfl
  groups := h.groups
  afterFunction := h.afterFunction

theorem Within.close (h : Within outer s s') {k : TokenKind} (c : Char) (hnil : s.run = [])
    (hgroups : k = .rightParen → s.groups ≠ []) : Within outer (s.close k c) (s'.close k c) where
  run := h.run
  previous := fun hne => absurd hnil hne
  groups := by
    simp only [State.close, h.groups, h.afterFunction]
    cases k with
    | rightParen => exact List.tail_append_of_ne_nil (hgroups rfl)
    | _ => rfl
  afterFunction := rfl

theorem Within.flushed (h : Within outer s s') {ts : List Token} {s₁ : State}
    (hflush : Flushed r s ts s₁) :
    ∃ ts' s₁', Flushed r s' ts' s₁' ∧ ts'.map Token.form = ts.map Token.form ∧
      Within outer s₁ s₁' := by
  cases hflush with
  | nothing hnil => exact ⟨[], s', .nothing (by rw [h.run, hnil]), rfl, h⟩
  | @run k hne hlex hk =>
    refine ⟨_, _, .run (k := k) (by rwa [h.run]) (by rwa [h.run]) hk, ?_,
      ⟨rfl, fun hne => absurd rfl hne, h.groups, rfl⟩⟩
    simp [Token.form, h.run]

end Within

theorem Flushed.openAfter {s s' : State} {ts : List Token} (h : Flushed r s ts s') (n : Nat)
    (rest : List Token) : openAfter n (ts ++ rest) = openAfter n rest := by
  cases h with
  | nothing => rfl
  | @run k _ _ hk =>
    refine openAfter_of_ne ?_ ?_ <;>
    · rintro rfl
      cases hk

/-- A token that is counted among the open parentheses is remembered among them. -/
theorem openAfter_close {s : State} {k : TokenKind} {c : Char} {position m : Nat}
    {ts : List Token} (h : openAfter s.groups.length (single k c position :: ts) = some m) :
    openAfter (s.close k c).groups.length ts = some m ∧ (k = .rightParen → s.groups ≠ []) := by
  cases k with
  | leftParen =>
    rw [openAfter_leftParen rfl] at h
    exact ⟨h, by simp⟩
  | rightParen =>
    cases hgroups : s.groups with
    | nil => simp [openAfter, hgroups, single] at h
    | cons b groups =>
      rw [hgroups, List.length_cons, openAfter_rightParen rfl] at h
      exact ⟨by simpa [State.close, groupsAfter, hgroups] using h, fun _ => by simp⟩
  | _ =>
    rw [openAfter_of_ne (by simp [single]) (by simp [single])] at h
    exact ⟨h, by simp⟩

/-- No run is open, and the last token is not the name of a function. -/
structure State.Idle (s : State) (groups : List Bool) : Prop where
  run : s.run = []
  groups : s.groups = groups
  afterFunction : s.afterFunction = false

/-- **In parentheses a text gives the tokens that it gives by itself.** -/
theorem Scans.embed (hr : r.Reached) {outer : List Bool} (houter : outer.head? ≠ some true)
    {s : State} {position : Nat} {cs : List Char} {ts : List Token} (h : Scans r s position cs ts)
    (hopen : openAfter s.groups.length ts = some 0) {s' : State} (hwithin : Within outer s s')
    (position' : Nat) :
    ∃ body n again last m, ts = body ++ [Token.finish n] ∧
      again.map Token.form = body.map Token.form ++ [(.rightParen, ")")] ∧
      State.Idle last outer.tail ∧
      ∀ rest us, Scans r last m rest us →
        Scans r s' position' (cs ++ ')' :: rest) (again ++ us) := by
  -- both scans have the same run open, and `outer` stays under what the text opens itself
  induction h generalizing s' position' with
  | @finish s position ts s₁ hflush =>
    obtain ⟨ts', s₁', hflush', hforms, hwithin'⟩ := hwithin.flushed hflush
    -- nothing is open at the end, so the parenthesis closes the one in front of the text
    have hnone : s.groups = [] := by
      rw [hflush.openAfter] at hopen
      simpa [openAfter, Token.finish] using hopen
    have heffect : effect r s' ')' = .token .rightParen :=
      effect_of_lexeme hr .rightParen rfl (by simp)
    refine ⟨ts, position, ts' ++ [single .rightParen ')' position'],
      s₁'.close .rightParen ')', position' + 1, rfl, ?_, ⟨hflush'.run_eq_nil, ?_, rfl⟩, ?_⟩
    · simp [hforms, Token.form, single]
    · simp [State.close, groupsAfter, hflush'.groups, hwithin.groups, hnone]
    · intro rest us hrest
      rw [List.append_assoc]
      exact .token heffect hflush' hrest
  | @join s position c cs ts he _ ih =>
    obtain ⟨body, n, again, last, m, hts, hforms, hidle, hscans⟩ :=
      ih hopen (hwithin.gather c position position') (position' + 1)
    exact ⟨body, n, again, last, m, hts, hforms, hidle, fun rest us hrest =>
      .join (by rw [hwithin.effect houter, he]) (hscans rest us hrest)⟩
  | @begin s position c cs ts s₁ ts₁ he hflush _ ih =>
    obtain ⟨ts', s₁', hflush', hforms', hwithin'⟩ := hwithin.flushed hflush
    rw [hflush.openAfter, ← hflush.groups] at hopen
    obtain ⟨body, n, again, last, m, rfl, hforms, hidle, hscans⟩ :=
      ih hopen (hwithin'.gather c position position') (position' + 1)
    refine ⟨ts ++ body, n, ts' ++ again, last, m, by simp, by simp [hforms, hforms'], hidle,
      fun rest us hrest => ?_⟩
    rw [List.append_assoc]
    exact .begin (by rw [hwithin.effect houter, he]) hflush' (hscans rest us hrest)
  | @skip s position c cs ts he _ ih =>
    obtain ⟨body, n, again, last, m, hts, hforms, hidle, hscans⟩ := ih hopen hwithin (position' + 1)
    exact ⟨body, n, again, last, m, hts, hforms, hidle, fun rest us hrest =>
      .skip (by rw [hwithin.effect houter, he]) (hscans rest us hrest)⟩
  | @token s position c cs ts s₁ k ts₁ he hflush _ ih =>
    obtain ⟨ts', s₁', hflush', hforms', hwithin'⟩ := hwithin.flushed hflush
    rw [hflush.openAfter, ← hflush.groups] at hopen
    obtain ⟨hrest, hgroups⟩ := openAfter_close hopen
    obtain ⟨body, n, again, last, m, rfl, hforms, hidle, hscans⟩ :=
      ih hrest (hwithin'.close c hflush.run_eq_nil hgroups) (position' + 1)
    refine ⟨ts ++ single k c position :: body, n, ts' ++ single k c position' :: again, last, m,
      by simp, by simp [hforms, hforms', Token.form, single], hidle, fun rest us hrest => ?_⟩
    rw [List.append_assoc]
    exact .token (by rw [hwithin.effect houter, he]) hflush' (hscans rest us hrest)
  | @space s position c cs ts s₁ ts₁ he hflush _ ih =>
    obtain ⟨ts', s₁', hflush', hforms', hwithin'⟩ := hwithin.flushed hflush
    rw [hflush.openAfter, ← hflush.groups] at hopen
    have hspaced : Within outer { s₁ with previous := some c } { s₁' with previous := some c } :=
      { hwithin' with previous := fun _ => rfl }
    obtain ⟨body, n, again, last, m, rfl, hforms, hidle, hscans⟩ :=
      ih hopen hspaced (position' + 1)
    refine ⟨ts ++ body, n, ts' ++ again, last, m, by simp, by simp [hforms, hforms'], hidle,
      fun rest us hrest => ?_⟩
    rw [List.append_assoc]
    exact .space (by rw [hwithin.effect houter, he]) hflush' (hscans rest us hrest)

/-! ## Chunks -/

/-- Characters that are tokens of these forms wherever no run is open, and leave none open. Only
the open parentheses matter; those after them are told as well. -/
def Chunk (r : Registry) (before after : List Bool) (cs : List Char)
    (forms : List (TokenKind × String)) : Prop :=
  ∀ s position, State.Idle s before → ∃ ts last n, ts.map Token.form = forms ∧
    State.Idle last after ∧
    ∀ rest us, Scans r last n rest us → Scans r s position (cs ++ rest) (ts ++ us)

namespace Chunk

variable {before between after : List Bool} {cs cs' : List Char}
  {forms forms' : List (TokenKind × String)}

theorem nil : Chunk r before before [] [] := fun s position hs =>
  ⟨[], s, position, rfl, hs, fun _ _ hrest => hrest⟩

/-- Chunks can be put together. -/
theorem append (h : Chunk r before between cs forms) (h' : Chunk r between after cs' forms') :
    Chunk r before after (cs ++ cs') (forms ++ forms') := by
  intro s position hs
  obtain ⟨ts, last, n, hts, hlast, hscans⟩ := h s position hs
  obtain ⟨ts', last', n', hts', hlast', hscans'⟩ := h' last n hlast
  refine ⟨ts ++ ts', last', n', by simp [hts, hts'], hlast', fun rest us hrest => ?_⟩
  rw [List.append_assoc, List.append_assoc]
  exact hscans _ _ (hscans' rest us hrest)

/-- A token that is no run. -/
theorem single (hr : r.Reached) {k : TokenKind} {c : Char} (hlex : Lexeme r [c] k)
    (hk : k.isRun = false) (hcomma : k = .comma → before.head? = some true) :
    Chunk r before (groupsAfter before false k) [c] [(k, String.singleton c)] := by
  intro s position hs
  refine ⟨[Scanner.single k c position], s.close k c, position + 1, rfl, ⟨hs.run, ?_, rfl⟩,
    fun rest us hrest => ?_⟩
  · simp [State.close, hs.groups, hs.afterFunction]
  · exact .token (effect_of_lexeme hr hlex hk fun h => by rw [hs.groups, hcomma h])
      (.nothing hs.run) hrest

/-- A registered operator. -/
theorem operator (hr : r.Reached) {c : Char} (h : r.isOperator (String.singleton c) = true) :
    Chunk r before before [c] [(.operator, String.singleton c)] :=
  single hr (.operator h) rfl (by simp)

/-- The name of a function and the parenthesis that opens its arguments. -/
theorem opening (hr : r.Reached) {name : String} (hlex : Lexeme r name.toList .function) :
    Chunk r before (true :: before) (name.toList ++ ['('])
      [(.function, name), (.leftParen, "(")] := by
  intro s position hs
  obtain ⟨s₁, n, hrun, _, hgroups, hscans⟩ := gather_lexeme rfl s position
    (show Lexeme r (s.run ++ name.toList) .function by rwa [hs.run]) (Looking.of_nil hs.run)
  rw [hs.run, List.nil_append] at hrun
  have hflush : Flushed r s₁ [⟨.function, name, s₁.start⟩]
      { s₁ with run := [], afterFunction := true } := by
    have := Flushed.run (s := s₁) (by rw [hrun]; exact hlex.ne_nil) (by rwa [hrun]) rfl
    rwa [hrun, String.ofList_toList] at this
  refine ⟨[⟨.function, name, s₁.start⟩, Scanner.single .leftParen '(' n],
    State.close { s₁ with run := [], afterFunction := true } .leftParen '(', n + 1, rfl,
    ⟨rfl, ?_, rfl⟩, fun rest us hrest => ?_⟩
  · simp [State.close, groupsAfter, hgroups, hs.groups]
  · rw [List.append_assoc]
    exact hscans _ _ (.token (effect_of_lexeme hr .leftParen rfl (by simp)) hflush hrest)

/-- A text whose tokens are balanced, in parentheses. -/
theorem group (hr : r.Reached) {body : List Token} {n : Int}
    (h : Scans r {} 0 cs (body ++ [Token.finish n]))
    (hopen : openAfter 0 (body ++ [Token.finish n]) = some 0) (groups : List Bool) :
    Chunk r groups groups ('(' :: (cs ++ [')']))
      ((.leftParen, "(") :: (body.map Token.form ++ [(.rightParen, ")")])) := by
  have henclosed : Chunk r (false :: groups) groups (cs ++ [')'])
      (body.map Token.form ++ [(.rightParen, ")")]) := by
    intro s position hs
    have hwithin : Within (false :: groups) {} s :=
      ⟨hs.run, fun hne => absurd rfl hne, hs.groups, hs.afterFunction⟩
    obtain ⟨body', n', again, last, m, heq, hforms, hidle, hscans⟩ :=
      h.embed hr (by simp) hopen hwithin position
    obtain ⟨rfl, _⟩ := List.append_inj' heq rfl
    refine ⟨again, last, m, hforms, hidle, fun rest us hrest => ?_⟩
    rw [List.append_assoc]
    exact hscans rest us hrest
  exact (single hr .leftParen rfl (by simp)).append henclosed

end Chunk

end Scanner

/-- A text that is a chunk has tokens of its forms, if it is not too long. -/
theorem tokenize_of_chunk {r : Registry} {source : String} {forms : List (TokenKind × String)}
    (h : Scanner.Chunk r [] [] source.toList forms) (limits : Limits) :
    (∃ d, tokenize source r limits = .error d ∧ d.kind = .limit) ∨
      ∃ body n, tokenize source r limits = .ok (body ++ [Token.finish n]) ∧
        body.map Token.form = forms := by
  obtain ⟨body, last, n, hforms, hlast, hscans⟩ := h {} 0 ⟨rfl, rfl, rfl⟩
  have hscan : Scanner.scan r source {} 0 (source.toList ++ []) = _ :=
    Scanner.scan_eq_ok.2 (hscans [] _ (.finish (.nothing hlast.run)))
  rw [List.append_nil] at hscan
  rw [tokenize]
  cases hcheck : limits.checkLength source.length with
  | error d => exact .inl ⟨d, rfl, Limits.kind_of_check hcheck⟩
  | ok => exact .inr ⟨body, n, hscan, hforms⟩

end Reckon
