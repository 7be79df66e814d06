/-
Tokens are read back from their text (`tokenize_text`): the text of the tokens
of a source is no longer than the source, its tokens are the same but for their
positions, and so is the text of those.

A comma that separates is told from one that is skipped by the parentheses and
the function names before it. That depends on the tokens alone (`Separated`), so
it is told again from their text. For the rest, the scanner that has read the
text of some tokens is still to end the last of them if that is a run
(`Behind`), and the text of the next one makes it do so.
-/
import Reckon.Proofs.Token.Spacing

namespace Reckon

/-- Commas stand only where the innermost open parenthesis opens arguments. -/
def Separated (groups : List Bool) (afterFunction : Bool) : List Token → Prop
  | [] => True
  | t :: ts => (t.kind = .comma → groups.head? = some true) ∧
      Separated (Scanner.groupsAfter groups afterFunction t.kind) (t.kind == .function) ts

theorem Separated.left {groups : List Bool} {afterFunction : Bool} {ts ts' : List Token}
    (h : Separated groups afterFunction (ts ++ ts')) : Separated groups afterFunction ts := by
  induction ts generalizing groups afterFunction with
  | nil => trivial
  | cons t ts ih =>
    obtain ⟨hcomma, hrest⟩ := h
    exact ⟨hcomma, ih hrest⟩

/-- What the text of a token depends on. -/
def Token.form (t : Token) : TokenKind × String := (t.kind, t.value)

theorem Token.merges_congr {p p' t t' : Token} (hp : p.form = p'.form) (ht : t.form = t'.form) :
    p.merges t = p'.merges t' := by
  obtain ⟨hpk, _⟩ := Prod.mk.inj hp
  obtain ⟨htk, htv⟩ := Prod.mk.inj ht
  rw [Token.merges, Token.merges, hpk, htk, htv]

/-- Tokens that differ by their positions have the same text. -/
theorem Token.textAfter_congr {prev prev' : Option Token} {ts ts' : List Token}
    (hprev : prev.map Token.form = prev'.map Token.form)
    (h : ts.map Token.form = ts'.map Token.form) :
    Token.textAfter prev ts = Token.textAfter prev' ts' := by
  induction ts generalizing prev prev' ts' with
  | nil =>
    rw [List.map_eq_nil_iff.1 (Eq.symm h)]
    rfl
  | cons t ts ih =>
    obtain ⟨t', ts', rfl, ht, hts⟩ := List.map_eq_cons_iff.1 (Eq.symm h)
    obtain ⟨hk, hv⟩ := Prod.mk.inj ht
    by_cases hfinish : t.kind = .finish
    · simp [Token.textAfter, hk, hfinish]
    · have hrest : Token.textAfter (some t) ts = Token.textAfter (some t') ts' :=
        ih (by simpa using ht.symm) hts.symm
      have hspace : prev.any (·.merges t) = prev'.any (·.merges t') := by
        cases prev <;> cases prev' <;> simp only [Option.map_none, Option.map_some,
          Option.some.injEq, reduceCtorEq] at hprev
        · rfl
        · exact Token.merges_congr hprev ht.symm
      rw [Token.textAfter_cons hfinish, Token.textAfter_cons (by rwa [hk]), hspace, hv, hrest]

namespace Scanner

variable {r : Registry}

/-! ## Commas -/

theorem groupsAfter_of_isRun {groups : List Bool} {afterFunction : Bool} {k : TokenKind}
    (h : k.isRun = true) : groupsAfter groups afterFunction k = groups := by
  cases k <;> first | rfl | cases h

theorem not_function_of_isRun {k : TokenKind} (h : k.isRun = false) :
    (k == TokenKind.function) = false := by
  cases k <;> first | rfl | cases h

theorem Flushed.groups {s s' : State} {ts : List Token} (h : Flushed r s ts s') :
    s'.groups = s.groups := by
  cases h <;> rfl

theorem Flushed.separated {s s' : State} {ts rest : List Token} (h : Flushed r s ts s')
    (hrest : Separated s'.groups s'.afterFunction rest) :
    Separated s.groups s.afterFunction (ts ++ rest) := by
  cases h with
  | nothing => exact hrest
  | run _ _ hk =>
    refine ⟨fun hcomma => ?_, ?_⟩
    · dsimp only at hcomma
      rw [hcomma] at hk
      cases hk
    · rw [groupsAfter_of_isRun hk]
      exact hrest

theorem head?_of_comma {s : State} {c : Char} (h : effect r s c = .token .comma) :
    s.groups.head? = some true := by
  cases otherEffect_of_effect h (by simp) (by simp) with
  | separator _ hgroup => exact hgroup

/-- **The commas of a scan separate arguments.** -/
theorem Scans.separated {s : State} {position : Nat} {cs : List Char} {ts : List Token}
    (h : Scans r s position cs ts) : Separated s.groups s.afterFunction ts := by
  induction h with
  | finish hflush => exact hflush.separated ⟨by simp [Token.finish], trivial⟩
  | join _ _ ih | skip _ _ ih => exact ih
  | begin _ hflush _ ih | space _ hflush _ ih => exact hflush.separated ih
  | @token s _ c _ _ _ k _ he hflush _ ih =>
    refine hflush.separated ⟨fun hcomma => ?_, ?_⟩
    · have hk : k = .comma := hcomma
      subst hk
      rw [hflush.groups]
      exact head?_of_comma he
    · rw [show (single k c _).kind = k from rfl, not_function_of_isRun (lexeme_of_effect he).2]
      exact ih

/-! ## The effects of a text -/

/-- White space ends runs and does nothing else. -/
theorem effect_eq_space_iff (hr : r.Reached) {s : State} {c : Char} :
    effect r s c = .space ↔ isSpace c = true := by
  constructor
  · intro h
    cases otherEffect_of_effect h (by simp) (by simp) with
    | space _ _ _ _ hspace => exact hspace
  · intro h
    have hoperator : r.isOperator (String.singleton c) = false := by
      rw [← Bool.not_eq_true]
      intro hop
      rw [hr.not_isSpace hop] at h
      cases h
    have hother : Text.isDigit c = false ∧ Text.isLetter c = false ∧ c ≠ '.' ∧ c ≠ ',' ∧
        c ≠ '(' ∧ c ≠ ')' := by
      simp only [isSpace, Bool.or_eq_true, decide_eq_true_eq] at h
      rcases h with ((rfl | rfl) | rfl) | rfl <;> decide
    obtain ⟨hd, hl, hp, hc, ho, hcl⟩ := hother
    simp [effect, hd, hl, hp, hc, ho, hcl, hoperator, h]

/-- A token that is no run is read as itself. -/
theorem effect_of_lexeme (hr : r.Reached) {s : State} {c : Char} {k : TokenKind}
    (h : Lexeme r [c] k) (hk : k.isRun = false)
    (hcomma : k = .comma → s.groups.head? = some true) : effect r s c = .token k := by
  generalize hcs : [c] = cs at h
  cases h with
  | function | identifier | number => cases hk
  | comma =>
    obtain rfl := (List.cons.inj hcs).1
    simp [effect, hcomma rfl, show Text.isDigit ',' = false by decide,
      show Text.isLetter ',' = false by decide]
  | leftParen =>
    obtain rfl := (List.cons.inj hcs).1
    simp [effect, show Text.isDigit '(' = false by decide,
      show Text.isLetter '(' = false by decide]
  | rightParen =>
    obtain rfl := (List.cons.inj hcs).1
    simp [effect, show Text.isDigit ')' = false by decide,
      show Text.isLetter ')' = false by decide]
  | operator h =>
    obtain rfl := (List.cons.inj hcs).1
    obtain ⟨hd, hl, _, hp, hc, ho, hcl⟩ := isSymbol_eq_true (hr.isSymbol h)
    simp [effect, hd, hl, hp, hc, ho, hcl, h]

/-- A run that is a token goes on to its end. -/
theorem effect_join {s : State} {c : Char} {cs : List Char} {k : TokenKind}
    (h : Lexeme r (s.run ++ c :: cs) k) (hk : k.isRun = true) (hlook : Looking s) :
    effect r s c = .join := by
  have hcontinues : ∀ same : Char → Bool, (∀ d ∈ s.run ++ c :: cs, same d = true) →
      s.continues same = true := by
    intro same hall
    unfold State.continues
    rcases List.eq_nil_or_concat s.run with hnil | ⟨run, d, hrun⟩
    · simp [hnil]
    · have hd : s.previous = some d := hlook d (by simp [hrun])
      simp [hd, hall d (by simp [hrun])]
  rcases effect_cases r s c with he | ⟨hl, hn, _⟩
  · by_cases hnumber : k = .number
    · subst hnumber
      have hnum := h.numeral.numeric
      have hc := hnum c (by simp)
      generalize effect r s c = e at he
      cases he with
      | digit => rw [if_pos (hcontinues _ hnum)]
      | letter hl =>
        rw [not_isNumeric_of_isLetter hl] at hc
        cases hc
      | point => rfl
    · have hletters := h.letters hk hnumber
      have hc := hletters c (by simp)
      generalize effect r s c = e at he
      cases he with
      | digit hd =>
        rw [Text.not_isLetter_of_isDigit hd] at hc
        cases hc
      | letter => rw [if_pos (hcontinues _ hletters)]
      | point => rfl
  · by_cases hnumber : k = .number
    · subst hnumber
      rw [h.numeral.numeric c (by simp)] at hn
      cases hn
    · rw [h.letters hk hnumber c (by simp)] at hl
      cases hl

/-! ## Reading a text -/

/-- The characters of a run are gathered. -/
theorem gather_lexeme {k : TokenKind} (hk : k.isRun = true) {cs : List Char} (s : State)
    (position : Nat) (h : Lexeme r (s.run ++ cs) k) (hlook : Looking s) :
    ∃ s' n, s'.run = s.run ++ cs ∧ Looking s' ∧ s'.groups = s.groups ∧
      ∀ rest ts, Scans r s' n rest ts → Scans r s position (cs ++ rest) ts := by
  induction cs generalizing s position with
  | nil => exact ⟨s, position, by simp, hlook, rfl, fun _ _ hscans => hscans⟩
  | cons c cs ih =>
    have hgather : (s.gather c position).run ++ cs = s.run ++ c :: cs := by
      simp [State.gather]
    obtain ⟨s', n, hrun, hlook', hgroups, hscans⟩ :=
      ih (s.gather c position) (position + 1) (by rwa [hgather]) (Looking.gather s c position)
    refine ⟨s', n, by rw [hrun, hgather], hlook', hgroups, fun rest ts hrest => ?_⟩
    exact .join (effect_join h hk hlook) (hscans rest ts hrest)

/-- The text before has been read up to the token before, which is still to be ended if it is a
run: the state, the tokens that ending the run gives, and the state after them. -/
inductive Behind (r : Registry) (s : State) : Option Token → List Token → State → Prop
  | idle {prev} : s.run = [] → (∀ p ∈ prev, p.kind.isRun = false) → Behind r s prev [] s
  | pending {p} : Lexeme r s.run p.kind → p.kind.isRun = true → p.value = String.ofList s.run →
      Looking s → Behind r s (some p) [⟨p.kind, p.value, s.start⟩]
        { s with run := [], afterFunction := p.kind == .function }

theorem Behind.flushed {s s' : State} {prev : Option Token} {ts : List Token}
    (h : Behind r s prev ts s') : Flushed r s ts s' := by
  cases h with
  | idle hnil _ => exact .nothing hnil
  | @pending p hlex hk hvalue _ =>
    rw [hvalue]
    exact .run hlex.ne_nil hlex hk

theorem Behind.of_run {s : State} {t : Token} (hlex : Lexeme r t.value.toList t.kind)
    (hk : t.kind.isRun = true) (hrun : s.run = t.value.toList) (hlook : Looking s) :
    Behind r s (some t) [⟨t.kind, t.value, s.start⟩]
      { s with run := [], afterFunction := t.kind == .function } :=
  .pending (by rwa [hrun]) hk (by rw [hrun, String.ofList_toList]) hlook

/-- The text of a run makes the scanner end the one before, and is to be ended itself. -/
theorem Behind.read_run {s s' : State} {prev : Option Token} {ts : List Token}
    (h : Behind r s prev ts s') (hr : r.Reached) {t : Token}
    (hlex : Lexeme r t.value.toList t.kind) (hk : t.kind.isRun = true) (position : Nat) :
    ∃ s₁ n, s₁.run = t.value.toList ∧ Looking s₁ ∧ s₁.groups = s'.groups ∧
      ∀ rest ts', Scans r s₁ n rest ts' →
        Scans r s position ((if prev.any (·.merges t) then [' '] else []) ++ t.value.toList ++ rest)
          (ts ++ ts') := by
  have hflush := h.flushed
  have hnil := hflush.run_eq_nil
  cases h with
  | idle _ hprev =>
    have hspace : prev.any (·.merges t) = false := by
      rw [Option.any_eq_false]
      rintro p rfl
      simpa using Token.merges_of_left (hprev p rfl)
    obtain ⟨s₁, n, hrun, hlook, hgroups, hscans⟩ :=
      gather_lexeme hk s position (show Lexeme r (s.run ++ t.value.toList) t.kind by rwa [hnil])
        (Looking.of_nil hnil)
    refine ⟨s₁, n, by rw [hrun, hnil, List.nil_append], hlook, hgroups, fun rest ts' hrest => ?_⟩
    rw [hspace]
    exact hscans rest ts' hrest
  | @pending p hp hpk _ hlook =>
    by_cases hmerges : p.merges t = true
    · obtain ⟨s₁, n, hrun, hlook, hgroups, hscans⟩ :=
        gather_lexeme hk { s with
          run := [], afterFunction := p.kind == .function, previous := some ' ' } (position + 1)
          hlex (Looking.of_nil rfl)
      refine ⟨s₁, n, hrun, hlook, hgroups, fun rest ts' hrest => ?_⟩
      rw [Option.any_some, hmerges]
      exact .space ((effect_eq_space_iff hr).2 (by decide)) hflush (hscans rest ts' hrest)
    · rw [Bool.not_eq_true] at hmerges
      obtain ⟨c, cs, hcs⟩ := List.exists_cons_of_ne_nil hlex.ne_nil
      have hends := (Token.merges_eq_false_iff hpk hlex hk (by rw [hcs]; rfl)).1 hmerges
      obtain ⟨s₁, n, hrun, hlook₁, hgroups, hscans⟩ :=
        gather_lexeme hk (State.gather { s with
          run := [], afterFunction := p.kind == .function } c position) (position + 1)
          (hcs ▸ hlex) (Looking.gather _ c position)
      refine ⟨s₁, n, by rw [hrun, hcs]; rfl, hlook₁, hgroups, fun rest ts' hrest => ?_⟩
      rw [Option.any_some, hmerges, hcs]
      exact .begin ((begins_iff_ends hp hpk hlook).2 hends) hflush (hscans rest ts' hrest)

/-- **The text of tokens is scanned as tokens of the same forms.** -/
theorem scans_text (hr : r.Reached) {body : List Token} {n : Int}
    (hlex : ∀ t ∈ body, Lexeme r t.value.toList t.kind) {s s' : State} {prev : Option Token}
    {ts : List Token} (hbehind : Behind r s prev ts s')
    (hsep : Separated s'.groups s'.afterFunction body) (position : Nat) :
    ∃ again, Scans r s position (Token.textAfter prev (body ++ [Token.finish n])) (ts ++ again) ∧
      again.map Token.form = (body ++ [Token.finish n]).map Token.form := by
  induction body generalizing s s' prev ts position with
  | nil => exact ⟨[Token.finish position], .finish hbehind.flushed, rfl⟩
  | cons t body ih =>
    have ht := hlex t List.mem_cons_self
    have hbody := fun t' ht' => hlex t' (List.mem_cons_of_mem t ht')
    obtain ⟨hcomma, hrest⟩ := hsep
    rw [List.cons_append, Token.textAfter_cons ht.ne_finish]
    by_cases hk : t.kind.isRun = true
    · obtain ⟨s₁, m, hrun, hlook, hgroups, hscans⟩ := hbehind.read_run hr ht hk position
      obtain ⟨again, hagain, hforms⟩ := ih hbody (.of_run ht hk hrun hlook)
        (by rwa [groupsAfter_of_isRun hk, ← hgroups] at hrest) m
      exact ⟨⟨t.kind, t.value, s₁.start⟩ :: again, hscans _ _ hagain, by simp [hforms, Token.form]⟩
    · rw [Bool.not_eq_true] at hk
      have hflush := hbehind.flushed
      obtain ⟨c, hc⟩ := ht.single hk
      have heffect : effect r s c = .token t.kind :=
        effect_of_lexeme hr (hc ▸ ht) hk fun h => by rw [← hflush.groups, hcomma h]
      rw [not_function_of_isRun hk] at hrest
      have hidle : Behind r (s'.close t.kind c) (some t) [] (s'.close t.kind c) :=
        .idle hflush.run_eq_nil (by simpa using hk)
      obtain ⟨again, hagain, hforms⟩ := ih hbody hidle hrest (position + 1)
      refine ⟨single t.kind c position :: again, ?_, ?_⟩
      · rw [Token.any_merges_of_right hk, hc]
        exact .token heffect hflush hagain
      · have hvalue : String.singleton c = t.value := by
          rw [← String.ofList_toList (s := t.value), hc]
          rfl
        simp [hforms, Token.form, single, hvalue]

end Scanner

/-! ## The round trip -/

theorem Limits.checkLength_of_le {limits : Limits} {m n : Nat}
    (h : limits.checkLength n = .ok ()) (hle : m ≤ n) : limits.checkLength m = .ok () := by
  unfold Limits.checkLength Limits.check at h ⊢
  split at h
  · cases h
  · rw [if_neg (by omega)]

section Text

variable {source : String} {r : Registry} {limits : Limits} {tokens : List Token}

theorem length_text_le (h : tokenize source r limits = .ok tokens) :
    (Token.text tokens).length ≤ source.length := by
  have hroom : Scanner.Room none {} 0 := .inr fun p hp => by cases hp
  have hlen := (scans_of_tokenize h).length_text (.of_nil rfl) hroom
  simpa [Token.text, String.length_toList] using hlen

/-- The text of the tokens of a source has tokens of their forms. -/
theorem exists_tokenize_text (hr : r.Reached) (h : tokenize source r limits = .ok tokens) :
    ∃ again, tokenize (Token.text tokens) r limits = .ok again ∧
      again.map Token.form = tokens.map Token.form := by
  have hlength := length_text_le h
  obtain ⟨body, n, rfl, hlex⟩ := tokenize_lexeme h
  rw [tokenize, bind_eq_ok] at h
  obtain ⟨_, hcheck, hscan⟩ := h
  have hscans := Scanner.scan_eq_ok.1 hscan
  have hidle : Scanner.Behind r {} none [] {} := .idle rfl (by simp)
  obtain ⟨again, hagain, hforms⟩ :=
    Scanner.scans_text hr hlex (n := n) hidle hscans.separated.left 0
  refine ⟨again, ?_, hforms⟩
  rw [tokenize, bind_eq_ok]
  refine ⟨(), Limits.checkLength_of_le hcheck hlength, Scanner.scan_eq_ok.2 ?_⟩
  simpa [Token.text] using hagain

end Text

/-- **The text of the tokens of a source is no longer than the source, and its tokens are the same
but for their positions.** -/
theorem tokenize_text {source : String} {r : Registry} {limits : Limits} {tokens : List Token}
    (hr : r.Reached) (h : tokenize source r limits = .ok tokens) :
    (Token.text tokens).length ≤ source.length ∧
      ∃ again, tokenize (Token.text tokens) r limits = .ok again ∧
        again.map Token.form = tokens.map Token.form ∧
        Token.text again = Token.text tokens := by
  obtain ⟨again, hagain, hforms⟩ := exists_tokenize_text hr h
  refine ⟨length_text_le h, again, hagain, hforms, ?_⟩
  rw [Token.text, Token.text, Token.textAfter_congr rfl hforms]

/-- Only the space that keeps two words apart is written again. -/
theorem tokenize_text_words :
    let source := "1,000 * a b"
    ∃ tokens, Registry.standard.Reached ∧ tokenize source .standard .standard = .ok tokens ∧
      Token.text tokens = "1000*a b" ∧
      ∃ again, tokenize "1000*a b" .standard .standard = .ok again ∧
        again.map Token.form = tokens.map Token.form := by
  have hread : tokenize "1,000 * a b" .standard .standard = .ok [⟨.number, "1000", 0⟩,
      ⟨.operator, "*", 6⟩, ⟨.identifier, "a", 8⟩, ⟨.identifier, "b", 10⟩, ⟨.finish, "", 11⟩] := rfl
  obtain ⟨_, again, hagain, hforms, _⟩ := tokenize_text Registry.standard_reached hread
  exact ⟨_, Registry.standard_reached, hread, rfl, again, hagain, hforms⟩

end Reckon
