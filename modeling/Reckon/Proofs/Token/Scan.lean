/-
Scans that succeed, as a relation with one rule for each effect of a character
(`Scanner.Scans`). Tokens are known by it to be lexemes, followed by one end.
-/
import Reckon.Proofs.Token.Lexeme

namespace Reckon

namespace Scanner

variable {r : Registry} {source : String}

/-- Ending the run gives the token that it is, if it is not empty. -/
inductive Flushed (r : Registry) (s : State) : List Token → State → Prop
  | nothing : s.run = [] → Flushed r s [] s
  | run {k} : s.run ≠ [] → Lexeme r s.run k → k.isRun = true →
      Flushed r s [⟨k, String.ofList s.run, s.start⟩]
        { s with run := [], afterFunction := k == .function }

theorem flush_eq_ok {s s' : State} {ts : List Token} :
    flush r source s = .ok (ts, s') ↔ Flushed r s ts s' := by
  unfold flush
  constructor
  · intro h
    split at h
    · next hempty =>
      obtain ⟨rfl, rfl⟩ := Prod.mk.inj (Except.ok.inj h)
      exact .nothing (by simpa using hempty)
    · next hrun =>
      have hne : s.run ≠ [] := by simpa using hrun
      rw [bind_eq_ok] at h
      obtain ⟨⟨k, value, position⟩, ht, h⟩ := h
      obtain ⟨hlex, hk, rfl, rfl⟩ := runToken_eq_ok ht hne
      rw [pure_eq_ok] at h
      obtain ⟨rfl, rfl⟩ := Prod.mk.inj h
      exact .run hne hlex hk
  · intro h
    cases h with
    | nothing hempty => simp [hempty]
    | run hne hlex hk =>
      simp [hne, runToken_of_lexeme hlex hk, bind, Except.bind, pure, Except.pure]

/-- From a state and a position on, characters are scanned as tokens. -/
inductive Scans (r : Registry) : State → Nat → List Char → List Token → Prop
  | finish {s position ts s'} : Flushed r s ts s' →
      Scans r s position [] (ts ++ [Token.finish position])
  | join {s position c cs ts} : effect r s c = .join →
      Scans r (s.gather c position) (position + 1) cs ts → Scans r s position (c :: cs) ts
  | begin {s position c cs ts s' ts'} : effect r s c = .begin → Flushed r s ts s' →
      Scans r (s'.gather c position) (position + 1) cs ts' →
      Scans r s position (c :: cs) (ts ++ ts')
  | skip {s position c cs ts} : effect r s c = .skip → Scans r s (position + 1) cs ts →
      Scans r s position (c :: cs) ts
  | token {s position c cs ts s' k ts'} : effect r s c = .token k → Flushed r s ts s' →
      Scans r (s'.close k c) (position + 1) cs ts' →
      Scans r s position (c :: cs) (ts ++ single k c position :: ts')
  | space {s position c cs ts s' ts'} : effect r s c = .space → Flushed r s ts s' →
      Scans r { s' with previous := some c } (position + 1) cs ts' →
      Scans r s position (c :: cs) (ts ++ ts')

theorem scan_cons {s position c cs} :
    scan r source s position (c :: cs) = (effect r s c).outcome r source s position c >>= fun p =>
      scan r source p.2 (position + 1) cs >>= fun rest => pure (p.1 ++ rest) := by
  rw [scan, step_eq]

theorem scan_cons_eq_ok {s position c cs ts} :
    scan r source s position (c :: cs) = .ok ts ↔
      ∃ ts₁ s' ts₂, (effect r s c).outcome r source s position c = .ok (ts₁, s') ∧
        scan r source s' (position + 1) cs = .ok ts₂ ∧ ts₁ ++ ts₂ = ts := by
  simp only [scan_cons, bind_eq_ok, pure_eq_ok, Prod.exists, exists_and_left]

/-- **Scans are the runs of the scanner that succeed.** -/
theorem scan_eq_ok {s position cs ts} :
    scan r source s position cs = .ok ts ↔ Scans r s position cs ts := by
  constructor
  · intro h
    induction cs generalizing s position ts with
    | nil =>
      simp only [scan, bind_eq_ok, pure_eq_ok, Prod.exists] at h
      obtain ⟨ts', s', hflush, rfl⟩ := h
      exact .finish (flush_eq_ok.1 hflush)
    | cons c cs ih =>
      obtain ⟨ts₁, s', ts₂, hstep, hrest, rfl⟩ := scan_cons_eq_ok.1 h
      replace hrest := ih hrest
      cases he : effect r s c <;> simp only [he, Effect.outcome, bind_eq_ok, pure_eq_ok,
        Except.ok.injEq, Prod.mk.injEq, Prod.exists, reduceCtorEq] at hstep
      case join =>
        obtain ⟨rfl, rfl⟩ := hstep
        exact .join he hrest
      case begin =>
        obtain ⟨_, _, hflush, rfl, rfl⟩ := hstep
        exact .begin he (flush_eq_ok.1 hflush) hrest
      case skip =>
        obtain ⟨rfl, rfl⟩ := hstep
        exact .skip he hrest
      case token k =>
        obtain ⟨_, _, hflush, rfl, rfl⟩ := hstep
        rw [List.append_assoc]
        exact .token he (flush_eq_ok.1 hflush) hrest
      case space =>
        obtain ⟨_, _, hflush, rfl, rfl⟩ := hstep
        exact .space he (flush_eq_ok.1 hflush) hrest
  · intro h
    induction h with
    | finish hflush => simp [scan, flush_eq_ok.2 hflush, bind, Except.bind, pure, Except.pure]
    | join he _ ih => exact scan_cons_eq_ok.2 ⟨_, _, _, by rw [he]; rfl, ih, rfl⟩
    | begin he hflush _ ih =>
      refine scan_cons_eq_ok.2 ⟨_, _, _, ?_, ih, rfl⟩
      rw [he, Effect.outcome, flush_eq_ok.2 hflush]
      rfl
    | skip he _ ih => exact scan_cons_eq_ok.2 ⟨_, _, _, by rw [he]; rfl, ih, rfl⟩
    | @token s position c cs ts s' k ts' he hflush _ ih =>
      refine scan_cons_eq_ok.2 ⟨ts ++ [single k c position], _, _, ?_, ih, by simp⟩
      rw [he, Effect.outcome, flush_eq_ok.2 hflush]
      rfl
    | space he hflush _ ih =>
      refine scan_cons_eq_ok.2 ⟨_, _, _, ?_, ih, rfl⟩
      rw [he, Effect.outcome, flush_eq_ok.2 hflush]
      rfl

/-- A character that is a token by itself is a lexeme. -/
theorem lexeme_of_effect {s : State} {c : Char} {k : TokenKind} (h : effect r s c = .token k) :
    Lexeme r [c] k ∧ k.isRun = false := by
  cases otherEffect_of_effect h (by simp) (by simp) with
  | separator hc => exact ⟨hc ▸ .comma, rfl⟩
  | leftParen hc => exact ⟨hc ▸ .leftParen, rfl⟩
  | rightParen hc => exact ⟨hc ▸ .rightParen, rfl⟩
  | operator _ _ _ hop => exact ⟨.operator hop, rfl⟩

theorem Flushed.lexeme {s s' : State} {ts : List Token} (h : Flushed r s ts s') :
    ∀ t ∈ ts, Lexeme r t.value.toList t.kind := by
  cases h with
  | nothing => simp
  | run _ hlex _ => simpa using hlex

/-- **Every token but the end is a lexeme.** -/
theorem Scans.lexeme {s position cs ts} (h : Scans r s position cs ts) :
    ∃ body n, ts = body ++ [Token.finish n] ∧ ∀ t ∈ body, Lexeme r t.value.toList t.kind := by
  induction h with
  | finish hflush => exact ⟨_, _, rfl, hflush.lexeme⟩
  | join _ _ ih | skip _ _ ih => exact ih
  | @begin _ _ _ _ ts _ _ _ hflush _ ih | @space _ _ _ _ ts _ _ _ hflush _ ih =>
    obtain ⟨body, n, rfl, hbody⟩ := ih
    refine ⟨ts ++ body, n, by simp, fun t ht => ?_⟩
    exact (List.mem_append.1 ht).elim (hflush.lexeme t) (hbody t)
  | @token _ position c _ ts _ k _ he hflush _ ih =>
    obtain ⟨body, n, rfl, hbody⟩ := ih
    refine ⟨ts ++ single k c position :: body, n, by simp, fun t ht => ?_⟩
    rw [List.mem_append, List.mem_cons] at ht
    rcases ht with ht | rfl | ht
    · exact hflush.lexeme t ht
    · simpa [single] using (lexeme_of_effect he).1
    · exact hbody t ht

end Scanner

theorem Limits.check_eq_error {limit : String} {bound actual : Int} {d : Diagnostic}
    (h : check limit bound actual = .error d) :
    d = { cause := .limitExceeded limit bound actual } := by
  unfold check at h
  split at h
  · exact (Except.error.inj h).symm
  · cases h

theorem Limits.kind_of_check {limit : String} {bound actual : Int} {d : Diagnostic}
    (h : check limit bound actual = .error d) : d.kind = .limit := by
  rw [check_eq_error h]
  rfl

theorem scans_of_tokenize {source : String} {r : Registry} {limits : Limits} {tokens : List Token}
    (h : tokenize source r limits = .ok tokens) : Scanner.Scans r {} 0 source.toList tokens := by
  rw [tokenize, bind_eq_ok] at h
  obtain ⟨_, _, hscan⟩ := h
  exact Scanner.scan_eq_ok.1 hscan

/-- Limits decide whether a text is scanned, and not to which tokens. -/
theorem tokenize_eq_check {source : String} {r : Registry} {lexing : Limits} {tokens : List Token}
    (h : tokenize source r lexing = .ok tokens) (limits : Limits) :
    tokenize source r limits = (limits.checkLength source.length).map fun _ => tokens := by
  rw [tokenize, Scanner.scan_eq_ok.2 (scans_of_tokenize h)]
  cases limits.checkLength source.length <;> rfl

/-- The tokens of a text are lexemes and one end. -/
theorem tokenize_lexeme {source : String} {r : Registry} {limits : Limits} {tokens : List Token}
    (h : tokenize source r limits = .ok tokens) :
    ∃ body n, tokens = body ++ [Token.finish n] ∧ ∀ t ∈ body, Lexeme r t.value.toList t.kind :=
  (scans_of_tokenize h).lexeme

end Reckon
