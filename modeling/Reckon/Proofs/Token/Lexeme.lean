/-
The forms of tokens, told without the scanner: which characters make a token
of which kind. Words are letters, and functions are the words that a registry
knows as such; a numeral has at most one point and at least one digit; any
other token is a single character.
-/
import Reckon.Proofs.Registry.Reached
import Reckon.Proofs.Token.Step

namespace Reckon

/-! ## Numerals -/

/-- Digits only. -/
def Digits (cs : List Char) : Prop := ∀ c ∈ cs, Text.isDigit c = true

/-- Letters only. -/
def Letters (cs : List Char) : Prop := ∀ c ∈ cs, Text.isLetter c = true

/-- The form of a number: `[0-9]+`, `[0-9]+ '.' [0-9]*` or `'.' [0-9]+`. -/
inductive Numeral : List Char → Prop
  | whole {ds} : ds ≠ [] → Digits ds → Numeral ds
  | point {ds es} : ds ≠ [] → Digits ds → Digits es → Numeral (ds ++ '.' :: es)
  | fraction {es} : es ≠ [] → Digits es → Numeral ('.' :: es)

theorem Digits.takeWhile (cs : List Char) : Digits (cs.takeWhile Text.isDigit) := fun _ hc =>
  List.all_eq_true.1 List.all_takeWhile _ hc

theorem Digits.split {ds : List Char} (h : Digits ds) :
    ds.takeWhile Text.isDigit = ds ∧ ds.dropWhile Text.isDigit = [] := by
  induction ds with
  | nil => exact ⟨rfl, rfl⟩
  | cons d ds ih =>
    obtain ⟨ht, hd⟩ := ih fun c hc => h c (List.mem_cons_of_mem _ hc)
    have hdigit := h d List.mem_cons_self
    simp [hdigit, ht, hd]

theorem isNumeral_iff {cs : List Char} : isNumeral cs = true ↔ Numeral cs := by
  constructor
  · intro h
    have hcs := List.takeWhile_append_dropWhile (p := Text.isDigit) (l := cs)
    have hd := Digits.takeWhile cs
    unfold isNumeral at h
    generalize cs.takeWhile Text.isDigit = ds at h hcs hd
    split at h
    · next hrest =>
      rw [hrest, List.append_nil] at hcs
      subst hcs
      exact .whole (by simpa using h) hd
    · next es hrest =>
      rw [hrest] at hcs
      subst hcs
      simp only [Bool.and_eq_true, List.all_eq_true, Bool.not_eq_true', Bool.and_eq_false_iff,
        List.isEmpty_eq_false_iff] at h
      cases ds with
      | nil => exact .fraction (by simpa using h.2) h.1
      | cons d ds => exact .point (by simp) hd h.1
    · cases h
  · intro h
    have hpoint : Text.isDigit '.' = false := by decide
    cases h with
    | whole hne hd =>
      unfold isNumeral
      simp [hd.split, hne]
    | point hne hd he =>
      unfold isNumeral
      simpa [List.takeWhile_append_of_pos hd, List.dropWhile_append_of_pos hd, hpoint, hne,
        Digits] using he
    | fraction hne he =>
      unfold isNumeral
      simpa [hpoint, hne, Digits] using he

theorem Numeral.numeric {cs : List Char} (h : Numeral cs) : ∀ c ∈ cs, isNumeric c = true := by
  have hd {ds} (h : Digits ds) : ∀ c ∈ ds, isNumeric c = true := fun c hc => by
    simp [isNumeric, h c hc]
  have hp : isNumeric '.' = true := by decide
  cases h with
  | whole _ h => exact hd h
  | point _ h h' => simpa [or_imp, forall_and, hp] using ⟨hd h, hd h'⟩
  | fraction _ h => simpa [hp] using hd h

theorem Numeral.ne_nil {cs : List Char} (h : Numeral cs) : cs ≠ [] := by
  cases h <;> simp [*]

theorem Numeral.not_letters {cs : List Char} (h : Numeral cs) : cs.all Text.isLetter = false := by
  obtain ⟨c, hc⟩ := List.exists_mem_of_ne_nil _ h.ne_nil
  rw [← Bool.not_eq_true]
  intro hall
  have := not_isNumeric_of_isLetter (List.all_eq_true.1 hall c hc)
  simp [h.numeric c hc] at this

/-! ## Lexemes -/

/-- The characters make a token of the kind. -/
inductive Lexeme (r : Registry) : List Char → TokenKind → Prop
  | function {cs} : cs ≠ [] → Letters cs → r.isFunction (String.ofList cs) = true →
      Lexeme r cs .function
  | identifier {cs} : cs ≠ [] → Letters cs → r.isFunction (String.ofList cs) = false →
      Lexeme r cs .identifier
  | number {cs} : Numeral cs → Lexeme r cs .number
  | comma : Lexeme r [','] .comma
  | leftParen : Lexeme r ['('] .leftParen
  | rightParen : Lexeme r [')'] .rightParen
  | operator {c} : r.isOperator (String.singleton c) = true → Lexeme r [c] .operator

namespace Lexeme

variable {r : Registry} {cs : List Char} {k : TokenKind}

theorem ne_nil (h : Lexeme r cs k) : cs ≠ [] := by
  cases h with
  | function h | identifier h => exact h
  | number h => exact h.ne_nil
  | comma | leftParen | rightParen | operator => simp

theorem ne_finish (h : Lexeme r cs k) : k ≠ .finish := by
  rintro rfl
  cases h

/-- What is no run is a single character. -/
theorem single (h : Lexeme r cs k) (hk : k.isRun = false) : ∃ c, cs = [c] := by
  cases h with
  | function | identifier | number => cases hk
  | comma | leftParen | rightParen | operator => exact ⟨_, rfl⟩

/-- A word is letters. -/
theorem letters (h : Lexeme r cs k) (hk : k.isRun = true) (hne : k ≠ .number) : Letters cs := by
  cases h with
  | function _ hl | identifier _ hl => exact hl
  | number => exact absurd rfl hne
  | comma | leftParen | rightParen | operator => cases hk

theorem numeral (h : Lexeme r cs .number) : Numeral cs := by
  cases h with
  | number h => exact h

/-- The characters of a run make a word or a number or nothing. -/
theorem isRun (h : Lexeme r cs k) (hr : r.Reached)
    (hcs : ∀ c ∈ cs, (Text.isLetter c || isNumeric c) = true) : k.isRun = true := by
  cases h with
  | function | identifier | number => rfl
  | comma | leftParen | rightParen => exact absurd (hcs _ (List.mem_singleton_self _)) (by decide)
  | @operator c h =>
    obtain ⟨hd, hl, _, hp, _⟩ := isSymbol_eq_true (hr.isSymbol h)
    simpa [isNumeric, hd, hl, hp] using hcs c (List.mem_singleton_self c)

/-- A single character that is in no run is a token by what it is. -/
theorem singleton {c : Char} (h : Lexeme r [c] k) (hl : Text.isLetter c = false)
    (hn : isNumeric c = false) :
    c = ',' ∨ c = '(' ∨ c = ')' ∨ r.isOperator (String.singleton c) = true := by
  generalize hcs : [c] = cs at h
  cases h with
  | function _ h | identifier _ h =>
    have := h c (by simp [← hcs])
    simp [hl] at this
  | number h =>
    have := h.numeric c (by simp [← hcs])
    simp [hn] at this
  | comma => exact .inl (List.cons.inj hcs).1
  | leftParen => exact .inr (.inl (List.cons.inj hcs).1)
  | rightParen => exact .inr (.inr (.inl (List.cons.inj hcs).1))
  | operator h => exact .inr (.inr (.inr ((List.cons.inj hcs).1 ▸ h)))

end Lexeme

/-- Operators are no white space. -/
theorem Registry.Reached.not_isSpace {r : Registry} (hr : r.Reached) {c : Char}
    (h : r.isOperator (String.singleton c) = true) : isSpace c = false := by
  have hblank := (isSymbol_eq_true (hr.isSymbol h)).2.2.1
  rw [← Bool.not_eq_true]
  intro hspace
  simp only [isSpace, Bool.or_eq_true, decide_eq_true_eq] at hspace
  rcases hspace with ((rfl | rfl) | rfl) | rfl <;> revert hblank <;> decide

/-- No token has white space in it. -/
theorem Lexeme.not_isBlank {r : Registry} (hr : r.Reached) {cs : List Char} {k : TokenKind}
    (h : Lexeme r cs k) : ∀ c ∈ cs, Text.isBlank c = false := by
  have hletter {c : Char} (hc : Text.isLetter c = true) : Text.isBlank c = false := by
    rw [Text.isLetter_iff] at hc
    exact Text.isBlank_of_mark (by omega)
  have hnumeric {c : Char} (hc : isNumeric c = true) : Text.isBlank c = false := by
    rw [isNumeric, Bool.or_eq_true, beq_iff_eq, Text.isDigit_iff] at hc
    rcases hc with hc | rfl
    · exact Text.isBlank_of_mark (by omega)
    · decide
  cases h with
  | function _ hl | identifier _ hl => exact fun c hc => hletter (hl c hc)
  | number h => exact fun c hc => hnumeric (h.numeric c hc)
  | comma | leftParen | rightParen => exact List.forall_mem_singleton.2 (by decide)
  | operator hop =>
    exact List.forall_mem_singleton.2 (isSymbol_eq_true (hr.isSymbol hop)).2.2.1

/-! ## Tokens of runs -/

namespace Scanner

variable {r : Registry} {source : String} {run : List Char} {start : Nat}

/-- The diagnostic for a run that is no token. -/
def malformed (source : String) (run : List Char) (start : Nat) : Diagnostic where
  cause := .lexical (.malformedNumber (String.ofList run))
  position := some start
  source := some source

theorem runToken_eq_ok {t : Token} (h : runToken r source run start = .ok t) (hne : run ≠ []) :
    Lexeme r run t.kind ∧ t.kind.isRun = true ∧ t.value = String.ofList run ∧
      t.position = start := by
  unfold runToken at h
  split at h
  · next hall =>
    obtain rfl := Except.ok.inj h
    have hl : Letters run := by simpa [Letters] using hall
    cases hf : r.isFunction (String.ofList run) with
    | true => exact ⟨.function hne hl hf, rfl, rfl, rfl⟩
    | false => exact ⟨.identifier hne hl hf, rfl, rfl, rfl⟩
  · split at h
    · next hnum =>
      obtain rfl := Except.ok.inj h
      exact ⟨.number (isNumeral_iff.1 hnum), rfl, rfl, rfl⟩
    · cases h

theorem runToken_of_lexeme {k : TokenKind} (h : Lexeme r run k) (hk : k.isRun = true) :
    runToken r source run start = .ok ⟨k, String.ofList run, start⟩ := by
  unfold runToken
  cases h with
  | function _ hl hf => simp [List.all_eq_true.2 hl, hf]
  | identifier _ hl hf => simp [List.all_eq_true.2 hl, hf]
  | number h => simp [h.not_letters, isNumeral_iff.2 h]
  | comma | leftParen | rightParen | operator => cases hk

theorem runToken_eq_error {d : Diagnostic} (h : runToken r source run start = .error d) :
    d = malformed source run start ∧ ∀ k, k.isRun = true → ¬Lexeme r run k := by
  refine ⟨?_, fun k hk hlex => by simp [runToken_of_lexeme hlex hk] at h⟩
  unfold runToken at h
  split at h
  · cases h
  · split at h
    · cases h
    · exact (Except.error.inj h).symm

end Scanner

end Reckon
