/-
The text of tokens is no longer than what they were scanned from
(`tokenize_text_length`). Runs lose their skipped commas, white space goes, and
a space comes back only where two tokens would otherwise be read as one; there
the source had a character to spare, since without one the first character of
the second run has ended the first (`Room`).
-/
import Reckon.Proofs.Token.Scan

namespace Reckon

/-- The character cannot be in the run of the token: it is a letter after a numeral, or a digit
after a word. -/
def Token.Ends (p : Token) (c : Char) : Prop :=
  if p.kind = .number then Text.isLetter c = true else Text.isDigit c = true

/-- Two runs need no space between them exactly if the first character of the second ends the
first. -/
theorem Token.merges_eq_false_iff {r : Registry} {p t : Token} {c : Char}
    (hp : p.kind.isRun = true) (hlex : Lexeme r t.value.toList t.kind)
    (ht : t.kind.isRun = true) (hc : t.value.toList.head? = some c) :
    p.merges t = false ↔ p.Ends c := by
  have hmem := List.mem_of_head? hc
  have hmerges : p.merges t = if (p.kind == .number) == (t.kind == .number) then true
      else t.kind == .number && c == '.' := by
    simp [Token.merges, hp, ht, hc]
  rw [hmerges, Token.Ends]
  by_cases hnumber : t.kind = .number
  · rw [hnumber] at hlex ⊢
    have hn := hlex.numeral.numeric c hmem
    by_cases hpn : p.kind = .number
    · simp [hpn, not_isLetter_of_isNumeric hn]
    · have hpw : (p.kind == .number) = false := by simpa using hpn
      rw [isNumeric, Bool.or_eq_true, beq_iff_eq] at hn
      rcases hn with hd | rfl
      · have hpoint : c ≠ '.' := by
          rintro rfl
          exact absurd hd (by decide)
        simp [hpn, hpw, hd, hpoint]
      · simp [hpn, hpw, show Text.isDigit '.' = false by decide]
  · have hl := hlex.letters ht hnumber c hmem
    have htw : (t.kind == .number) = false := by simpa using hnumber
    by_cases hpn : p.kind = .number
    · simp [hpn, htw, hl]
    · have hpw : (p.kind == .number) = false := by simpa using hpn
      simp [hpn, hpw, htw, Text.not_isDigit_of_isLetter hl]

theorem Token.merges_of_left {p t : Token} (h : p.kind.isRun = false) : p.merges t = false := by
  simp [Token.merges, h]

/-- What is no run stands right after what is before it. -/
theorem Token.any_merges_of_right {prev : Option Token} {t : Token} (h : t.kind.isRun = false) :
    prev.any (·.merges t) = false := by
  cases prev <;> simp [Token.merges, h]

/-- A token is written after a space if it would merge with the one before. -/
theorem Token.textAfter_cons {prev : Option Token} {t : Token} {ts : List Token}
    (h : t.kind ≠ .finish) : Token.textAfter prev (t :: ts) =
      (if prev.any (·.merges t) then [' '] else []) ++ t.value.toList ++
        Token.textAfter (some t) ts := by
  have hfinish : (t.kind == .finish) = false := by simpa using h
  cases prev <;> simp [Token.textAfter, hfinish]

theorem Token.textAfter_finish {prev : Option Token} {n : Int} :
    Token.textAfter prev [Token.finish n] = [] := rfl

namespace Scanner

variable {r : Registry}

/-- The last character is that of the run. -/
def Looking (s : State) : Prop := ∀ c ∈ s.run.getLast?, s.previous = some c

theorem Looking.gather (s : State) (c : Char) (position : Nat) :
    Looking (s.gather c position) := by
  simp [Looking, State.gather]

theorem Looking.of_nil {s : State} (h : s.run = []) : Looking s := by
  simp [Looking, h]

/-- The run needs no space after the token before it, or there are characters to spare. -/
def Room (prev : Option Token) (s : State) (spare : Nat) : Prop :=
  0 < spare ∨ ∀ p ∈ prev, p.kind.isRun = true → ∃ c, s.run.head? = some c ∧ p.Ends c

theorem Flushed.run_eq_nil {s s' : State} {ts : List Token} (h : Flushed r s ts s') :
    s'.run = [] := by
  cases h with
  | nothing h => exact h
  | run => rfl

/-- Ending the run writes it, with a space where there is room for it. -/
theorem Flushed.length_text {s s' : State} {ts : List Token} (h : Flushed r s ts s')
    {prev : Option Token} {spare : Nat} (hroom : Room prev s spare) (rest : List Token) :
    (Token.textAfter prev (ts ++ rest)).length ≤
      spare + s.run.length + (Token.textAfter (ts.getLast?.or prev) rest).length := by
  cases h with
  | nothing hnil =>
    simp
  | @run k hne hlex hk =>
    rw [List.singleton_append, Token.textAfter_cons hlex.ne_finish]
    simp only [String.toList_ofList, List.length_append, List.getLast?_singleton, Option.some_or]
    split
    · next hmerges =>
      obtain ⟨p, hp, hmerges⟩ := (Option.any_eq_true _ _).1 hmerges
      have hspare : 0 < spare := by
        refine hroom.resolve_right fun hroom => ?_
        by_cases hrun : p.kind.isRun = true
        · obtain ⟨c, hc, hends⟩ := hroom p hp hrun
          rw [← Token.merges_eq_false_iff (t := ⟨k, String.ofList s.run, s.start⟩) (r := r) hrun
            (by simpa using hlex) hk (by simpa using hc), hmerges] at hends
          cases hends
        · rw [Token.merges_of_left (by simpa using hrun)] at hmerges
          cases hmerges
      simp only [List.length_singleton]
      omega
    · simp

theorem effect_eq_begin_iff {s : State} {c : Char} : effect r s c = .begin ↔
    s.run ≠ [] ∧ ((Text.isDigit c = true ∧ s.previous.any isNumeric = false) ∨
      (Text.isLetter c = true ∧ s.previous.any Text.isLetter = false)) := by
  constructor
  · intro h
    rcases effect_cases r s c with he | ⟨_, _, he⟩
    · rw [h] at he
      generalize hb : Effect.begin = e at he
      cases he with
      | digit hd =>
        split at hb
        · cases hb
        · next hcontinues =>
          simp only [State.continues, Bool.or_eq_true, not_or, Bool.not_eq_true,
            List.isEmpty_eq_false_iff] at hcontinues
          exact ⟨hcontinues.1, .inl ⟨hd, hcontinues.2⟩⟩
      | letter hl =>
        split at hb
        · cases hb
        · next hcontinues =>
          simp only [State.continues, Bool.or_eq_true, not_or, Bool.not_eq_true,
            List.isEmpty_eq_false_iff] at hcontinues
          exact ⟨hcontinues.1, .inr ⟨hl, hcontinues.2⟩⟩
      | point => cases hb
    · rw [h] at he
      cases he
  · rintro ⟨hne, ⟨hd, hprevious⟩ | ⟨hl, hprevious⟩⟩
    · simp [effect, State.continues, hd, hne, hprevious]
    · simp [effect, State.continues, Text.not_isDigit_of_isLetter hl, hl, hne, hprevious]

/-- A character begins another run exactly if it ends the token of this one. -/
theorem begins_iff_ends {s : State} {p : Token} {c : Char} (h : Lexeme r s.run p.kind)
    (hk : p.kind.isRun = true) (hlook : Looking s) : effect r s c = .begin ↔ p.Ends c := by
  have hne := h.ne_nil
  have hmem := List.getLast_mem hne
  rw [effect_eq_begin_iff, hlook _ (List.getLast?_eq_some_getLast hne), Option.any_some,
    Option.any_some, Token.Ends]
  by_cases hnumber : p.kind = .number
  · rw [hnumber] at h
    have hn := h.numeral.numeric _ hmem
    simp [hnumber, hn, not_isLetter_of_isNumeric hn, hne]
  · have hl := h.letters hk hnumber _ hmem
    simp [hnumber, hl, not_isNumeric_of_isLetter hl, hne]

/-- **Tokens are written in no more characters than they were scanned from.** -/
theorem Scans.length_text {s : State} {position : Nat} {cs : List Char} {ts : List Token}
    (h : Scans r s position cs ts) {prev : Option Token} {spare : Nat} (hlook : Looking s)
    (hroom : Room prev s spare) :
    (Token.textAfter prev ts).length ≤ spare + s.run.length + cs.length := by
  induction h generalizing prev spare with
  | finish hflush =>
    exact Nat.le_trans (hflush.length_text hroom _) (by simp [Token.textAfter_finish])
  | @join s position c cs ts _ _ ih =>
    have hgathered : Room prev (s.gather c position) spare := by
      refine hroom.imp_right fun hroom p hp hrun => ?_
      obtain ⟨d, hd, hends⟩ := hroom p hp hrun
      exact ⟨d, by simp [State.gather, hd], hends⟩
    have hlen := ih (Looking.gather s c position) hgathered
    simp only [State.gather, List.length_append, List.length_cons, List.length_nil] at hlen ⊢
    omega
  | @begin s position c cs ts s' ts' he hflush _ ih =>
    have hlen := hflush.length_text hroom ts'
    obtain ⟨t, rfl, hends⟩ : ∃ t, ts = [t] ∧ t.Ends c := by
      cases hflush with
      | nothing hnil => exact absurd hnil (effect_eq_begin_iff.1 he).1
      | @run k _ hlex hk =>
        let p : Token := ⟨k, String.ofList s.run, s.start⟩
        exact ⟨p, rfl, (begins_iff_ends (p := p) hlex hk hlook).1 he⟩
    have hbegun : Room (some t) (s'.gather c position) 0 := by
      refine .inr fun p hp _ => ⟨c, by simp [State.gather, hflush.run_eq_nil], ?_⟩
      obtain rfl := Option.some.inj hp
      exact hends
    have hrest := ih (Looking.gather s' c position) hbegun
    simp only [State.gather, hflush.run_eq_nil, List.nil_append, List.length_cons,
      List.length_nil, List.getLast?_singleton, Option.some_or] at hlen hrest ⊢
    omega
  | skip _ _ ih =>
    have hlen := ih hlook hroom
    simp only [List.length_cons]
    omega
  | @token s position c cs ts s' k ts' he hflush _ ih =>
    obtain ⟨hlex, hk⟩ := lexeme_of_effect he
    have hnil : (s'.close k c).run = [] := hflush.run_eq_nil
    have hclosed : Room (some (single k c position)) (s'.close k c) 0 := by
      refine .inr fun p hp hrun => ?_
      obtain rfl := Option.some.inj hp
      rw [show (single k c position).kind = k from rfl, hk] at hrun
      cases hrun
    have hlen := hflush.length_text hroom (single k c position :: ts')
    have hrest := ih (Looking.of_nil hnil) hclosed
    have hvalue : (single k c position).value.toList = [c] := by
      simp [single]
    have hspace : (ts.getLast?.or prev).any (·.merges (single k c position)) = false :=
      Token.any_merges_of_right hk
    rw [Token.textAfter_cons hlex.ne_finish, hspace, hvalue, if_neg Bool.false_ne_true,
      List.nil_append, List.singleton_append, List.length_cons] at hlen
    rw [hnil, List.length_nil] at hrest
    rw [List.length_cons]
    omega
  | @space s position c cs ts s' ts' _ hflush _ ih =>
    have hlen := hflush.length_text hroom ts'
    have hspare : Room (ts.getLast?.or prev) { s' with previous := some c } 1 := .inl Nat.one_pos
    have hrest := ih (Looking.of_nil hflush.run_eq_nil) hspare
    simp only [hflush.run_eq_nil, List.length_nil, List.length_cons] at hrest ⊢
    omega

end Scanner

end Reckon
