/-
The text of tokens is the shortest that they can be read from
(`length_text_le_of_forms`): no source is shorter than the text of its tokens,
and tokens of the same forms have the same text. So nothing can be taken out of
it without changing what is read, and of what there is besides the values of the
tokens, single spaces (`Token.Spaced`), there is none too many
(`tokenize_text_spaces`).
-/
import Reckon.Proofs.Token.Skipping

namespace Reckon

/-- The characters are the values of tokens in order, with at most one space between two of them. -/
inductive Token.Spaced : List Token → List Char → Prop
  | nil : Spaced [] []
  | single (t) : Spaced [t] t.value.toList
  | adjacent (t) {t' ts cs} : Spaced (t' :: ts) cs → Spaced (t :: t' :: ts) (t.value.toList ++ cs)
  | spaced (t) {t' ts cs} : Spaced (t' :: ts) cs →
      Spaced (t :: t' :: ts) (t.value.toList ++ ' ' :: cs)

namespace Token

/-- Behind a token the others are written, a space before them or not. -/
theorem spaced_textAfter {body : List Token} (hbody : ∀ t ∈ body, t.kind ≠ .finish) {n : Int}
    (t : Token) :
    Spaced (t :: body) (t.value.toList ++ textAfter (some t) (body ++ [finish n])) := by
  induction body generalizing t with
  | nil => simpa [textAfter_finish] using Spaced.single t
  | cons t' body ih =>
    obtain ⟨ht', hbody⟩ := List.forall_mem_cons.1 hbody
    rw [List.cons_append, textAfter_cons ht', List.append_assoc]
    split
    · exact .spaced t (ih hbody t')
    · exact .adjacent t (ih hbody t')

/-- The text of tokens is their values and single spaces. -/
theorem spaced_text {body : List Token} (hbody : ∀ t ∈ body, t.kind ≠ .finish) (n : Int) :
    Spaced body (text (body ++ [finish n])).toList := by
  rw [text, String.toList_ofList]
  cases body with
  | nil => exact .nil
  | cons t body =>
    obtain ⟨ht, hbody⟩ := List.forall_mem_cons.1 hbody
    rw [List.cons_append, textAfter_cons ht]
    exact spaced_textAfter hbody t

end Token

/-- A comma is a token by itself. -/
theorem Lexeme.eq_comma {r : Registry} (hr : r.Reached) {cs : List Char} {k : TokenKind}
    (h : Lexeme r cs k) (hmem : ',' ∈ cs) : cs = [','] ∧ k = .comma := by
  cases h with
  | function _ hl | identifier _ hl => exact absurd (hl ',' hmem) (by decide)
  | number h => exact absurd (h.numeric ',' hmem) (by decide)
  | comma => exact ⟨rfl, rfl⟩
  | leftParen | rightParen => simp at hmem
  | operator hop =>
    obtain rfl := List.mem_singleton.1 hmem
    exact absurd rfl (isSymbol_eq_true (hr.isSymbol hop)).2.2.2.2.1

/-- **No source with tokens of these forms is shorter than their text.** -/
theorem length_text_le_of_forms {source : String} {r : Registry} {limits : Limits}
    {tokens again : List Token} (h : tokenize source r limits = .ok again)
    (hforms : again.map Token.form = tokens.map Token.form) :
    (Token.text tokens).length ≤ source.length := by
  have htext : Token.text tokens = Token.text again := by
    rw [Token.text, Token.text, Token.textAfter_congr rfl hforms.symm]
  exact htext ▸ length_text_le h

theorem length_erase {source : String} {k : Nat} (hk : k < source.toList.length) :
    (erase source k).length + 1 = source.length := by
  rw [← String.length_toList, ← String.length_toList, erase, String.toList_ofList,
    List.length_eraseIdx_of_lt hk]
  omega

/-- **No space is written that could be left out.** The text of the tokens of a source is their
values, with at most one space between two of them; no value has white space in it, and a comma
only if it is one that separates arguments. Whatever source has tokens of the same forms is at
least as long, so that without any of the spaces the text is refused or read as other tokens. -/
theorem tokenize_text_spaces {source : String} {r : Registry} {limits : Limits}
    {tokens : List Token} (hr : r.Reached) (h : tokenize source r limits = .ok tokens) :
    (∃ body n, tokens = body ++ [Token.finish n] ∧
      Token.Spaced body (Token.text tokens).toList ∧
      ∀ t ∈ body, ∀ c ∈ t.value.toList,
        Text.isBlank c = false ∧ (c = ',' → t.value = "," ∧ t.kind = .comma)) ∧
    (∀ source' limits' again, tokenize source' r limits' = .ok again →
      again.map Token.form = tokens.map Token.form →
        (Token.text tokens).length ≤ source'.length) ∧
    ∀ k, (Token.text tokens).toList[k]? = some ' ' → ∀ limits' again,
      tokenize (erase (Token.text tokens) k) r limits' = .ok again →
        again.map Token.form ≠ tokens.map Token.form := by
  obtain ⟨body, n, rfl, hlex⟩ := tokenize_lexeme h
  refine ⟨⟨body, n, rfl, Token.spaced_text (fun t ht => (hlex t ht).ne_finish) n,
    fun t ht c hc => ⟨(hlex t ht).not_isBlank hr c hc, ?_⟩⟩,
    fun _ _ _ hagain => length_text_le_of_forms hagain, fun k hk limits' again hagain hforms => ?_⟩
  · rintro rfl
    exact ((hlex t ht).eq_comma hr hc).imp_left fun hvalue => String.toList_inj.1 hvalue
  · have hle := length_text_le_of_forms hagain hforms
    have hlength := length_erase (List.getElem?_eq_some_iff.1 hk).1
    omega

/-- A numeral that begins with a point would go on with the word before it, and the word behind it
would not. -/
theorem tokenize_text_spaces_point : ∃ tokens,
    tokenize "1,000 * a  .5 b" .standard .standard = .ok tokens ∧
    Token.text tokens = "1000*a .5b" ∧ erase "1000*a .5b" 6 = "1000*a.5b" ∧
    ∀ again, tokenize "1000*a.5b" .standard .standard = .ok again →
      again.map Token.form ≠ tokens.map Token.form := by
  have hread : tokenize "1,000 * a  .5 b" .standard .standard = .ok [⟨.number, "1000", 0⟩,
      ⟨.operator, "*", 6⟩, ⟨.identifier, "a", 8⟩, ⟨.number, ".5", 11⟩, ⟨.identifier, "b", 14⟩,
      ⟨.finish, "", 15⟩] := rfl
  obtain ⟨_, _, hneeded⟩ := tokenize_text_spaces Registry.standard_reached hread
  exact ⟨_, hread, rfl, rfl, fun again => hneeded 6 rfl .standard again⟩

end Reckon
