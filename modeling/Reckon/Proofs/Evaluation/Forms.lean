/-
A text means what its tokens mean. Texts whose tokens are of the same forms are
parsed alike (`Likeness.parseText_like`), wherever the tokens stand: to trees
that differ in positions and source only, or with failures of the same cause.

The text that is written of the tokens of a source has tokens of their forms, so
it may stand for the source (`parseText_text`).
-/
import Reckon.Proofs.Evaluation.Likeness
import Reckon.Proofs.Grammar.Outcomes
import Reckon.Proofs.Token.RoundTrip

namespace Reckon

/-- Failures that differ at most in where they are told. Of a diagnostic the cause is the same, and
with it the kind, the message, and the place among the tokens or the limit that is exceeded. -/
inductive Failure.SameCause : Failure → Failure → Prop
  | diagnostic {d d'} : d'.cause = d.cause → SameCause (.diagnostic d) (.diagnostic d')
  | fault (f) : SameCause (.fault f) (.fault f)

namespace Likeness

theorem FailureLike.sameCause {ρ : Likeness} {f f' : Failure} (h : ρ.FailureLike f f') :
    f.SameCause f' := by
  cases h with
  | diagnostic hd => exact .diagnostic hd.cause
  | fault f => exact .fault f

/-- Tokens of the same forms are alike but for their positions. -/
theorem tokens_like (r : Registry) {tokens tokens' : List Token}
    (h : tokens'.map Token.form = tokens.map Token.form) :
    List.Forall₂ (Likeness.unplaced.TokenLike r r) tokens tokens' := by
  induction tokens generalizing tokens' with
  | nil =>
    obtain rfl := List.map_eq_nil_iff.1 h
    exact .nil
  | cons t tokens ih =>
    obtain ⟨t', tokens', rfl, ht, hts⟩ := List.map_eq_cons_iff.1 h
    obtain ⟨hk, hv⟩ := Prod.mk.inj ht
    refine .cons ⟨hk, hv, trivial, fun _ => ?_⟩ (ih hts)
    cases r.get? t.value with
    | none => exact .none
    | some o => exact .some rfl

/-- **Texts whose tokens are of the same forms are parsed alike.** -/
theorem parseText_like {r : Registry} {limits : Limits} {source source' : String}
    {tokens tokens' : List Token} (h : tokenize source r limits = .ok tokens)
    (h' : tokenize source' r limits = .ok tokens')
    (hforms : tokens'.map Token.form = tokens.map Token.form) :
    unplaced.Alike unplaced.TreeLike (parseText source r limits) (parseText source' r limits) := by
  have hparse : unplaced.Alike unplaced.TreeLike (Grammar.parse ⟨r, limits, some source⟩ tokens)
      (Grammar.parse ⟨r, limits, some source'⟩ tokens') := by
    refine parse_like ?_ ?_ (tokens_like r hforms)
    · rfl
    · trivial
  rw [parseText, parseText, h, h']
  exact hparse

end Likeness

/-- **The text of the tokens of a source means what the source means.** It is parsed to the same
tree but for positions and source, which under all bindings and policies has the same number or
fails for the same cause; and if the source is refused, by the grammar or by a limit, the text is
refused for the same cause. -/
theorem parseText_text {source : String} {r : Registry} {limits : Limits} {tokens : List Token}
    (hr : r.Reached) (h : tokenize source r limits = .ok tokens) :
    (∀ t, parseText source r limits = .ok t →
      ∃ t', parseText (Token.text tokens) r limits = .ok t' ∧ t'.unplaced = t.unplaced ∧
        ∀ bindings policy, Alike Failure.SameCause Eq (t.evaluate bindings policy)
          (t'.evaluate bindings policy)) ∧
    ∀ f, parseText source r limits = .error f →
      ∃ d d', f = .diagnostic d ∧ parseText (Token.text tokens) r limits = .error (.diagnostic d') ∧
        d'.cause = d.cause ∧ (d.kind = .grammar ∨ d.kind = .limit) := by
  obtain ⟨again, hagain, hforms⟩ := exists_tokenize_text hr h
  have hlike := Likeness.parseText_like h hagain hforms
  constructor
  · intro t ht
    rw [ht] at hlike
    generalize parseText (Token.text tokens) r limits = x at hlike ⊢
    cases hlike with
    | ok htree =>
      refine ⟨_, rfl, htree.unplaced_eq, fun bindings policy => ?_⟩
      exact (Likeness.evaluate_like htree bindings policy).mono (fun _ _ hf => hf.sameCause)
        fun _ _ hx => hx
  · intro f hf
    -- the source has been scanned, so it is refused by the reader
    have hrefused : Grammar.parse ⟨r, limits, some source⟩ tokens = .error f := by
      rw [parseText, h] at hf
      exact hf
    obtain ⟨d, rfl, hkind⟩ := (refused_of_tokenize hr h hrefused).kind
    rw [hf] at hlike
    generalize parseText (Token.text tokens) r limits = x at hlike ⊢
    cases hlike with
    | error hfailure =>
      cases hfailure with
      | diagnostic hd => exact ⟨d, _, rfl, rfl, hd.cause, hkind⟩

/-- A product typed with spaces has a tree and the same one without them, and two names with no
operator between them are refused at the same token. -/
theorem parseText_text_spaces :
    Registry.standard.Reached ∧
    (∃ tokens t t', tokenize "2 * (x - 1,000)" .standard .standard = .ok tokens ∧
      Token.text tokens = "2*(x-1000)" ∧
      parseText "2 * (x - 1,000)" .standard .standard = .ok t ∧
      parseText "2*(x-1000)" .standard .standard = .ok t' ∧ t'.unplaced = t.unplaced) ∧
    ∃ tokens d d', tokenize "2 * a  b" .standard .standard = .ok tokens ∧
      Token.text tokens = "2*a b" ∧
      parseText "2 * a  b" .standard .standard = .error (.diagnostic d) ∧
      parseText "2*a b" .standard .standard = .error (.diagnostic d') ∧
      d.cause = .grammar (.unexpectedToken "b") (some 3) ∧ d'.cause = d.cause := by
  have hr := Registry.standard_reached
  refine ⟨hr, ?_, ?_⟩
  · have htokens : tokenize "2 * (x - 1,000)" .standard .standard = .ok [⟨.number, "2", 0⟩,
        ⟨.operator, "*", 2⟩, ⟨.leftParen, "(", 4⟩, ⟨.identifier, "x", 5⟩, ⟨.operator, "-", 7⟩,
        ⟨.number, "1000", 9⟩, ⟨.rightParen, ")", 14⟩, ⟨.finish, "", 15⟩] := by decide +kernel
    obtain ⟨t, ht⟩ := exists_of_isOk
      (show (parseText "2 * (x - 1,000)" .standard .standard).isOk = true by decide +kernel)
    obtain ⟨t', ht', hunplaced, _⟩ := (parseText_text hr htokens).1 t ht
    exact ⟨_, t, t', htokens, rfl, ht, ht', hunplaced⟩
  · have htokens : tokenize "2 * a  b" .standard .standard = .ok [⟨.number, "2", 0⟩,
        ⟨.operator, "*", 2⟩, ⟨.identifier, "a", 4⟩, ⟨.identifier, "b", 7⟩,
        ⟨.finish, "", 8⟩] := by decide +kernel
    have hrefused : (match parseText "2 * a  b" .standard .standard with
      | .error f => f == .diagnostic
        ⟨.grammar (.unexpectedToken "b") (some 3), some 7, some "2 * a  b"⟩
      | .ok _ => false) = true := by decide +kernel
    split at hrefused
    · next f hf =>
      obtain rfl := beq_iff_eq.1 hrefused
      obtain ⟨d, d', hd, hd', hcause, _⟩ := (parseText_text hr htokens).2 _ hf
      obtain rfl := Failure.diagnostic.inj hd
      exact ⟨_, _, d', htokens, rfl, hf, hd', rfl, hcause⟩
    · cases hrefused

end Reckon
