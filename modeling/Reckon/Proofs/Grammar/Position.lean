/-
Where a text is wrong. What the scanner and the reader have against a text is
told of a position in it, the end included, and names texts that are from it
(`parseText_eq_error`). Only where a limit is exceeded no position is told.

What the reader has against it is told of the first token that nothing can make
good (`parseText_offence`): those before it can be gone on with to a sentence,
and with it they cannot.
-/
import Reckon.Proofs.Grammar.Outcomes
import Reckon.Proofs.Token.Position

namespace Reckon

/-- The diagnostic is told of a position in the source, and names texts that are on one line. -/
structure Diagnostic.Placed (source : String) (d : Diagnostic) : Prop where
  kind : d.kind ≠ .limit
  text : d.source = some source
  position : ∃ i : Nat, d.position = some (i : Int) ∧ i ≤ source.length
  oneLine : ∀ text ∈ d.cause.texts, OneLine text

variable {source : String}

theorem Diagnostic.Lexical.placed {d : Diagnostic} (h : d.Lexical source)
    (hline : OneLine source) : d.Placed source ∧ d.kind = .lex := by
  obtain ⟨hsource, problem, text, position, hcause, htexts, hposition, hstands⟩ := h
  have hkind : d.kind = .lex := by
    rw [Diagnostic.kind, hcause]
    rfl
  obtain ⟨i, rfl, hle, _⟩ := hstands.begins
  refine ⟨⟨by simp [hkind], hsource, ⟨i, hposition, hle⟩, fun named hnamed => ?_⟩, hkind⟩
  rw [hcause, Cause.texts, htexts] at hnamed
  obtain rfl := List.mem_singleton.1 hnamed
  exact hstands.oneLine hline

/-- A problem at one of the tokens is told of its position. -/
theorem Grammar.Refused.placed {g : Grammar} {p : Outlook} {tokens : List Token} {f : Failure}
    (h : g.Refused p ⟨0, tokens⟩ f) (hg : g.source = some source)
    (htokens : ∀ t ∈ tokens, t.StandsIn source) (hline : OneLine source) :
    (∃ limit bound actual, f = .diagnostic { cause := .limitExceeded limit bound actual }) ∨
      ∃ d, f = .diagnostic d ∧ d.Placed source ∧ d.kind = .grammar := by
  cases h with
  | limit => exact .inl ⟨_, _, _, rfl⟩
  | @problem before t rest problem hbefore habout =>
    dsimp only at hbefore
    obtain ⟨i, hi, hle, _⟩ := (htokens t (by simp [hbefore])).begins
    refine .inr ⟨_, rfl, ⟨nofun, hg, ⟨i, congrArg some hi, hle⟩, fun text htext => ?_⟩, rfl⟩
    obtain ⟨t', ht', rfl⟩ := habout.texts text htext
    exact (htokens t' ht').oneLine hline

/-- **A text that is not parsed exceeds a limit, or is told to be wrong at a position.** -/
theorem parseText_eq_error {r : Registry} (hr : r.Reached) (hline : OneLine source)
    {limits : Limits} {f : Failure} (h : parseText source r limits = .error f) :
    (∃ limit bound actual, f = .diagnostic { cause := .limitExceeded limit bound actual }) ∨
      ∃ d, f = .diagnostic d ∧ d.Placed source ∧ (d.kind = .lex ∨ d.kind = .grammar) := by
  rw [parseText, bind_eq_error] at h
  rcases h with h | ⟨tokens, htokens, h⟩
  · obtain ⟨d, hd, rfl⟩ := mapError_eq_error.1 h
    rcases tokenize_eq_error hd with ⟨limit, bound, actual, rfl⟩ | hlexical
    · exact .inl ⟨limit, bound, actual, rfl⟩
    · obtain ⟨hplaced, hkind⟩ := hlexical.placed hline
      exact .inr ⟨d, rfl, hplaced, .inl hkind⟩
  · have htokens := mapError_eq_ok.1 htokens
    have hrefused := refused_of_tokenize hr htokens h
    rcases hrefused.placed rfl (standsIn_of_tokenize htokens) hline with
      hlimit | ⟨d, hd, hplaced, hkind⟩
    · exact .inl hlimit
    · exact .inr ⟨d, hd, hplaced, .inr hkind⟩

/-! ## The first offending token -/

namespace Registry

/-- Some sentence begins with the tokens before the token, and none with the token as well; if it is
the end, they are no sentence themselves. -/
structure Offends (r : Registry) (before : List Token) (t : Token) : Prop where
  begins : ∃ more, r.Sentence (before ++ more)
  ends : ∀ more, ¬ r.Sentence (before ++ t :: more)
  incomplete : t.kind = .finish → ¬ r.Sentence before

/-- The token and those after it begin with a call whose function does not take its arguments, and
the problem is their count. -/
def Rejects (r : Registry) (t : Token) (rest : List Token) (problem : GrammarProblem) : Prop :=
  ∃ o a args b more, Derives r .primary (.call t o a args b) ∧
    t :: rest = (Derivation.call t o a args b).tokens ++ more ∧
    o.accepts args.exprs.length = false ∧
    problem = .argumentCount o.name o.operandCount args.exprs.length

variable {r : Registry} {before rest : List Token} {t : Token} {problem : GrammarProblem}

theorem Blames.rejects (h : r.Blames .start before t rest problem) (hcount : problem.IsCount) :
    r.Rejects t rest problem := by
  cases h with
  | stuck _ _ _ hne => exact absurd hcount hne
  | rejected hcall htokens haccepts => exact ⟨_, _, _, _, _, hcall, htokens, haccepts, rfl⟩

theorem Blames.offends (hr : r.Reached) (h : r.Blames .start before t rest problem)
    (hcount : ¬ problem.IsCount) : r.Offends before t := by
  cases h with
  | rejected => exact absurd trivial hcount
  | @stuck q _ hruns hstuck hend =>
    refine ⟨(exists_sentence_iff hr).2 ⟨q, hruns⟩, fun more hsentence => ?_, fun hk hsentence => ?_⟩
    · -- a sentence would run on from where the tokens before lead
      obtain ⟨p, hbefore, hmore⟩ := hsentence.runs.split
      obtain rfl := hbefore.unique hruns
      cases hmore with
      | cons hstep => exact hstuck _ hstep
    · exact hend hk (hruns.unique hsentence.runs)

end Registry

/-- **What is wrong is told of the first offending token.** Where a text has tokens and its grammar
is broken, the token that is told of has the index and the position that are told. Either it names a
function that does not take as many arguments as its call has, or some sentence begins with the
tokens before it but none with it besides; and if it is the end, those before it are no sentence. -/
theorem parseText_offence {r : Registry} (hr : r.Reached) {limits : Limits} {tokens : List Token}
    (htokens : tokenize source r limits = .ok tokens) {d : Diagnostic}
    (h : parseText source r limits = .error (.diagnostic d)) (hkind : d.kind = .grammar) :
    ∃ problem before t rest, tokens = before ++ t :: rest ∧
      d.cause = .grammar problem (some before.length) ∧ d.position = some t.position ∧
      (problem.IsCount → r.Rejects t rest problem) ∧ (¬ problem.IsCount → r.Offends before t) := by
  rw [parseText, htokens] at h
  obtain ⟨problem, before, t, rest, hbefore, hcause, hposition, _, hblames⟩ :=
    (refused_of_tokenize hr htokens h).blames hkind
  exact ⟨problem, before, t, rest, hbefore, hcause, hposition, hblames.rejects,
    hblames.offends hr⟩

/-- A name where a parenthesis should be closed is told of, and not the parenthesis. -/
theorem parseText_offence_unclosed :
    ∃ tokens, tokenize "(x y)*2" .standard .standard = .ok tokens ∧
      parseText "(x y)*2" .standard .standard = .error (.diagnostic {
        cause := .grammar .missingClose (some 2)
        position := some 3
        source := some "(x y)*2" }) ∧
      (∃ more, Registry.standard.Sentence (tokens.take 2 ++ more)) ∧
      ∀ more, ¬ Registry.standard.Sentence (tokens.take 3 ++ more) := by
  obtain ⟨tokens, htokens⟩ := exists_of_isOk
    (show (tokenize "(x y)*2" .standard .standard).isOk = true by decide +kernel)
  have h : parseText "(x y)*2" .standard .standard = .error (.diagnostic {
      cause := .grammar .missingClose (some 2)
      position := some 3
      source := some "(x y)*2" }) := by
    have hfailed : (match parseText "(x y)*2" .standard .standard with
        | .error f => f == .diagnostic ⟨.grammar .missingClose (some 2), some 3, some "(x y)*2"⟩
        | .ok _ => false) = true := by decide +kernel
    split at hfailed
    · next hf => rw [hf, beq_iff_eq.1 hfailed]
    · cases hfailed
  obtain ⟨problem, before, t, rest, rfl, hcause, _, _, hoffends⟩ :=
    parseText_offence Registry.standard_reached htokens h rfl
  obtain ⟨rfl, hindex⟩ := Cause.grammar.inj hcause
  have hlength : before.length = 2 := Int.ofNat.inj (Option.some.inj hindex).symm
  obtain ⟨hbegins, hends, _⟩ := hoffends id
  refine ⟨_, htokens, h, ?_, ?_⟩
  · rwa [← hlength, List.take_left]
  · have htake : (before ++ t :: rest).take 3 = before ++ [t] := by
      rw [List.take_append, hlength]
      simp [List.take_of_length_le, hlength]
    rw [htake]
    simpa using hends

end Reckon
