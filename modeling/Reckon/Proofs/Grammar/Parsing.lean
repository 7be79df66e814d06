/-
The parser is the grammar: it makes a tree of exactly the expressions that the
grammar derives, up to the limits, and what it makes is the abstract syntax of
the one derivation there is (`Grammar.parse_grammar`).

Precedence shows in the shape of derivations (`Derivation.Grouped`): operators of
equal precedence group to the left, and no infix operator stands right under a
minus sign.
-/
import Reckon.Proofs.Decimal.Numeral
import Reckon.Proofs.Grammar.Laying
import Reckon.Proofs.Grammar.Measures
import Reckon.Proofs.Grammar.Uniqueness
import Reckon.Proofs.Token.Scan

namespace Reckon

/-! ## Grouping -/

/-- The infix operator at the top of a derivation, unless it stands in parentheses. -/
def Derivation.operator? : Derivation → Option Operation
  | binary _ _ o _ => some o
  | _ => none

/-- The operators in a left operand bind at least as tightly, those in a right one more tightly,
and under a minus sign there are none. -/
def Derivation.Grouped : Derivation → Prop
  | operand d | plain d | group _ d _ => d.Grouped
  | binary left _ o right => left.Grouped ∧ right.Grouped ∧
      (∀ o' ∈ left.operator?, o.precedence ≤ o'.precedence) ∧
      (∀ o' ∈ right.operator?, o.precedence < o'.precedence)
  | negation _ u => u.Grouped ∧ u.operator? = none
  | call _ _ _ args _ => args.Grouped
  | number _ _ | name _ | noArguments | noFurther => True
  | arguments d rest | further _ d rest => d.Grouped ∧ rest.Grouped

theorem Derives.precedence_le {r : Registry} {p d} (h : Derives r (.level p) d) :
    ∀ o ∈ d.operator?, p ≤ o.precedence := by
  cases h with
  | operand => simp [Derivation.operator?]
  | binary _ _ hp _ => simpa [Derivation.operator?] using hp

theorem Derives.grouped {r : Registry} {s d} (h : Derives r s d) : d.Grouped := by
  induction h with
  | operand _ ih | plain _ ih | group _ _ _ ih | call _ _ _ _ ih => exact ih
  | binary hl _ _ hr ihl ihr =>
    exact ⟨ihl, ihr, hl.precedence_le, fun o' ho' => hr.precedence_le o' ho'⟩
  | negation _ _ hu ih => exact ⟨ih, by cases hu <;> rfl⟩
  | number | name | noArguments | noFurther => trivial
  | arguments _ _ ihd ihr | further _ _ _ ihd ihr => exact ⟨ihd, ihr⟩

/-! ## The parser -/

namespace Grammar

/-- The builder tells no error in an expression, so the limit of nodes is left. -/
theorem isLimit_of_finish {g : Grammar} {e : Expr} {diagnostic : Diagnostic}
    (h : g.finish e = .error (.diagnostic diagnostic)) :
    (Failure.diagnostic diagnostic).IsLimit := by
  simp only [finish, bind_eq_error] at h
  rcases h with h | ⟨t, _, h | ⟨_, _, h⟩⟩
  · obtain ⟨_, _, h⟩ := mapError_eq_error.1 h
    cases h
  · exact isLimit_of_check h
  · cases h

/-- Reading the tokens of a derivation fails at limits only. -/
theorem parse_of_derives {g : Grammar} {tokens : List Token} {d : Derivation}
    (h : Derives g.registry (.level 1) d) (hacc : d.Accepted) (ht : d.tokens = body tokens)
    {diagnostic : Diagnostic} (hp : g.parse tokens = .error (.diagnostic diagnostic)) :
    diagnostic.kind = .limit := by
  suffices hlimit : (Failure.diagnostic diagnostic).IsLimit by
    obtain ⟨_, heq, hk⟩ := hlimit
    exact Failure.diagnostic.inj heq ▸ hk
  obtain ⟨e, he⟩ := h.single trivial
  simp only [parse_eq_whole, whole_eq h hacc ht he, bind_eq_error] at hp
  rcases hp with (hp | ⟨_, _, hp⟩) | ⟨e, _, hp⟩
  · exact Derivation.isLimit_of_within hp
  · cases hp
  · exact isLimit_of_finish hp

theorem parse_eq_ok {g : Grammar} {tokens : List Token} {t : Tree} (h : g.parse tokens = .ok t) :
    ∃ e, g.whole tokens = .ok e ∧ Tree.ofExpr e g.source = .ok t := by
  rw [parse_eq_whole, bind_eq_ok] at h
  obtain ⟨e, he, h⟩ := h
  exact ⟨e, he, (finish_eq_ok.1 h).1⟩

theorem stopsAt_nil {r : Registry} {p : Int} : r.StopsAt p [] := by simp [Registry.StopsAt]

/-- **The parser is the grammar.** Numbers can be read, and registered operators are all operators
of the level that the grammar begins with. A tree comes of a derivation of all tokens before the
end, which is the only one; the tree shows what that derivation stands for, and has no other nodes.
Where the parser finds fault with the syntax, no derivation has functions that all take their
arguments. -/
theorem parse_grammar {r : Registry} {text : String} {lexing limits : Limits}
    {source : Option String} {tokens : List Token} (h : tokenize text r lexing = .ok tokens) :
    (∀ t ∈ tokens, t.kind = .number → (Decimal.read? t.value).isSome) ∧
    (r.Reached → ∀ t o, r.InfixToken t o → 1 ≤ o.precedence) ∧
    (∀ tree, Grammar.parse ⟨r, limits, source⟩ tokens = .ok tree →
      ∃ d e, Derives r (.level 1) d ∧ d.Accepted ∧ d.tokens = body tokens ∧
        (∀ d', Derives r (.level 1) d' → d'.tokens = body tokens → d' = d) ∧
        d.exprs = [e] ∧ tree.Shows e ∧ tree.size = e.size ∧ d.Grouped) ∧
    (∀ diagnostic, Grammar.parse ⟨r, limits, source⟩ tokens = .error (.diagnostic diagnostic) →
      diagnostic.kind = .grammar →
      ¬∃ d, Derives r (.level 1) d ∧ d.Accepted ∧ d.tokens = body tokens) := by
  refine ⟨?_, fun hr t o ho => hr.one_le_precedence ho.2.1 ho.2.2, ?_, ?_⟩
  · intro t ht hk
    obtain ⟨lexemes, n, rfl, hlex⟩ := tokenize_lexeme h
    rw [List.mem_append, List.mem_singleton] at ht
    rcases ht with ht | rfl
    · exact (Lexeme.numeral (hk ▸ hlex t ht)).read
    · cases hk
  · intro tree hparse
    obtain ⟨e, hwhole, htree⟩ := parse_eq_ok hparse
    obtain ⟨d, hd, hacc, hes, ht⟩ := whole_derives hwhole
    refine ⟨d, e, hd, hacc, ht, ?_, hes, Tree.shows_ofExpr htree, ?_, hd.grouped⟩
    · intro d' hd' ht'
      exact (hd'.unique hd stopsAt_nil stopsAt_nil (by rw [ht', ht])).1
    · obtain ⟨hcells, _⟩ := Tree.ofExpr_eq_ok htree
      have := congrArg List.length hcells
      simpa [Tree.cells, Tree.size] using this
  · rintro diagnostic hparse hkind ⟨d, hd, hacc, ht⟩
    have hlimit := parse_of_derives (g := ⟨r, limits, source⟩) hd hacc ht hparse
    simp [hlimit] at hkind

/-- A difference of differences has one derivation, which groups to the left. -/
theorem parse_grammar_differences :
    let tokens : List Token := [⟨.number, "8", 0⟩, ⟨.operator, "-", 1⟩, ⟨.identifier, "x", 2⟩,
      ⟨.operator, "-", 3⟩, ⟨.number, "1", 4⟩, ⟨.finish, "", 5⟩]
    tokenize "8-x-1" .standard .standard = .ok tokens ∧
      (∀ t o, Registry.standard.InfixToken t o → 1 ≤ o.precedence) ∧
      ∃ tree, Grammar.parse ⟨.standard, .standard, none⟩ tokens = .ok tree ∧
        ∃ d e, Derives .standard (.level 1) d ∧ d.tokens = body tokens ∧
          (∀ d', Derives .standard (.level 1) d' → d'.tokens = body tokens → d' = d) ∧
          d.exprs = [e] ∧ tree.Shows e ∧ d.Grouped := by
  have hread : tokenize "8-x-1" .standard .standard = .ok _ := rfl
  have hgrammar := @parse_grammar .standard _ .standard .standard none _ hread
  have hok : (Grammar.parse ⟨.standard, .standard, none⟩ [⟨.number, "8", 0⟩, ⟨.operator, "-", 1⟩,
      ⟨.identifier, "x", 2⟩, ⟨.operator, "-", 3⟩, ⟨.number, "1", 4⟩, ⟨.finish, "", 5⟩]).isOk =
      true := by
    decide +kernel
  obtain ⟨tree, htree⟩ := exists_of_isOk hok
  obtain ⟨d, e, hd, _, ht, hunique, he, hshows, _, hgrouped⟩ := hgrammar.2.2.1 tree htree
  exact ⟨hread, hgrammar.2.1 Registry.standard_reached, tree, htree, d, e, hd, ht, hunique, he,
    hshows, hgrouped⟩

end Grammar

end Reckon
