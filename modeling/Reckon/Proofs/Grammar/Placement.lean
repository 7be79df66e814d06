/-
The grammar does not look at positions: tokens of the same forms are spelled by
derivations of the same shape (`Derives.replace`), and stand for the same
expression but for the positions in it (`Expr.unplaced`).
-/
import Reckon.Proofs.Grammar.Derivation
import Reckon.Proofs.Token.RoundTrip

namespace Reckon

namespace Expr

mutual

/-- The expression as if all its tokens stood at the beginning. -/
def unplaced : Expr → Expr
  | number value _ => .number value 0
  | var name _ => .var name 0
  | apply o operands _ => .apply o (unplacedAll operands) 0
termination_by structural e => e

def unplacedAll : List Expr → List Expr
  | [] => []
  | e :: es => unplaced e :: unplacedAll es
termination_by structural es => es

end

@[simp] theorem unplacedAll_eq_map : ∀ es : List Expr, unplacedAll es = es.map unplaced
  | [] => rfl
  | e :: es => by rw [unplacedAll, unplacedAll_eq_map es, List.map_cons]

end Expr

/-! ## Derivations -/

theorem Token.form_eq {t t' : Token} (h : t'.form = t.form) :
    t'.kind = t.kind ∧ t'.value = t.value := Prod.mk.inj h

theorem Registry.InfixToken.congr {r : Registry} {t t' : Token} {o : Operation}
    (h : r.InfixToken t o) (ht : t'.form = t.form) : r.InfixToken t' o := by
  obtain ⟨hk, hv⟩ := Token.form_eq ht
  exact ⟨hk.trans h.1, hv ▸ h.2.1, h.2.2⟩

theorem Registry.FunctionToken.congr {r : Registry} {t t' : Token} {o : Operation}
    (h : r.FunctionToken t o) (ht : t'.form = t.form) : r.FunctionToken t' o := by
  obtain ⟨hk, hv⟩ := Token.form_eq ht
  exact ⟨hk.trans h.1, hv ▸ h.2.1, h.2.2⟩

/-- The second derivation spells the tokens as the first one spells its own. -/
structure Derivation.Replaced (r : Registry) (s : Symbol) (d : Derivation) (ts : List Token)
    (d' : Derivation) : Prop where
  derives : Derives r s d'
  tokens : d'.tokens = ts
  exprs : d'.exprs.map Expr.unplaced = d.exprs.map Expr.unplaced
  accepted : d.Accepted → d'.Accepted

/-- **Tokens of the same forms are derived alike.** -/
theorem Derives.replace {r : Registry} {s d} (h : Derives r s d) {ts : List Token}
    (hts : ts.map Token.form = d.tokens.map Token.form) :
    ∃ d', Derivation.Replaced r s d ts d' := by
  induction h generalizing ts with
  | operand _ ih =>
    obtain ⟨d', h'⟩ := ih hts
    exact ⟨.operand d', .operand h'.derives, h'.tokens, h'.exprs, h'.accepted⟩
  | @binary _ left t o right _ ho hp _ ihl ihr =>
    rw [Derivation.tokens, List.map_append, List.map_cons, List.map_eq_append_iff] at hts
    obtain ⟨ls, rs, rfl, hls, hrs⟩ := hts
    obtain ⟨t', rs, rfl, ht, hrs⟩ := List.map_eq_cons_iff.1 hrs
    obtain ⟨left', hl'⟩ := ihl hls
    obtain ⟨right', hr'⟩ := ihr hrs
    refine ⟨.binary left' t' o right', .binary hl'.derives (ho.congr ht) hp hr'.derives, ?_, ?_,
      fun h => ⟨hl'.accepted h.1, hr'.accepted h.2⟩⟩
    · rw [Derivation.tokens, hl'.tokens, hr'.tokens]
    · simp [Derivation.exprs, Expr.unplaced, hl'.exprs, hr'.exprs]
  | negation hk hv _ ih =>
    obtain ⟨t', us, rfl, ht, hus⟩ := List.map_eq_cons_iff.1 hts
    obtain ⟨hk', hv'⟩ := Token.form_eq ht
    obtain ⟨u', hu'⟩ := ih hus
    refine ⟨.negation t' u', .negation (hk'.trans hk) (hv'.trans hv) hu'.derives, ?_, ?_,
      hu'.accepted⟩
    · rw [Derivation.tokens, hu'.tokens]
    · simp [Derivation.exprs, Expr.unplaced, hu'.exprs]
  | plain _ ih =>
    obtain ⟨d', h'⟩ := ih hts
    exact ⟨.plain d', .plain h'.derives, h'.tokens, h'.exprs, h'.accepted⟩
  | @number t x hk hx =>
    obtain ⟨t', us, rfl, ht, hus⟩ := List.map_eq_cons_iff.1 hts
    obtain ⟨hk', hv'⟩ := Token.form_eq ht
    obtain rfl := List.map_eq_nil_iff.1 hus
    exact ⟨.number t' x, .number (hk'.trans hk) (hv' ▸ hx), rfl, rfl, id⟩
  | @name t hk =>
    obtain ⟨t', us, rfl, ht, hus⟩ := List.map_eq_cons_iff.1 hts
    obtain ⟨hk', hv'⟩ := Token.form_eq ht
    obtain rfl := List.map_eq_nil_iff.1 hus
    refine ⟨.name t', .name (hk'.trans hk), rfl, ?_, id⟩
    simp [Derivation.exprs, Expr.unplaced, hv']
  | group ha _ hb ih =>
    obtain ⟨a', us, rfl, ha', hus⟩ := List.map_eq_cons_iff.1 hts
    rw [List.map_append, List.map_eq_append_iff] at hus
    obtain ⟨ds, bs, rfl, hds, hbs⟩ := hus
    obtain ⟨b', cs, rfl, hb', hcs⟩ := List.map_eq_cons_iff.1 hbs
    obtain rfl := List.map_eq_nil_iff.1 hcs
    obtain ⟨d', h'⟩ := ih hds
    refine ⟨.group a' d' b', .group ((Token.form_eq ha').1.trans ha) h'.derives
      ((Token.form_eq hb').1.trans hb), ?_, h'.exprs, h'.accepted⟩
    rw [Derivation.tokens, h'.tokens]
  | @call t o a args b hf ha _ hb ih =>
    obtain ⟨t', ts, rfl, ht, hts⟩ := List.map_eq_cons_iff.1 hts
    obtain ⟨a', us, rfl, ha', hus⟩ := List.map_eq_cons_iff.1 hts
    rw [List.map_append, List.map_eq_append_iff] at hus
    obtain ⟨as, bs, rfl, has, hbs⟩ := hus
    obtain ⟨b', cs, rfl, hb', hcs⟩ := List.map_eq_cons_iff.1 hbs
    obtain rfl := List.map_eq_nil_iff.1 hcs
    obtain ⟨args', h'⟩ := ih has
    have hlength : args'.exprs.length = args.exprs.length := by
      simpa using congrArg List.length h'.exprs
    refine ⟨.call t' o a' args' b', .call (hf.congr ht) ((Token.form_eq ha').1.trans ha) h'.derives
      ((Token.form_eq hb').1.trans hb), ?_, ?_, fun h => ⟨h'.accepted h.1, hlength ▸ h.2⟩⟩
    · rw [Derivation.tokens, h'.tokens]
    · simp [Derivation.exprs, Expr.unplaced, h'.exprs]
  | noArguments => exact ⟨.noArguments, .noArguments, (List.map_eq_nil_iff.1 hts).symm, rfl, id⟩
  | noFurther => exact ⟨.noFurther, .noFurther, (List.map_eq_nil_iff.1 hts).symm, rfl, id⟩
  | arguments _ _ ihd ihr =>
    rw [Derivation.tokens, List.map_append, List.map_eq_append_iff] at hts
    obtain ⟨ds, rs, rfl, hds, hrs⟩ := hts
    obtain ⟨d', hd'⟩ := ihd hds
    obtain ⟨rest', hr'⟩ := ihr hrs
    refine ⟨.arguments d' rest', .arguments hd'.derives hr'.derives, ?_, ?_,
      fun h => ⟨hd'.accepted h.1, hr'.accepted h.2⟩⟩
    · rw [Derivation.tokens, hd'.tokens, hr'.tokens]
    · simp [Derivation.exprs, hd'.exprs, hr'.exprs]
  | further hc _ _ ihd ihr =>
    obtain ⟨c', us, rfl, hc', hus⟩ := List.map_eq_cons_iff.1 hts
    rw [List.map_append, List.map_eq_append_iff] at hus
    obtain ⟨ds, rs, rfl, hds, hrs⟩ := hus
    obtain ⟨d', hd'⟩ := ihd hds
    obtain ⟨rest', hr'⟩ := ihr hrs
    refine ⟨.further c' d' rest', .further ((Token.form_eq hc').1.trans hc) hd'.derives hr'.derives,
      ?_, ?_, fun h => ⟨hd'.accepted h.1, hr'.accepted h.2⟩⟩
    · rw [Derivation.tokens, hd'.tokens, hr'.tokens]
    · simp [Derivation.exprs, hd'.exprs, hr'.exprs]

end Reckon
