/-
The grammar is unambiguous: derivations of one symbol that spell the same
tokens are the same (`Derives.unique`), also when other tokens follow that
could not belong to them.

The productions of a level are left-recursive, so two derivations are compared
along their left spines: the operands on the left of a binary production, of
that operand, and so on (`OnSpine`). What a derivation of a level spells fixes
it as a point of the spine of any longer one (`Leads`); where no operator
follows, that point is the end.
-/
import Reckon.Proofs.Grammar.Derivation

namespace Reckon

/-! ## Spines -/

/-- The derivation is another one, or its left operand, or that one's, and so on. -/
inductive Derivation.OnSpine : Derivation → Derivation → Prop
  | refl {d} : OnSpine d d
  | left {d left t o right} : OnSpine d left → OnSpine d (.binary left t o right)

open Reckon.Derivation (OnSpine)

/-- Below the end of a spine every point is the left operand of another one. -/
theorem Derivation.OnSpine.eq_or_next {d d' : Derivation} (h : OnSpine d d') :
    d = d' ∨ ∃ t o right, OnSpine (.binary d t o right) d' := by
  induction h with
  | refl => exact .inl rfl
  | @left left t o right _ ih =>
    rcases ih with rfl | ⟨t', o', right', ih⟩
    · exact .inr ⟨t, o, right, .refl⟩
    · exact .inr ⟨t', o', right', .left ih⟩

/-- A point of the spine binds at least as tightly as the whole. -/
theorem Derivation.OnSpine.derives {r : Registry} {left t o right d'}
    (h : OnSpine (.binary left t o right) d') {p} (hd : Derives r (.level p) d') :
    p ≤ o.precedence ∧ r.InfixToken t o ∧ Derives r (.level (o.precedence + 1)) right := by
  induction h generalizing p with
  | refl =>
    cases hd with
    | binary _ ht hp hr => exact ⟨hp, ht, hr⟩
  | left _ ih =>
    cases hd with
    | binary hl _ hp _ =>
      have := ih hl
      exact ⟨by omega, this.2⟩

/-- What follows a point of the spine stops the level above its operator. -/
theorem Derivation.OnSpine.tokens {r : Registry} {left t o right d'}
    (h : OnSpine (.binary left t o right) d') {p rest} (hd : Derives r (.level p) d')
    (hs : r.StopsAt (p + 1) rest) :
    ∃ more, d'.tokens ++ rest = left.tokens ++ t :: (right.tokens ++ more) ∧
      r.StopsAt (o.precedence + 1) more := by
  induction h generalizing p rest with
  | refl =>
    cases hd with
    | binary _ _ hp _ => exact ⟨rest, by simp [Derivation.tokens], hs.mono (by omega)⟩
  | @left left' t' o' right' _ ih =>
    cases hd with
    | binary hl ht' hp _ =>
      have hnext : r.StopsAt (o'.precedence + 1) (t' :: (right'.tokens ++ rest)) := ht'.stopsAt
      obtain ⟨more, hmore, hstop⟩ := ih hl hnext
      exact ⟨more, by simpa [Derivation.tokens] using hmore, hstop⟩

/-- The spine of a derivation of a level begins with an operand. -/
theorem Derives.operand_onSpine {r : Registry} {p d} (h : Derives r (.level p) d) :
    ∃ u more, Derives r .unary u ∧ OnSpine (.operand u) d ∧ d.tokens = u.tokens ++ more := by
  generalize hs : Symbol.level p = s at h
  induction h generalizing p with
  | @operand _ u hu => exact ⟨u, [], hu, .refl, by simp [Derivation.tokens]⟩
  | @binary _ left t o right _ _ _ _ ih _ =>
    obtain ⟨u, more, hu, hsp, ht⟩ := ih rfl
    exact ⟨u, more ++ t :: right.tokens, hu, .left hsp, by simp [Derivation.tokens, ht]⟩
  | _ => cases hs

/-- A point of a spine that no operator follows is its end. -/
theorem Derivation.OnSpine.eq {r : Registry} {d d'} (h : OnSpine d d') {p rest rest'}
    (hd : Derives r (.level p) d') (ht : d.tokens ++ rest = d'.tokens ++ rest')
    (hs : r.StopsAt p rest) (hs' : r.StopsAt (p + 1) rest') : d = d' ∧ rest = rest' := by
  rcases h.eq_or_next with rfl | ⟨t, o, right, h⟩
  · exact ⟨rfl, List.append_cancel_left ht⟩
  · obtain ⟨more, hmore, _⟩ := h.tokens hd hs'
    obtain ⟨hp, hinfix, _⟩ := h.derives hd
    have hrest : rest = t :: (right.tokens ++ more) := List.append_cancel_left (ht.trans hmore)
    have := hs t (by simp [hrest]) o hinfix
    omega

/-! ## Derivations of the same tokens -/

/-- A derivation's tokens fix it: as a point of the spine for a level, as a whole else. -/
def Registry.Leads (r : Registry) : Symbol → Derivation → Prop
  | .level p, d => ∀ f d' rest rest', f ≤ p → Derives r (.level f) d' →
      r.StopsAt (p + 1) rest → r.StopsAt f rest' →
      d.tokens ++ rest = d'.tokens ++ rest' → OnSpine d d'
  | s, d => ∀ d' rest rest', Derives r s d' → r.Ends s rest → r.Ends s rest' →
      d.tokens ++ rest = d'.tokens ++ rest' → d = d' ∧ rest = rest'

theorem Registry.Leads.level_eq {r : Registry} {p d d' rest rest'} (h : r.Leads (.level p) d)
    (hd : Derives r (.level p) d') (hs : r.StopsAt p rest) (hs' : r.StopsAt p rest')
    (ht : d.tokens ++ rest = d'.tokens ++ rest') : d = d' ∧ rest = rest' :=
  (h p d' rest rest' (Int.le_refl p) hd (hs.mono (by omega)) hs' ht).eq hd ht hs
    (hs'.mono (by omega))

theorem Derives.leads {r : Registry} {s d} (h : Derives r s d) : r.Leads s d := by
  induction h with
  | @operand p u _ ih =>
    intro f d' rest rest' _ hd' _ _ ht
    obtain ⟨u', more, hu', hsp, hmore⟩ := hd'.operand_onSpine
    rw [hmore, List.append_assoc] at ht
    obtain ⟨rfl, _⟩ := ih u' rest (more ++ rest') hu' trivial trivial ht
    exact hsp
  | @binary p left t o right _ hinfix hp hright ihl ihr =>
    intro f d' rest rest' hf hd' hs hs' ht
    simp only [Derivation.tokens, List.append_assoc, List.cons_append] at ht
    have hleft := ihl f d' _ rest' (by omega) hd' hinfix.stopsAt hs' ht
    rcases hleft.eq_or_next with rfl | ⟨t', o', right', hsp⟩
    · have := hs' t (by simp [← List.append_cancel_left ht]) o hinfix
      omega
    · obtain ⟨more, hmore, hstop⟩ := hsp.tokens hd' (hs'.mono (by omega))
      obtain ⟨_, hinfix', hright'⟩ := hsp.derives hd'
      obtain ⟨rfl, hrest⟩ := List.cons.inj (List.append_cancel_left (ht.trans hmore))
      obtain rfl := hinfix.eq hinfix'
      obtain ⟨rfl, _⟩ := Registry.Leads.level_eq ihr hright' (hs.mono (by omega)) hstop hrest
      exact hsp
  | @negation t u hk _ _ ih =>
    intro d' rest rest' hd' _ _ ht
    cases hd' with
    | negation _ _ hu' =>
      obtain ⟨rfl, hu⟩ := List.cons.inj ht
      obtain ⟨rfl, rfl⟩ := ih _ rest rest' hu' trivial trivial hu
      exact ⟨rfl, rfl⟩
    | plain hp' => exact absurd hk (hp'.kind_ne_operator ht.symm)
  | @plain p hp ih =>
    intro d' rest rest' hd' _ _ ht
    cases hd' with
    | negation hk => exact absurd hk (hp.kind_ne_operator ht)
    | plain hp' =>
      obtain ⟨rfl, rfl⟩ := ih _ rest rest' hp' trivial trivial ht
      exact ⟨rfl, rfl⟩
  | @number t x hk hx =>
    intro d' rest rest' hd' _ _ ht
    cases hd' <;> obtain ⟨rfl, hrest⟩ := List.cons.inj ht
    case number hx' =>
      obtain rfl := Option.some.inj (hx.symm.trans hx')
      exact ⟨rfl, hrest⟩
    all_goals simp_all [Registry.FunctionToken]
  | @name t hk =>
    intro d' rest rest' hd' _ _ ht
    cases hd' <;> obtain ⟨rfl, hrest⟩ := List.cons.inj ht
    case name => exact ⟨rfl, hrest⟩
    all_goals simp_all [Registry.FunctionToken]
  | @group a d b ha hd hb ih =>
    intro d' rest rest' hd' _ _ ht
    cases hd' <;> simp only [Derivation.tokens, List.append_assoc, List.cons_append,
      List.nil_append, List.cons.injEq] at ht <;> obtain ⟨rfl, hin⟩ := ht
    case group d' b' hd' hb' _ =>
      obtain ⟨rfl, hclose⟩ := Registry.Leads.level_eq ih hd'
        (Registry.stopsAt_of_kind (by simp [hb])) (Registry.stopsAt_of_kind (by simp [hb'])) hin
      obtain ⟨rfl, rfl⟩ := List.cons.inj hclose
      exact ⟨rfl, rfl⟩
    all_goals simp_all [Registry.FunctionToken]
  | @call t o a args b hf ha hargs hb ih =>
    intro d' rest rest' hd' _ _ ht
    cases hd' <;> simp only [Derivation.tokens, List.append_assoc, List.cons_append,
      List.nil_append, List.cons.injEq] at ht <;> obtain ⟨rfl, hin⟩ := ht
    case call o' a' args' b' ha' hargs' hb' hf' =>
      obtain ⟨rfl, hin⟩ := hin
      obtain rfl := hf.eq hf'
      obtain ⟨rfl, hclose⟩ := ih _ _ _ hargs' ⟨b, by simp, hb⟩ ⟨b', by simp, hb'⟩ hin
      obtain ⟨rfl, rfl⟩ := List.cons.inj hclose
      exact ⟨rfl, rfl⟩
    all_goals simp_all [Registry.FunctionToken]
  | noArguments =>
    intro d' rest rest' hd' hr _ ht
    cases hd' with
    | noArguments => exact ⟨rfl, ht⟩
    | arguments hd' =>
      simp only [Derivation.tokens, List.nil_append, List.append_assoc] at ht
      rw [ht] at hr
      exact absurd hr (hd'.not_ends trivial)
  | @arguments d more hd hm ihd ihm =>
    intro d' rest rest' hd' hr hr' ht
    cases hd' with
    | noArguments =>
      simp only [Derivation.tokens, List.nil_append, List.append_assoc] at ht
      rw [← ht] at hr'
      exact absurd hr' (hd.not_ends trivial)
    | arguments hd' hm' =>
      simp only [Derivation.tokens, List.append_assoc] at ht
      obtain ⟨rfl, hmore⟩ := Registry.Leads.level_eq ihd hd' (hm.further_stopsAt hr)
        (hm'.further_stopsAt hr') ht
      obtain ⟨rfl, rfl⟩ := ihm _ _ _ hm' hr hr' hmore
      exact ⟨rfl, rfl⟩
  | noFurther =>
    intro d' rest rest' hd' hr _ ht
    cases hd' with
    | noFurther => exact ⟨rfl, ht⟩
    | further hc =>
      simp only [Derivation.tokens, List.nil_append, List.cons_append] at ht
      rw [ht] at hr
      exact absurd hr (Registry.not_ends_cons (r := r) (by simp [hc]))
  | @further c d more hc hd hm ihd ihm =>
    intro d' rest rest' hd' hr hr' ht
    cases hd' with
    | noFurther =>
      simp only [Derivation.tokens, List.nil_append, List.cons_append] at ht
      rw [← ht] at hr'
      exact absurd hr' (Registry.not_ends_cons (r := r) (by simp [hc]))
    | further hc' hd' hm' =>
      simp only [Derivation.tokens, List.append_assoc, List.cons_append, List.cons.injEq] at ht
      obtain ⟨rfl, hin⟩ := ht
      obtain ⟨rfl, hmore⟩ := Registry.Leads.level_eq ihd hd' (hm.further_stopsAt hr)
        (hm'.further_stopsAt hr') hin
      obtain ⟨rfl, rfl⟩ := ihm _ _ _ hm' hr hr' hmore
      exact ⟨rfl, rfl⟩

/-- **The grammar is unambiguous.** Derivations of a level that spell the same tokens are equal,
whatever follows that stops the level. -/
theorem Derives.unique {r : Registry} {p d d' rest rest'} (h : Derives r (.level p) d)
    (h' : Derives r (.level p) d') (hs : r.StopsAt p rest) (hs' : r.StopsAt p rest')
    (ht : d.tokens ++ rest = d'.tokens ++ rest') : d = d' ∧ rest = rest' :=
  Registry.Leads.level_eq h.leads h' hs hs' ht

end Reckon
