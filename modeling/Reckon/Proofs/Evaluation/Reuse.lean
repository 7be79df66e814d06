/-
One evaluator that is given tree after tree. Of a call it keeps nothing but a
source, that of the first tree which has one (`Evaluator.after_eq`), and sources
go into diagnostics and nowhere else. So each tree has the outcome that it has
with an evaluator of its own, except that its diagnostics may show the expression
of an earlier tree (`Evaluator.outcomes_reused`); and they do
(`Evaluator.outcomes_stale`).
-/
import Reckon.Proofs.Evaluation.Escape
import Reckon.Proofs.Evaluation.Likeness

namespace Reckon

/-- A failure and what becomes of it if another source is shown: of a diagnostic that shows the
source everything else stays, and so does anything that does not show it. -/
inductive Failure.Retold (source shown : Option String) : Failure → Failure → Prop
  | refl (f) : Retold source shown f f
  | shown {d} : d.source = source →
      Retold source shown (.diagnostic d) (.diagnostic { d with source := shown })

namespace Likeness

/-- Nothing differs but the source, which may be another one. -/
def resourced (source shown : Option String) : Likeness :=
  { same with
    source := fun s s' => s' = s ∨ s = source ∧ s' = shown
    source_refl := fun _ => .inl rfl }

theorem FailureLike.retold {source shown : Option String} {f f' : Failure}
    (h : (resourced source shown).FailureLike f f') : f.Retold source shown f' := by
  cases h with
  | fault f => exact .refl _
  | @diagnostic d d' hd =>
    obtain ⟨cause, position, s⟩ := d
    obtain ⟨cause', position', s'⟩ := d'
    obtain rfl : cause' = cause := hd.cause
    obtain rfl : position' = position := eq_of_rel Eq.symm hd.position
    rcases hd.source with rfl | ⟨rfl, rfl⟩
    · exact .refl _
    · exact .shown rfl

theorem TreeLike.refl {ρ : Likeness} (hoperation : ∀ o, ρ.operation o o) (t : Tree) :
    ρ.TreeLike t t := by
  refine ⟨fun i => ?_, rfl, ρ.source_refl _, rfl⟩
  cases t.nodes[i]? with
  | none => exact .none
  | some n =>
    refine .some ⟨rfl, ?_, rfl, rfl, ρ.position_refl _, rfl⟩
    cases n.item with
    | number x => exact .number
    | var name => exact .var
    | operation o => exact .operation (hoperation o)

end Likeness

/-- The tree of a text has the text for its source. -/
theorem Tree.source_of_parseText {source : String} {r : Registry} {limits : Limits} {t : Tree}
    (h : parseText source r limits = .ok t) : t.source = some source := by
  obtain ⟨tokens, hparse⟩ := exists_parse_of_parseText h
  obtain ⟨e, _, htree⟩ := Grammar.parse_eq_ok hparse
  exact (Tree.ofExpr_eq_ok htree).2.2

namespace Evaluator

variable (E : Evaluator)

/-- The source goes into failures and nowhere else. -/
theorem numberOf_retold (t : Tree) (shown : Option String) :
    Alike (Failure.Retold E.source shown) Eq (E.numberOf t)
      (numberOf { E with source := shown } t) := by
  have hE : (Likeness.resourced E.source shown).EvaluatorLike E { E with source := shown } :=
    ⟨rfl, rfl, .inr ⟨rfl, rfl⟩⟩
  exact (Likeness.numberOf_like hE (.refl (fun _ => rfl) t)).mono (fun _ _ hf => hf.retold)
    fun _ _ hx => hx

/-! ## Tree after tree -/

/-- The evaluator that is left when it has been given these trees. -/
def after (E : Evaluator) : List Tree → Evaluator
  | [] => E
  | t :: ts => (E.evaluate t).2.after ts

/-- What comes of trees that the evaluator is given one after another. -/
def outcomes (E : Evaluator) : List Tree → List (Except Failure Float)
  | [] => []
  | t :: ts => (E.evaluate t).1 :: (E.evaluate t).2.outcomes ts

/-- **What an evaluator keeps**: the source that it has, or else that of the first tree which has
one. -/
theorem after_eq (E : Evaluator) (ts : List Tree) :
    E.after ts = { E with source := E.source.or (ts.findSome? Tree.source) } := by
  induction ts generalizing E with
  | nil => simp [after]
  | cons t ts ih =>
    rw [after, ih, evaluate, List.findSome?_cons]
    cases E.source <;> cases t.source <;> rfl

theorem outcomes_getElem? (E : Evaluator) (ts : List Tree) (i : Nat) :
    (E.outcomes ts)[i]? = ts[i]?.map fun t => ((E.after (ts.take i)).evaluate t).1 := by
  induction ts generalizing E i with
  | nil => rfl
  | cons t ts ih =>
    cases i with
    | zero => rfl
    | succ i => exact ih (E.evaluate t).2 i

/-- The source that is shown with a tree, when the evaluator comes without one. -/
def shownAt (ts : List Tree) (i : Nat) : Option String := (ts.take (i + 1)).findSome? Tree.source

theorem shownAt_cons {t : Tree} {source : String} (h : t.source = some source) (ts : List Tree)
    (i : Nat) : shownAt (t :: ts) i = some source := by
  rw [shownAt, List.take_succ_cons, List.findSome?_cons, h]

/-- A fresh evaluator takes the source of the tree. -/
theorem evaluate_fresh (hE : E.source = none) (t : Tree) :
    (E.evaluate t).1 = numberOf { E with source := t.source } t := by
  rw [evaluate, hE]
  rfl

/-- Each tree is evaluated with the same bindings and the same policy. -/
theorem outcomes_eq (hE : E.source = none) {ts : List Tree} {i : Nat} {t : Tree}
    (hi : ts[i]? = some t) :
    (E.outcomes ts)[i]? = some (numberOf { E with source := shownAt ts i } t) := by
  have htake : ts.take (i + 1) = ts.take i ++ [t] := by
    rw [List.take_add_one, hi]
    rfl
  have hlast : [t].findSome? Tree.source = t.source := by
    cases h : t.source <;> simp [h]
  rw [outcomes_getElem?, hi, after_eq, hE, Option.none_or, shownAt, htake, List.findSome?_append,
    hlast]
  rfl

/-- **Trees that share an evaluator.** Where no earlier tree has another source, the outcome is that
of a fresh evaluator. In any case it is the same number or the same failure, but for a diagnostic
that should show the source of the tree and shows that of the first tree instead; and that source is
in every diagnostic which no reducer has raised. -/
theorem outcomes_reused (hE : E.source = none) {ts : List Tree} {i : Nat} {t : Tree}
    (hi : ts[i]? = some t) :
    ∃ x, (E.outcomes ts)[i]? = some x ∧
      (shownAt ts i = t.source → x = (E.evaluate t).1) ∧
      Alike (Failure.Retold t.source (shownAt ts i)) Eq (E.evaluate t).1 x ∧
      (t.Made → ∀ d, x = .error (.diagnostic d) → d.source = shownAt ts i ∨
        ∃ n o numbers, Calls { E with source := shownAt ts i } t n o numbers ∧
          o.reducer numbers = .error (.diagnostic d)) := by
  rw [E.evaluate_fresh hE]
  refine ⟨_, E.outcomes_eq hE hi, fun hshown => ?_, ?_, fun ht d hd => ?_⟩
  · rw [hshown]
  · exact numberOf_retold { E with source := t.source } t (shownAt ts i)
  · cases escapes_of_numberOf ht hd with
    | told _ _ _ hsource => exact .inl hsource
    | raised hcalls hreducer _ => exact .inr ⟨_, _, _, hcalls, hreducer⟩

section Examples

/-- A product whose rate is not given, as it fails with two sources. -/
theorem exists_unresolved :
    ∃ t, parseText "2 * rate" .standard .standard = .ok t ∧
      ∀ source ∈ [some "2 * rate", some "1"], numberOf ⟨[], .nullAsZero, source⟩ t =
        .error (.diagnostic ⟨.unresolvedVariable "rate", some 4, source⟩) := by
  obtain ⟨t, ht⟩ := exists_of_isOk
    (show (parseText "2 * rate" .standard .standard).isOk = true by decide +kernel)
  refine ⟨t, ht, fun source hsource => ?_⟩
  have htold : ∀ source ∈ [some "2 * rate", some "1"],
      (match parseText "2 * rate" .standard .standard with
      | .ok t =>
        match numberOf ⟨[], .nullAsZero, source⟩ t with
        | .error f => f == .diagnostic ⟨.unresolvedVariable "rate", some 4, source⟩
        | .ok _ => false
      | .error _ => false) = true := by decide +kernel
  have h := htold source hsource
  rw [ht] at h
  dsimp only at h
  split at h
  · next hf => rw [hf, beq_iff_eq.1 h]
  · cases h

/-- A tree that is given twice fails alike both times. -/
theorem outcomes_reused_twice :
    ∃ t d, parseText "2 * rate" .standard .standard = .ok t ∧ t.Made ∧
      [t, t][1]? = some t ∧ shownAt [t, t] 1 = t.source ∧ d.source = some "2 * rate" ∧
      (outcomes ⟨[], .nullAsZero, none⟩ [t, t])[1]? = some (.error (.diagnostic d)) ∧
      (evaluate ⟨[], .nullAsZero, none⟩ t).1 = .error (.diagnostic d) := by
  obtain ⟨t, ht, htold⟩ := exists_unresolved
  have hsource := Tree.source_of_parseText ht
  have hshown : shownAt [t, t] 1 = t.source := (shownAt_cons hsource [t] 1).trans hsource.symm
  have hfresh : (evaluate ⟨[], .nullAsZero, none⟩ t).1 =
      .error (.diagnostic ⟨.unresolvedVariable "rate", some 4, some "2 * rate"⟩) := by
    rw [evaluate_fresh _ rfl, hsource]
    exact htold _ (by simp)
  obtain ⟨x, hx, hsame, _, _⟩ :=
    outcomes_reused ⟨[], .nullAsZero, none⟩ rfl (show [t, t][1]? = some t from rfl)
  refine ⟨t, _, ht, Tree.made_of_parseText ht, rfl, hshown, rfl, ?_, hfresh⟩
  rw [hx, hsame hshown, hfresh]

/-- With `1` before it the product is told with the source `1`; a fresh evaluator shows the
product. -/
theorem outcomes_stale :
    ∃ t t', parseText "1" .standard .standard = .ok t ∧
      parseText "2 * rate" .standard .standard = .ok t' ∧ t'.source = some "2 * rate" ∧
      (evaluate ⟨[], .nullAsZero, none⟩ t').1 =
        .error (.diagnostic ⟨.unresolvedVariable "rate", some 4, some "2 * rate"⟩) ∧
      (outcomes ⟨[], .nullAsZero, none⟩ [t, t'])[1]? =
        some (.error (.diagnostic ⟨.unresolvedVariable "rate", some 4, some "1"⟩)) := by
  obtain ⟨t, ht⟩ := exists_of_isOk
    (show (parseText "1" .standard .standard).isOk = true by decide +kernel)
  obtain ⟨t', ht', htold⟩ := exists_unresolved
  have hsource := Tree.source_of_parseText ht
  have hsource' := Tree.source_of_parseText ht'
  refine ⟨t, t', ht, ht', hsource', ?_, ?_⟩
  · rw [evaluate_fresh _ rfl, hsource']
    exact htold _ (by simp)
  · rw [outcomes_eq (t := t') _ rfl rfl, shownAt_cons hsource]
    exact congrArg some (htold _ (by simp))

end Examples

end Evaluator

end Reckon
