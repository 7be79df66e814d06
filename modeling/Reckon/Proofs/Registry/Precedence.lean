/-
Only the order of precedences counts (`parseText_renumber`). Operators whose
precedences are renumbered in the same order are read in the same way: a text
has the same tree, but for the numbers that its operations carry, or it is
refused with the same diagnostic.

A right operand is read above the precedence of its operator, so a floor is one
more than a precedence and not one itself. Operators compare with it as with
that precedence, whatever lies between two of them, and this is all that the
reader asks of precedences (`Likeness.FloorLike`).
-/
import Mathlib.Data.Int.ConditionallyCompleteOrder
import Mathlib.Data.Set.Function
import Mathlib.Order.ConditionallyCompleteLattice.Basic
import Mathlib.Order.Interval.Set.Defs
import Mathlib.Order.Monotone.Basic
import Reckon.Proofs.Registry.Reached
import Reckon.Proofs.Token.Step
import Reckon.Proofs.Tree.Likeness

namespace Reckon

/-- The number that a precedence becomes. Zero stands for no precedence, and stays. -/
def renumber (f : Int → Int) (p : Int) : Int := if 1 ≤ p then f p else p

section Order

variable {f : Int → Int} (hpos : Set.MapsTo f (Set.Ici 1) (Set.Ici 1))

include hpos

theorem one_le_renumber_iff {p : Int} : 1 ≤ renumber f p ↔ 1 ≤ p := by
  unfold renumber
  split
  · next hp => simpa [hp] using hpos hp
  · rfl

theorem strictMono_renumber (hf : StrictMonoOn f (Set.Ici 1)) : StrictMono (renumber f) := by
  intro p q hpq
  by_cases hp : 1 ≤ p
  · have hq : 1 ≤ q := by omega
    rw [renumber, renumber, if_pos hp, if_pos hq]
    exact hf hp hq hpq
  · have hlow : renumber f p = p := if_neg hp
    by_cases hq : 1 ≤ q
    · have := (one_le_renumber_iff hpos).2 hq
      omega
    · rw [hlow, renumber, if_neg hq]
      exact hpq

end Order

/-! ## Registries -/

/-- The operation with its precedence renumbered. -/
def Operation.renumber (f : Int → Int) (o : Operation) : Operation :=
  { o with precedence := Reckon.renumber f o.precedence }

namespace Registry

/-- The registry with the precedences of its operators renumbered. -/
def renumber (f : Int → Int) (r : Registry) : Registry :=
  { r with operations := r.operations.map (·.renumber f) }

variable {f : Int → Int} {r : Registry}

theorem get?_renumber (name : String) :
    (r.renumber f).get? name = (r.get? name).map (·.renumber f) := by
  rw [get?, get?, renumber, List.find?_map]
  rfl

theorem isOperator_renumber (name : String) :
    (r.renumber f).isOperator name = r.isOperator name := by
  rw [isOperator, isOperator, get?_renumber]
  cases r.get? name <;> rfl

theorem isFunction_renumber (name : String) :
    (r.renumber f).isFunction name = r.isFunction name := by
  rw [isFunction, isFunction, get?_renumber]
  cases r.get? name <;> rfl

/-- Operators have the number that the function gives, and functions have none. -/
theorem Reached.precedence_renumber (hr : r.Reached) {o : Operation} (ho : o ∈ r.operations) :
    (o.renumber f).precedence = if o.isFunction then o.precedence else f o.precedence := by
  cases hr.declared o ho with
  | function hfunction _ _ hzero => simp [Operation.renumber, Reckon.renumber, hfunction, hzero]
  | operator hoperator _ _ hone => simp [Operation.renumber, Reckon.renumber, hoperator, hone]

end Registry

/-! ## Texts -/

section Parsing

variable {f : Int → Int} (hpos : Set.MapsTo f (Set.Ici 1) (Set.Ici 1))
  (hf : StrictMonoOn f (Set.Ici 1))

/-- Operations are renumbered, and nothing else differs. -/
def Likeness.renumbered : Likeness where
  operation o o' := o' = o.renumber f
  position := Eq
  source := Eq
  operation_eq h := h ▸ rfl
  negation := rfl
  one_le_iff h := h ▸ (one_le_renumber_iff hpos).symm
  le_iff h h' := h ▸ h' ▸ (strictMono_renumber hpos hf).le_iff_le.symm
  position_refl _ := rfl
  position_add := @same.position_add
  source_refl := same.source_refl

theorem Likeness.renumbered_replaces :
    (renumbered hpos hf).Replaces (Operation.renumber f) := ⟨id, Eq.symm, Eq.symm⟩

include hpos hf

theorem Grammar.parse_renumber (r : Registry) (limits : Limits) (source : Option String)
    (tokens : List Token) : Grammar.parse ⟨r.renumber f, limits, source⟩ tokens =
      (Grammar.parse ⟨r, limits, source⟩ tokens).map
        (Tree.mapOperations (Operation.renumber f)) := by
  have hlike : List.Forall₂ ((Likeness.renumbered hpos hf).TokenLike r (r.renumber f))
      tokens tokens := by
    refine List.forall₂_same.2 fun t _ => ⟨rfl, rfl, rfl, fun _ => ?_⟩
    rw [Registry.get?_renumber]
    cases r.get? t.value with
    | none => exact .none
    | some o => exact .some rfl
  refine (Likeness.renumbered_replaces hpos hf).eq_map (Likeness.parse_like ?_ ?_ hlike) <;> rfl

/-- **Only the order of precedences counts.** Where the precedences of all operators of a registry
are renumbered by a function that is strictly increasing on the positive numbers, a text has the
same outcome under all limits: the same tree with the operations in it renumbered, or the same
failure. -/
theorem parseText_renumber {r : Registry} (hr : r.Reached) :
    (∀ o ∈ r.operations, (o.renumber f).precedence =
      if o.isFunction then o.precedence else f o.precedence) ∧
    ∀ source limits, parseText source (r.renumber f) limits =
      (parseText source r limits).map (Tree.mapOperations (Operation.renumber f)) := by
  refine ⟨fun o ho => hr.precedence_renumber ho, fun source limits => ?_⟩
  rw [parseText, parseText,
    tokenize_congr Registry.isOperator_renumber Registry.isFunction_renumber]
  cases tokenize source r limits with
  | error d => rfl
  | ok tokens => exact Grammar.parse_renumber hpos hf r limits (some source) tokens

end Parsing

/-- Tens and twenties in the place of ones and twos. -/
theorem parseText_renumber_tens :
    let tens : Int → Int := fun p => 10 * p
    Set.MapsTo tens (Set.Ici 1) (Set.Ici 1) ∧ StrictMonoOn tens (Set.Ici 1) ∧
      (∃ t, parseText "9-x*2-1" .standard .standard = .ok t ∧
        parseText "9-x*2-1" (Registry.standard.renumber tens) .standard =
          .ok (t.mapOperations (Operation.renumber tens))) ∧
      parseText "9-(x*" (Registry.standard.renumber tens) .standard = .error (.diagnostic {
        cause := .grammar .operandAtEnd (some 5)
        position := some 5
        source := some "9-(x*" }) := by
  intro tens
  have hpos : Set.MapsTo tens (Set.Ici 1) (Set.Ici 1) := fun p hp => by
    simp only [Set.mem_Ici, tens] at hp ⊢
    omega
  have hf : StrictMonoOn tens (Set.Ici 1) := fun p _ q _ hpq => by
    simp only [tens]
    omega
  have hrenumber := (parseText_renumber hpos hf Registry.standard_reached).2
  obtain ⟨t, ht⟩ := exists_of_isOk
    (show (parseText "9-x*2-1" .standard .standard).isOk = true by decide +kernel)
  refine ⟨hpos, hf, ⟨t, ht, ?_⟩, ?_⟩
  · rw [hrenumber, ht]
    rfl
  · rw [hrenumber]
    rfl

end Reckon
