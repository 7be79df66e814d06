/-
Inversion of computations that can fail: what it takes for a sequence of steps
to succeed, or to fail. Two such computations compare (`Alike`) if they go the
same way, with results or with errors that compare.
-/
namespace Reckon

theorem bind_eq_ok {ε α β : Type} {x : Except ε α} {f : α → Except ε β} {b : β} :
    (x >>= f) = .ok b ↔ ∃ a, x = .ok a ∧ f a = .ok b := by
  cases x <;> simp [bind, Except.bind]

/-- A step that gives nothing is passed. -/
theorem step_eq_ok {ε β : Type} {x : Except ε Unit} {f : Unit → Except ε β} {b : β} :
    (x >>= f) = .ok b ↔ x = .ok () ∧ f () = .ok b := by
  cases x <;> simp [bind, Except.bind]

theorem bind_eq_error {ε α β : Type} {x : Except ε α} {f : α → Except ε β} {e : ε} :
    (x >>= f) = .error e ↔ x = .error e ∨ ∃ a, x = .ok a ∧ f a = .error e := by
  cases x <;> simp [bind, Except.bind]

theorem pure_eq_ok {ε α : Type} {a b : α} : (pure a : Except ε α) = .ok b ↔ a = b := by
  simp [pure, Except.pure]

theorem mapError_ok {ε ε' α : Type} (f : ε → ε') (a : α) : (Except.ok a).mapError f = .ok a := rfl

theorem mapError_error {ε ε' α : Type} (f : ε → ε') (e : ε) :
    (Except.error e : Except ε α).mapError f = .error (f e) := rfl

theorem mapError_eq_ok {ε ε' α : Type} {x : Except ε α} {f : ε → ε'} {a : α} :
    x.mapError f = .ok a ↔ x = .ok a := by
  cases x <;> simp [mapError_ok, mapError_error]

theorem mapError_eq_error {ε ε' α : Type} {x : Except ε α} {f : ε → ε'} {e' : ε'} :
    x.mapError f = .error e' ↔ ∃ e, x = .error e ∧ f e = e' := by
  cases x <;> simp [mapError_ok, mapError_error]

/-- What succeeds alike fails alike. -/
theorem exists_error_iff {ε α : Type} {x y : Except ε α} (h : ∀ a, x = .ok a ↔ y = .ok a) :
    (∃ e, x = .error e) ↔ ∃ e, y = .error e := by
  cases x with
  | ok a =>
    have hy := (h a).1 rfl
    simp [hy]
  | error e =>
    cases y with
    | ok a => cases (h a).2 rfl
    | error e' => simp

theorem exists_of_isOk {ε α : Type} {x : Except ε α} (h : x.isOk = true) : ∃ a, x = .ok a := by
  cases x with
  | ok a => exact ⟨a, rfl⟩
  | error => cases h

/-! ## Two computations -/

/-- Both computations succeed, with results that compare, or both fail, with errors that do. -/
inductive Alike {ε ε' α β : Type} (E : ε → ε' → Prop) (R : α → β → Prop) :
    Except ε α → Except ε' β → Prop
  | ok {a b} : R a b → Alike E R (.ok a) (.ok b)
  | error {e e'} : E e e' → Alike E R (.error e) (.error e')

namespace Alike

variable {ε ε' α β γ δ : Type} {E : ε → ε' → Prop} {R : α → β → Prop} {x : Except ε α}
  {y : Except ε' β}

theorem refl {E : ε → ε → Prop} {R : α → α → Prop} (hE : ∀ e, E e e) (hR : ∀ a, R a a) :
    ∀ x : Except ε α, Alike E R x x
  | .ok a => .ok (hR a)
  | .error e => .error (hE e)

theorem mono (h : Alike E R x y) {F : ε → ε' → Prop} {S : α → β → Prop}
    (hE : ∀ e e', E e e' → F e e') (hR : ∀ a b, R a b → S a b) : Alike F S x y := by
  cases h with
  | ok hab => exact .ok (hR _ _ hab)
  | error he => exact .error (hE _ _ he)

/-- What goes on alike after steps that compare. -/
theorem bind (h : Alike E R x y) {S : γ → δ → Prop} {f : α → Except ε γ} {f' : β → Except ε' δ}
    (hf : ∀ a b, R a b → Alike E S (f a) (f' b)) : Alike E S (x >>= f) (y >>= f') := by
  cases h with
  | ok hab => exact hf _ _ hab
  | error he => exact .error he

theorem map (h : Alike E R x y) {S : γ → δ → Prop} (f : α → γ) (f' : β → δ)
    (hf : ∀ a b, R a b → S (f a) (f' b)) : Alike E S (x.map f) (y.map f') := by
  cases h with
  | ok hab => exact .ok (hf _ _ hab)
  | error he => exact .error he

theorem mapError (h : Alike E R x y) {F : γ → δ → Prop} (f : ε → γ) (f' : ε' → δ)
    (hf : ∀ e e', E e e' → F (f e) (f' e')) : Alike F R (x.mapError f) (y.mapError f') := by
  cases h with
  | ok hab => exact .ok hab
  | error he => exact .error (hf _ _ he)

end Alike

end Reckon
