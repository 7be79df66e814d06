/-
The reducers of arithmetic are tame: of one operand or more they make a real, or
they fail with a fault of arithmetic or of a value (`Reducer.Tame`). That is all
that evaluation relies on, and it holds of every operation of the registry that
is used where none is given (`Registry.standard_tame`), since a registry has the
reducers that have been declared. What these fail with is known by name: there
are three such faults (`Fault.arithmetic`, `Registry.standard_arithmetical`).
-/
import Reckon.Proofs.Registry.Reached

namespace Reckon

/-- The computation succeeds, or it fails with a fault of arithmetic or of a value. -/
def Operational {α : Type} (x : Except Failure α) : Prop :=
  (∃ a, x = .ok a) ∨ ∃ f, x = .error (.fault f) ∧ f.isOperational = true

/-- The faults of arithmetic. -/
def Fault.arithmetic : List Fault := [
  ⟨.zeroDivision, "Division by zero"⟩,
  ⟨.zeroDivision, "Modulo by zero"⟩,
  ⟨.value, "math domain error"⟩]

theorem Fault.isOperational_of_arithmetic : ∀ f ∈ arithmetic, f.isOperational = true := by decide

/-- The computation succeeds, or it fails with a fault of arithmetic. -/
def Arithmetical {α : Type} (x : Except Failure α) : Prop :=
  (∃ a, x = .ok a) ∨ ∃ f ∈ Fault.arithmetic, x = .error (.fault f)

theorem arithmetical_ok {α : Type} (a : α) : Arithmetical (.ok a) := .inl ⟨a, rfl⟩

theorem arithmetical_fault {α : Type} {f : Fault} (h : f ∈ Fault.arithmetic) :
    Arithmetical (.error (.fault f) : Except Failure α) := .inr ⟨f, h, rfl⟩

theorem Arithmetical.bind {α β : Type} {x : Except Failure α} {f : α → Except Failure β}
    (h : Arithmetical x) (hf : ∀ a, Arithmetical (f a)) : Arithmetical (x >>= f) := by
  rcases h with ⟨a, rfl⟩ | ⟨fault, hfault, rfl⟩
  · exact hf a
  · exact arithmetical_fault hfault

theorem Arithmetical.fault_mem {α : Type} {x : Except Failure α} (h : Arithmetical x) {f : Fault}
    (hx : x = .error (.fault f)) : f ∈ Fault.arithmetic := by
  rcases h with ⟨a, rfl⟩ | ⟨fault, hfault, rfl⟩
  · cases hx
  · obtain rfl := Failure.fault.inj (Except.error.inj hx)
    exact hfault

theorem Arithmetical.operational {α : Type} {x : Except Failure α} (h : Arithmetical x) :
    Operational x := by
  rcases h with hok | ⟨fault, hfault, rfl⟩
  · exact .inl hok
  · exact .inr ⟨fault, rfl, Fault.isOperational_of_arithmetic fault hfault⟩

/-- Of one operand or more the reducer makes a real, or it fails as arithmetic does. -/
def Reducer.Tame (f : Reducer) : Prop :=
  ∀ numbers, numbers ≠ [] → Operational (f numbers) ∧ ∀ d, f numbers = .ok d → ∃ x, d = .real x

/-- Of one operand or more the reducer makes a real, or it fails with a fault of arithmetic. -/
def Reducer.Arithmetical (f : Reducer) : Prop :=
  ∀ numbers, numbers ≠ [] →
    Reckon.Arithmetical (f numbers) ∧ ∀ d, f numbers = .ok d → ∃ x, d = .real x

theorem Reducer.Arithmetical.tame {f : Reducer} (h : f.Arithmetical) : f.Tame :=
  fun numbers hne => ⟨(h numbers hne).1.operational, (h numbers hne).2⟩

theorem Reducer.Arithmetical.ne_diagnostic {f : Reducer} (h : f.Arithmetical) {numbers : List Float}
    (hne : numbers ≠ []) {d : Diagnostic} : f numbers ≠ .error (.diagnostic d) := by
  intro hraised
  rcases (h numbers hne).1 with ⟨x, hx⟩ | ⟨fault, _, hfault⟩
  · rw [hx] at hraised
    cases hraised
  · rw [hfault] at hraised
    cases hraised

namespace Arithmetic

theorem reducer_arithmetical {f : List Float → Except Failure Float}
    (h : ∀ numbers, numbers ≠ [] → Arithmetical (f numbers)) :
    Reducer.Arithmetical (reducer f) := by
  refine fun numbers hne => ⟨(h numbers hne).bind fun x => arithmetical_ok _, fun d hd => ?_⟩
  simp only [reducer, bind_eq_ok, pure_eq_ok] at hd
  obtain ⟨x, _, rfl⟩ := hd
  exact ⟨x, rfl⟩

variable {numbers : List Float} (hne : numbers ≠ [])

include hne

theorem fold_arithmetical {step : Float → Float → Except Failure Float}
    (h : ∀ x y, Arithmetical (step x y)) : Arithmetical (fold step numbers) := by
  obtain ⟨x, xs, rfl⟩ := List.exists_cons_of_ne_nil hne
  rw [fold]
  clear hne
  induction xs generalizing x with
  | nil => exact arithmetical_ok x
  | cons y ys ih =>
    rw [List.foldlM_cons]
    exact (h x y).bind ih

theorem fold_ok_arithmetical (f : Float → Float → Float) :
    Arithmetical (fold (fun x y => .ok (f x y)) numbers) :=
  fold_arithmetical hne fun _ _ => arithmetical_ok _

theorem quotient_arithmetical : Arithmetical (quotient numbers) :=
  fold_arithmetical hne fun _ _ => by
    split
    · exact arithmetical_fault (by decide)
    · exact arithmetical_ok _

theorem remainder_arithmetical : Arithmetical (remainder numbers) :=
  fold_arithmetical hne fun _ _ => by
    split
    · exact arithmetical_fault (by decide)
    · split
      · exact arithmetical_ok _
      · exact arithmetical_fault (by decide)

theorem first_arithmetical : Arithmetical (first numbers) := by
  obtain ⟨x, xs, rfl⟩ := List.exists_cons_of_ne_nil hne
  exact arithmetical_ok x

theorem negation_arithmetical : Arithmetical (negation numbers) :=
  (first_arithmetical hne).bind fun _ => arithmetical_ok _

theorem absolute_arithmetical : Arithmetical (absolute numbers) :=
  (first_arithmetical hne).bind fun _ => arithmetical_ok _

theorem best_arithmetical (beats : Float → Float → Bool) (what : String) :
    Arithmetical (best beats what numbers) := by
  obtain ⟨x, xs, rfl⟩ := List.exists_cons_of_ne_nil hne
  exact arithmetical_ok _

theorem average_arithmetical : Arithmetical (average numbers) :=
  (fold_ok_arithmetical hne _).bind fun _ => arithmetical_ok _

end Arithmetic

theorem Operation.negation_arithmetical : negation.reducer.Arithmetical :=
  Arithmetic.reducer_arithmetical fun _ => Arithmetic.negation_arithmetical

theorem negation_tame : Reducer.Tame Operation.negation.reducer :=
  Operation.negation_arithmetical.tame

/-! ## Registries -/

/-- What holds of the reducers that are declared holds of those that a registry has. -/
theorem Registry.forall_reducer_registerAll {P : Reducer → Prop} : ∀ {r : Registry}
    {ds : List Declaration}, (∀ o ∈ r.operations, P o.reducer) →
      (∀ d ∈ ds, ∀ f ∈ d.reducer, P f) → ∀ o ∈ (r.registerAll ds).registry.operations, P o.reducer
  | _, [], hr, _ => hr
  | r, d :: ds, hr, hds => by
    unfold registerAll
    split
    · exact hr
    next registration hregister =>
    refine forall_reducer_registerAll ?_ fun d' hd' => hds d' (List.mem_cons_of_mem _ hd')
    obtain ⟨_, hcheck, hinsert⟩ := register_eq_ok hregister
    rw [hinsert]
    intro p hp
    rcases mem_insert hp with rfl | hp
    · exact hds d List.mem_cons_self _ (Declaration.check_eq_ok hcheck).2.1
    · exact hr p hp

open Arithmetic in
/-- **The operations of the standard registry fail with faults of arithmetic only.** -/
theorem Registry.standard_arithmetical :
    ∀ o ∈ standard.operations, o.reducer.Arithmetical := by
  refine forall_reducer_registerAll (r := empty) (by simp [empty]) fun d hd f hf => ?_
  simp only [arithmeticOperators, arithmeticFunctions, List.cons_append, List.nil_append,
    List.mem_cons, List.not_mem_nil, or_false, if_true] at hd
  rcases hd with rfl | rfl | rfl | rfl | rfl | rfl | rfl | rfl | rfl | rfl <;>
    obtain rfl := Option.some.inj hf <;> apply reducer_arithmetical
  · exact fun _ hne => fold_ok_arithmetical hne _
  · exact fun _ hne => fold_ok_arithmetical hne _
  · exact fun _ hne => fold_ok_arithmetical hne _
  · exact fun _ => quotient_arithmetical
  · exact fun _ => remainder_arithmetical
  · exact fun _ => absolute_arithmetical
  · exact fun _ hne => best_arithmetical hne _ _
  · exact fun _ hne => best_arithmetical hne _ _
  · exact fun _ hne => fold_ok_arithmetical hne _
  · exact fun _ => average_arithmetical

/-- **The operations of the standard registry are tame.** -/
theorem Registry.standard_tame : ∀ o ∈ standard.operations, o.reducer.Tame :=
  fun o ho => (standard_arithmetical o ho).tame

end Reckon
