/-
The requests that there are. Their variables have been checked, so each is null
or a number (`Request.Made.values`), and no calculation meets anything else.
-/
import Reckon.Calculator
import Reckon.Proofs.Evaluation.Escape

namespace Reckon

/-- The requests that there are: those of records, and those that calls come to. -/
inductive Request.Made : Request → Prop
  | record {fields request} : Request.ofFields fields = .ok request → Made request
  | call {c call assignments policy request} :
      Calculator.requestOf c call assignments policy = .ok request → Made request

namespace Request

theorem checkVariables_eq_ok {assignments : List Assignment} {b : Bindings}
    (h : checkVariables assignments = .ok b) : ∀ p ∈ b, p.2 = .null ∨ p.2.IsNumber := by
  unfold checkVariables at h
  split at h
  · next hissues =>
    obtain rfl := Except.ok.inj h
    intro p hp
    obtain ⟨⟨key, value⟩, ha, hkey⟩ := List.mem_filterMap.1 hp
    have hnone := List.flatMap_eq_nil_iff.1 hissues _ ha
    have hvalue : p.2 = value := by
      cases key <;> simp only [reduceCtorEq, Option.some.injEq] at hkey
      rw [← hkey]
    rw [hvalue]
    cases value with
    | null => exact .inl rfl
    | int | real => exact .inr trivial
    | bool | text | list | record | foreign => simp [assignmentIssues] at hnone
  · cases h

theorem combine_eq_ok {expression : Check.Checked String} {bindings : Except (List Issue) Bindings}
    {nullPolicy : Check.Checked NullPolicy} {international : Check.Checked Bool}
    {request : Request} (h : combine expression bindings nullPolicy international = .ok request) :
    bindings = .ok request.bindings := by
  unfold combine at h
  split at h
  · obtain rfl := Except.ok.inj h
    rfl
  · cases h

/-- **The variables of a request are null or numbers.** -/
theorem Made.values {request : Request} (h : request.Made) {name : String} {d : Datum}
    (hd : request.bindings.get? name = some d) : d = .null ∨ d.IsNumber := by
  have hall : ∀ p ∈ request.bindings, p.2 = .null ∨ p.2.IsNumber := by
    cases h with
    | call h => exact checkVariables_eq_ok (combine_eq_ok h)
    | @record fields _ h =>
      have hvariables := combine_eq_ok h
      split at hvariables
      · next d _ =>
        cases d with
        | record given => exact checkVariables_eq_ok hvariables
        | null | bool | int | real | text | list | foreign => cases hvariables
      · rw [← Except.ok.inj hvariables]
        simp
  obtain ⟨p, hp, rfl⟩ := Option.map_eq_some_iff.1 hd
  exact hall p (List.mem_of_find?_eq_some hp)

end Request

end Reckon
