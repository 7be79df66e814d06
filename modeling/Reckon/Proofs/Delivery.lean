/-
What a calculation delivers. Steps of a calculation are run one after another,
and each adds to what has been seen before it (`Calculation.runFrom_bind`). So a
request is reported as begun, then as finished or failed, and only then is the
result handed to the callback, whose own failures go through to the caller
(`Calculator.calculateRequest_delivers`).
-/
import Reckon.Calculator

namespace Reckon

namespace Calculation

variable {α β : Type}

/-! ## Steps -/

/-- What a step comes to, and all that has been seen after it. -/
def runFrom (seen : List Occurrence) (step : Calculation α) :
    Except Failure α × List Occurrence :=
  step.run.run seen

variable (seen : List Occurrence)

theorem runFrom_pure (a : α) : runFrom seen (pure a) = (.ok a, seen) := rfl

theorem runFrom_throw (f : Failure) : runFrom seen (throw f : Calculation α) = (.error f, seen) :=
  rfl

theorem runFrom_see (occurrence : Occurrence) :
    runFrom seen (see occurrence) = (.ok (), seen ++ [occurrence]) := rfl

theorem runFrom_report (event : Event) :
    runFrom seen (report event) = (.ok (), seen ++ [.reported event]) := rfl

theorem runFrom_ofExcept (x : Except Failure α) : runFrom seen (ofExcept x) = (x, seen) := by
  cases x <;> rfl

/-- The next step goes on from what has been seen, unless the first has failed. -/
theorem runFrom_bind (step : Calculation α) (next : α → Calculation β) :
    runFrom seen (step >>= next) = match runFrom seen step with
      | (.ok a, seen) => runFrom seen (next a)
      | (.error f, seen) => (.error f, seen) := by
  unfold runFrom
  rw [ExceptT.run_bind, StateT.run_bind]
  generalize step.run.run seen = p
  obtain ⟨x, seen⟩ := p
  cases x <;> rfl

/-- A calculation begins with nothing seen. -/
theorem deliver_eq (calculation : Calculation Result) :
    calculation.deliver = ⟨(runFrom [] calculation).1, (runFrom [] calculation).2⟩ := rfl

end Calculation

/-! ## Results -/

namespace Result

end Result

/-! ## Requests -/

namespace Calculator

open Calculation

/-- What the callback makes of a result, if there is one. -/
def answer (result : Result) : Option Callback → Except Failure Unit
  | none => .ok ()
  | some callback => callback result

/-- The call of the callback, if there is one. -/
def calls (result : Result) : Option Callback → List Occurrence
  | none => []
  | some _ => [.delivered result]

variable (c : Calculator) (request : Request) (callback : Option Callback)

theorem runFrom_handOver (result : Result) (seen : List Occurrence) :
    runFrom seen (handOver result callback) =
      (answer result callback, seen ++ calls result callback) := by
  cases callback with
  | none =>
    rw [calls, List.append_nil]
    rfl
  | some callback =>
    rw [handOver, runFrom_bind, runFrom_see]
    exact runFrom_ofExcept _ _

/-- A number and a diagnostic are reported and make a result; a fault does neither. -/
theorem runFrom_resultOf (normalized : String) (seen : List Occurrence) :
    runFrom seen (c.resultOf request normalized) = match c.valueOf request normalized with
      | .ok v => (.ok ⟨request.expression, .ok v⟩,
          seen ++ [.reported (.calculationFinished normalized v)])
      | .error (.diagnostic d) => (.ok ⟨request.expression, .error d⟩,
          seen ++ [.reported (.calculationFailed normalized d.kind.name d.message)])
      | .error (.fault f) => (.error (.fault f), seen) := by
  rw [resultOf]
  cases c.valueOf request normalized with
  | ok v => simp only [runFrom_bind, runFrom_report, runFrom_pure]
  | error f =>
    cases f with
    | diagnostic d => simp only [runFrom_bind, runFrom_report, runFrom_pure]
    | fault f => exact runFrom_throw seen _

/-- What is delivered when the result has been handed over. -/
def handed (events : List Event) (result : Result) (callback : Option Callback) :
    Delivery Failure where
  outcome := (answer result callback).map fun _ => result
  trace := events.map .reported ++ calls result callback

theorem calculateRequest_eq :
    let normalized := normalize request.expression request.international
    let started := Event.calculationStarted normalized request.nullPolicy
    c.calculateRequest request callback = match c.valueOf request normalized with
      | .ok v => handed [started, .calculationFinished normalized v]
          ⟨request.expression, .ok v⟩ callback
      | .error (.diagnostic d) =>
        handed [started, .calculationFailed normalized d.kind.name d.message]
          ⟨request.expression, .error d⟩ callback
      | .error (.fault f) => ⟨.error (.fault f), [.reported started]⟩ := by
  intro normalized started
  have hend (seen : List Occurrence) (result : Result) :
      runFrom seen (do handOver result callback; return result) =
        ((answer result callback).map fun _ => result, seen ++ calls result callback) := by
    rw [runFrom_bind, runFrom_handOver]
    cases answer result callback <;> rfl
  rw [calculateRequest, deliver_eq, runFrom_bind, runFrom_report]
  dsimp only
  rw [runFrom_bind, runFrom_resultOf]
  cases c.valueOf request normalized with
  | ok v =>
    dsimp only
    rw [hend]
    rfl
  | error f =>
    cases f with
    | diagnostic d =>
      dsimp only
      rw [hend]
      rfl
    | fault f => rfl

/-- What comes back without a callback: a failure of the expression is a result. -/
theorem calculateRequest_none :
    (c.calculateRequest request none).outcome =
      match c.valueOf request (normalize request.expression request.international) with
      | .ok x => .ok ⟨request.expression, .ok x⟩
      | .error (.diagnostic d) => .ok ⟨request.expression, .error d⟩
      | .error (.fault f) => .error (.fault f) := by
  rw [calculateRequest_eq]
  cases c.valueOf request (normalize request.expression request.international) with
  | ok => rfl
  | error f => cases f <;> rfl

variable {c request callback}

/-- A result that comes back is that of the expression. -/
theorem valueOf_of_outcome {result : Result}
    (h : (c.calculateRequest request callback).outcome = .ok result) :
    c.valueOf request (normalize request.expression request.international) =
      result.outcome.mapError .diagnostic := by
  have hback {events : List Event} {made : Result}
      (h : (handed events made callback).outcome = .ok result) : made = result := by
    rw [handed] at h
    cases hanswer : answer made callback with
    | ok => exact Except.ok.inj (hanswer ▸ h)
    | error f => simp [hanswer, Except.map] at h
  rw [calculateRequest_eq] at h
  cases hvalue : c.valueOf request (normalize request.expression request.international) with
  | ok v =>
    rw [hvalue] at h
    rw [← hback h]
    rfl
  | error f =>
    rw [hvalue] at h
    cases f with
    | diagnostic d =>
      rw [← hback h]
      rfl
    | fault f => cases h

end Calculator

end Reckon
