/-
What registries are like after any calls on them and on their copies
(`Registry.run_wellFormed`). Calls that are refused change nothing, a declaration
that is accepted changes what is found under its name and nothing else, and a
frozen registry stays as it is for good.

A call concerns one of several registries, told by its place; a copy takes a
place of its own at the end, so whatever is done to it is done elsewhere. What a
call can do is said once (`Call.Stepped`), and what a run of calls keeps follows
by induction from what one call keeps.
-/
import Mathlib.Data.List.Nodup
import Reckon.Proofs.Registry.Reached
import Reckon.Proofs.Token.Classes

namespace Reckon.Registry

/-! ## Calls -/

/-- A call on the registry at a place. -/
inductive Call where
  | register (place : Nat) (d : Declaration)
  | freeze (place : Nat)
  | copy (place : Nat)

namespace Call

/-- The registries after a call. There is none to call at a place beyond the last. -/
def step (registries : List Registry) : Call → List Registry
  | register place d =>
    match registries[place]? with
    | none => registries
    | some r =>
      match r.register d with
      | .error _ => registries
      | .ok registration => registries.set place registration.registry
  | freeze place =>
    match registries[place]? with
    | none => registries
    | some r => registries.set place r.freeze
  | copy place =>
    match registries[place]? with
    | none => registries
    | some r => registries ++ [r.copy]

/-- The registries after several calls. -/
def run (registries : List Registry) (calls : List Call) : List Registry :=
  calls.foldl step registries

/-- What a call can make of registries. -/
inductive Stepped (registries : List Registry) : List Registry → Prop
  | unchanged : Stepped registries registries
  | registered {place r d registration} : registries[place]? = some r →
      r.register d = .ok registration →
      Stepped registries (registries.set place registration.registry)
  | frozen {place r} : registries[place]? = some r →
      Stepped registries (registries.set place r.freeze)
  | copied {r} : r ∈ registries → Stepped registries (registries ++ [r.copy])

variable {registries : List Registry}

theorem step_stepped (registries : List Registry) (call : Call) :
    Stepped registries (step registries call) := by
  cases call with
  | register place d =>
    rw [step]
    split
    · exact .unchanged
    · next r hr =>
      split
      · exact .unchanged
      · next registration hregister => exact .registered hr hregister
  | freeze place =>
    rw [step]
    split
    · exact .unchanged
    · next r hr => exact .frozen hr
  | copy place =>
    rw [step]
    split
    · exact .unchanged
    · next r hr => exact .copied (List.mem_of_getElem? hr)

/-! ## What calls keep -/

theorem Stepped.reached {after : List Registry} (hstep : Stepped registries after)
    (h : ∀ r ∈ registries, r.Reached) : ∀ r ∈ after, r.Reached := by
  intro r hr
  cases hstep with
  | unchanged => exact h r hr
  | registered hplace hregister =>
    rcases List.mem_or_eq_of_mem_set hr with hr | rfl
    · exact h r hr
    · exact (h _ (List.mem_of_getElem? hplace)).register hregister
  | frozen hplace =>
    rcases List.mem_or_eq_of_mem_set hr with hr | rfl
    · exact h r hr
    · exact (h _ (List.mem_of_getElem? hplace)).freeze
  | copied hcopied =>
    rcases List.mem_append.1 hr with hr | hr
    · exact h r hr
    · rw [List.mem_singleton.1 hr]
      exact (h _ hcopied).copy

theorem reached_run (h : ∀ r ∈ registries, r.Reached) (calls : List Call) :
    ∀ r ∈ run registries calls, r.Reached := by
  induction calls generalizing registries with
  | nil => exact h
  | cons call calls ih => exact ih ((step_stepped registries call).reached h)

/-- A frozen registry stays as it is. -/
theorem Stepped.getElem?_of_frozen {after : List Registry} (hstep : Stepped registries after)
    {place : Nat} {r : Registry} (h : registries[place]? = some r) (hfrozen : r.frozen = true) :
    after[place]? = some r := by
  cases hstep with
  | unchanged => exact h
  | @registered other r' d registration hother hregister =>
    have hne : other ≠ place := by
      rintro rfl
      obtain rfl := Option.some.inj (h.symm.trans hother)
      rw [(register_eq_ok hregister).1] at hfrozen
      cases hfrozen
    rw [List.getElem?_set_ne hne, h]
  | @frozen other r' hother =>
    by_cases heq : other = place
    · subst heq
      obtain rfl := Option.some.inj (h.symm.trans hother)
      have hsame : r.freeze = r := by rw [Registry.freeze, ← hfrozen]
      rw [hsame, List.getElem?_set_self (List.getElem?_eq_some_iff.1 h).1]
    · rw [List.getElem?_set_ne heq, h]
  | copied => rw [List.getElem?_append_left (List.getElem?_eq_some_iff.1 h).1, h]

theorem frozen_run {place : Nat} {r : Registry} (h : registries[place]? = some r)
    (hfrozen : r.frozen = true) (calls : List Call) :
    (run registries calls)[place]? = some r := by
  induction calls generalizing registries with
  | nil => exact h
  | cons call calls ih =>
    exact ih ((step_stepped registries call).getElem?_of_frozen h hfrozen)

end Call

/-! ## Tables -/

theorem contains_iff {r : Registry} {name : String} : r.contains name = true ↔ name ∈ r.names := by
  simp [contains, get?, names]

/-- A name keeps its place, and a new one comes at the end. -/
theorem names_insert (r : Registry) (o : Operation) :
    (r.insert o).names = if r.contains o.name then r.names else r.names ++ [o.name] := by
  unfold names insert
  split
  · rw [List.map_map]
    refine List.map_congr_left fun p _ => ?_
    by_cases hp : p.name = o.name <;> simp [hp]
  · simp

theorem nodup_insert {r : Registry} (h : r.names.Nodup) (o : Operation) :
    (r.insert o).names.Nodup := by
  rw [names_insert]
  split
  · exact h
  · next hnew =>
    rw [contains_iff] at hnew
    rw [← List.concat_eq_append]
    exact h.concat hnew

theorem Reached.nodup {r : Registry} (h : r.Reached) : r.names.Nodup := by
  induction h with
  | empty => exact List.nodup_nil
  | register _ hregister ih =>
    rw [(register_eq_ok hregister).2.2]
    exact nodup_insert ih _
  | freeze _ ih | copy _ ih => exact ih

/-- Without two operations of one name an operation is found under its name. -/
theorem get?_eq_some_iff {r : Registry} (h : r.names.Nodup) {name : String} {o : Operation} :
    r.get? name = some o ↔ o ∈ r.operations ∧ o.name = name := by
  refine ⟨fun ho => ⟨List.mem_of_find?_eq_some ho, name_of_get? ho⟩, ?_⟩
  rintro ⟨ho, rfl⟩
  cases hfind : r.get? o.name with
  | none => exact absurd (List.find?_eq_none.1 hfind o ho) (by simp)
  | some p =>
    have hp := List.mem_of_find?_eq_some hfind
    rw [List.inj_on_of_nodup_map h hp ho (name_of_get? hfind)]

/-! ## Runs of calls -/

/-- What callers, the scanner and the parser rely on. -/
structure WellFormed (r : Registry) : Prop where
  nodup : r.names.Nodup
  keyed : ∀ name o, r.get? name = some o ↔ o ∈ r.operations ∧ o.name = name
  functions : ∀ o ∈ r.operations, o.isFunction = true →
    o.name ≠ "" ∧ (∀ c ∈ o.name.toList, Text.isLetter c = true) ∧
      1 ≤ o.minArgs ∧ ∀ most ∈ o.maxArgs, o.minArgs ≤ most
  operators : ∀ o ∈ r.operations, o.isFunction = false → ∃ c, o.name = String.singleton c ∧
    (Text.isAlphanumeric c = false ∧ Text.isDigit c = false ∧ Text.isLetter c = false ∧
      Text.isBlank c = false ∧ c ≠ '(' ∧ c ≠ ')' ∧ c ≠ '.' ∧ c ≠ ',') ∧
    1 ≤ o.precedence ∧ ∀ count, o.accepts count = true ↔ count = 2
  classes : ∀ c (k k' : CharClass), k.holds r c = true → k'.holds r c = true → k = k'

theorem Reached.wellFormed {r : Registry} (h : r.Reached) : r.WellFormed where
  nodup := h.nodup
  keyed _ _ := get?_eq_some_iff h.nodup
  functions o ho hfunction := by
    cases h.declared o ho with
    | function _ hne hletters _ hmin hmax =>
      exact ⟨hne, fun c hc => List.all_eq_true.1 hletters c hc, hmin, hmax⟩
    | operator hoperator => simp [hoperator] at hfunction
  operators o ho hoperator := by
    cases h.declared o ho with
    | function hfunction => simp [hfunction] at hoperator
    | @operator c _ hname hsymbol hprecedence hmin hmax =>
      obtain ⟨hdigit, hletter, hblank, hpoint, hcomma, hopen, hclose⟩ := isSymbol_eq_true hsymbol
      have halnum : Text.isAlphanumeric c = false := by
        simp only [Reckon.isSymbol, Bool.and_eq_true, Bool.not_eq_true'] at hsymbol
        exact hsymbol.1.1
      refine ⟨c, hname, ⟨halnum, hdigit, hletter, hblank, hopen, hclose, hpoint, hcomma⟩,
        hprecedence, fun count => ?_⟩
      simp only [Operation.accepts, hmin, hmax, Bool.and_eq_true, decide_eq_true_eq]
      omega
  classes _ _ _ hk hk' := CharClass.unique h hk hk'

/-- **Registries after any calls.** From an empty registry or one of arithmetic, every registry that
calls lead to is well-formed, and the scanner may look for classes of characters in any order. A
declaration that is refused changes nothing; one that is accepted changes what is found under its
name and under no other, in this registry alone. What is frozen stays as it is, whatever follows. -/
theorem run_wellFormed {start : Registry}
    (hstart : start = empty ∨ ∃ functions, start = (arithmetic functions).registry)
    (calls : List Call) :
    let registries := Call.run [start] calls
    (∀ r ∈ registries, r.WellFormed ∧ ∀ order : List CharClass, (∀ k, k ∈ order) →
      ∀ source limits, tokenizeIn order source r limits = tokenize source r limits) ∧
    (∀ (place : Nat) r d, registries[place]? = some r →
      (∀ refusal, r.register d = .error refusal →
        Call.step registries (.register place d) = registries) ∧
      ∀ registration, r.register d = .ok registration → ∃ name, d.name = .text name ∧
        Call.step registries (.register place d) = registries.set place registration.registry ∧
        registration.registry.get? name = some registration.operation ∧
        ∀ other, other ≠ name → registration.registry.get? other = r.get? other) ∧
    ∀ (place : Nat) (r : Registry), registries[place]? = some r → r.frozen = true →
      ∀ further, (Call.run registries further)[place]? = some r := by
  intro registries
  have hreached : ∀ r ∈ registries, r.Reached := by
    refine Call.reached_run (fun r hr => ?_) calls
    rw [List.mem_singleton.1 hr]
    rcases hstart with rfl | ⟨functions, rfl⟩
    · exact .empty
    · exact Reached.empty.registerAll _
  refine ⟨fun r hr => ?_, fun place r d hplace => ⟨fun refusal hrefusal => ?_,
    fun registration hregister => ?_⟩, fun place r hplace hfrozen further =>
      Call.frozen_run hplace hfrozen further⟩
  · exact ⟨(hreached r hr).wellFormed, fun order horder source limits =>
      tokenizeIn_eq (hreached r hr) horder source limits⟩
  · simp only [Call.step, hplace, hrefusal]
  · obtain ⟨_, hcheck, hinsert⟩ := register_eq_ok hregister
    have hname := (Declaration.check_eq_ok hcheck).1
    refine ⟨_, hname, by simp only [Call.step, hplace, hregister], ?_, fun other hother => ?_⟩
    · rw [hinsert, get?_insert_self]
    · rw [hinsert, get?_insert_of_ne r _ hother]

/-- The copy of a frozen registry takes a further operator, and the frozen one keeps what it has. -/
theorem run_wellFormed_copy :
    let start := (arithmetic true).registry
    let calls := [.freeze 0, .copy 0, .register 1 (operator "^" 3 Arithmetic.product)]
    (∃ r, (Call.run [start] calls)[1]? = some r ∧ r.contains "^" = true ∧ r.WellFormed) ∧
      ∀ further, (Call.run (Call.run [start] [.freeze 0]) further)[0]? = some start.freeze := by
  intro start calls
  have hstart : start = empty ∨ ∃ functions, start = (arithmetic functions).registry :=
    .inr ⟨true, rfl⟩
  have hpower : ((Call.run [start] calls)[1]?.any (·.contains "^")) = true := by decide +kernel
  obtain ⟨r, hr, hcontains⟩ := (Option.any_eq_true _ _).1 hpower
  refine ⟨⟨r, hr, hcontains, ?_⟩, fun further => ?_⟩
  · exact ((run_wellFormed hstart calls).1 r (List.mem_of_getElem? hr)).1
  · exact (run_wellFormed hstart [.freeze 0]).2.2 0 start.freeze rfl rfl further

end Reckon.Registry
