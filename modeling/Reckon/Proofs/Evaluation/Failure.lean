/-
How a calculation on the standard registry fails
(`Calculator.calculateRequest_failure`). Unless a limit is exceeded a position in
the normalized expression is told, and a caret below it; and what is said to have
failed, a variable or an operation, begins there.

What the evaluator tells at a node is one of four things where variables are
null or numbers and the operations those of arithmetic (`Evaluator.Told`). A
node stands where the token is that wrote it, and the token where its characters
are, so the position is the same in the tree, the tokens and the text.
-/
import Reckon.Proofs.Evaluation.Escape
import Reckon.Proofs.Grammar.Position
import Reckon.Proofs.Request
import Reckon.Proofs.Tree.Position

namespace Reckon

/-! ## What is told at a node -/

namespace Evaluator

variable {E : Evaluator} {t : Tree} {n : Node} {d : Diagnostic}

/-- What is told at a node: its variable has no value, its operation is refused an operand or fails
for a fault of arithmetic, or it is the root and null. -/
inductive Told (E : Evaluator) (t : Tree) (n : Node) : Cause → Prop
  | unresolved {name} : n.item = .var name → Told E t n (.unresolvedVariable name)
  | nullOperand {o} : n.item = .operation o → Told E t n (.nullOperand (some o.name))
  | failed {o fault} : n.item = .operation o → fault ∈ Fault.arithmetic →
      Told E t n (.operationFailed o.name fault.message)
  | nullRoot {name} : t.rootNode? = some n → n.item = .var name →
      E.bindings.get? name = some .null → Told E t n (.nullOperand none)

variable (hvalues : ∀ name value, E.bindings.get? name = some value →
    value = .null ∨ value.IsNumber)
  (hoperations : ∀ o, n.item = .operation o → o.reducer.Arithmetical)

include hvalues

theorem told_of_variableAt {name : String} (hitem : n.item = .var name)
    (h : E.variableAt n.position name = .error (.diagnostic d)) :
    ∃ cause, E.Told t n cause ∧ d = ⟨cause, some n.position, E.source⟩ := by
  rcases variableAt_eq_error h with ⟨_, hd⟩ | ⟨value, hvalue, hne, hfailed⟩
  · obtain rfl := Failure.diagnostic.inj hd
    exact ⟨_, .unresolved hitem, rfl⟩
  · -- a value that is not null is a number, and numbers fail with faults only
    have hnumber := (hvalues name value hvalue).resolve_left hne
    rcases numberAt_of_isNumber (E := E) hnumber n.position with ⟨x, hx⟩ | hlarge
    · rw [hx] at hfailed
      cases hfailed
    · rw [hlarge] at hfailed
      cases hfailed

include hoperations

theorem told_of_valueAt {before : Array (Option Float)}
    (h : E.valueAt before n = .error (.diagnostic d)) :
    ∃ cause, E.Told t n cause ∧ d = ⟨cause, some n.position, E.source⟩ := by
  rcases valueAt_eq_error h with
    ⟨name, hitem, hvar⟩ | ⟨o, hitem, ⟨hd, _⟩ | ⟨numbers, hadmits, happly⟩⟩
  · exact told_of_variableAt hvalues hitem hvar
  · obtain rfl := Failure.diagnostic.inj hd
    exact ⟨_, .nullOperand hitem, rfl⟩
  · have hne := NullPolicy.admit_ne_nil hadmits
    have hreducer := hoperations o hitem
    obtain ⟨fault, hfault, hd⟩ := applyAt_eq_error_of_tame hreducer.tame hne happly
    obtain rfl := Failure.diagnostic.inj hd
    exact ⟨_, .failed hitem ((hreducer numbers hne).1.fault_mem hfault), rfl⟩

omit hoperations

/-- **An evaluation that fails with a diagnostic tells it at a node.** -/
theorem told_of_numberOf (ht : t.Made)
    (hoperations : ∀ n ∈ t.nodes.toList, ∀ o, n.item = .operation o → o.reducer.Arithmetical)
    (h : E.numberOf t = .error (.diagnostic d)) :
    ∃ n ∈ t.nodes.toList, ∃ cause, E.Told t n cause ∧
      d = ⟨cause, some n.position, E.source⟩ := by
  rcases numberOf_eq_error ht h with ⟨k, n, before, hk, _, hvalue⟩ | ⟨n, name, hn, hitem, hnull, hd⟩
  · have hmem := Tree.mem_of_getElem? hk
    exact ⟨n, hmem, told_of_valueAt hvalues (hoperations n hmem) hvalue⟩
  · obtain rfl := Failure.diagnostic.inj hd
    exact ⟨n, Tree.mem_of_getElem? hn, _, .nullRoot hn hitem hnull, rfl⟩

end Evaluator

/-- The node has a name. Besides that only faults of arithmetic are named. -/
theorem Evaluator.Told.named {E : Evaluator} {t : Tree} {n : Node} {cause : Cause}
    (h : E.Told t n cause) : ∃ name, n.item.name? = some name ∧
      ∀ text ∈ cause.texts, text = name ∨ ∃ fault ∈ Fault.arithmetic, text = fault.message := by
  cases h with
  | @unresolved name hitem => exact ⟨name, by rw [hitem]; rfl, by simp [Cause.texts]⟩
  | @nullOperand o hitem => exact ⟨o.name, by rw [hitem]; rfl, by simp [Cause.texts]⟩
  | @failed o fault hitem hfault =>
    refine ⟨o.name, by rw [hitem]; rfl, ?_⟩
    simpa [Cause.texts] using .inr ⟨fault, hfault, rfl⟩
  | @nullRoot name _ hitem => exact ⟨name, by rw [hitem]; rfl, by simp [Cause.texts]⟩

/-! ## Calculations -/

namespace Calculator

variable {c : Calculator} {request : Request} {text : String} {d : Diagnostic}

/-- What a calculator can tell of a request whose normalized expression is the text: that a limit is
exceeded, what the text has wrong, or what has failed at a node of its tree. -/
inductive Tells (c : Calculator) (request : Request) (text : String) : Diagnostic → Prop
  | limit {limit bound actual} : Tells c request text { cause := .limitExceeded limit bound actual }
  | text {e : Diagnostic} : e.Placed text → e.kind = .lex ∨ e.kind = .grammar →
      Tells c request text e
  | node {t n cause} : c.compile text = .ok t → n ∈ t.nodes.toList →
      Evaluator.Told ⟨request.bindings, request.nullPolicy, some text⟩ t n cause →
      Tells c request text ⟨cause, some n.position, some text⟩

theorem tells_of_valueOf (hc : c.registry = .standard) (hmade : request.Made)
    (hline : OneLine text) (h : c.valueOf request text = .error (.diagnostic d)) :
    c.Tells request text d := by
  have hr : c.registry.Reached := hc ▸ Registry.standard_reached
  rw [valueOf, bind_eq_error] at h
  rcases h with h | ⟨t, ht, h⟩
  · rcases parseText_eq_error hr hline h with ⟨_, _, _, hd⟩ | ⟨d', hd, hplaced, hkind⟩
    · obtain rfl := Failure.diagnostic.inj hd
      exact .limit
    · obtain rfl := Failure.diagnostic.inj hd
      exact .text hplaced hkind
  · obtain ⟨_, _, _, _, htree⟩ := parseText_eq_ok ht
    obtain ⟨tokens, hparse⟩ := exists_parse_of_parseText ht
    have hoperations := Grammar.operation_of_parse (P := fun o _ => o.reducer.Arithmetical) hr
      (fun o ho _ _ => Registry.standard_arithmetical o (hc ▸ ho))
      Operation.negation_arithmetical hparse
    rw [Tree.evaluate_eq, (Tree.ofExpr_eq_ok htree).2.2] at h
    obtain ⟨n, hn, cause, htold, rfl⟩ := Evaluator.told_of_numberOf (fun _ _ => hmade.values)
      (Tree.made_of_parseText ht) hoperations h
    exact .node ht hn htold

/-- Whatever has a position is placed in the text. -/
theorem Tells.placed (h : c.Tells request text d) (hline : OneLine text) :
    d.position = none ∧ d.kind = .limit ∨ d.Placed text := by
  cases h with
  | limit => exact .inl ⟨rfl, rfl⟩
  | text hplaced => exact .inr hplaced
  | @node t n cause ht hn htold =>
    obtain ⟨name, hname, htexts⟩ := htold.named
    obtain ⟨hstands, _⟩ := standsAt_of_parseText ht n hn name hname
    obtain ⟨i, hi, hle, _⟩ := hstands.begins
    have hfaults : ∀ f ∈ Fault.arithmetic, OneLine f.message := by decide
    refine .inr ⟨by cases htold <;> exact nofun, rfl, ⟨i, congrArg some hi, hle⟩, ?_⟩
    intro text htext
    rcases htexts text htext with rfl | ⟨fault, hfault, rfl⟩
    · exact hstands.oneLine hline
    · exact hfaults fault hfault

/-- What is wrong with the value of an expression is told at a node, and the name of the node begins
at the position. -/
theorem Tells.told (h : c.Tells request text d)
    (hkind : d.kind ∉ [DiagnosticKind.limit, .lex, .grammar]) {position : Int}
    (hposition : d.position = some position) :
    ∃ t n cause, c.compile text = .ok t ∧ d.cause = cause ∧
      Evaluator.Told ⟨request.bindings, request.nullPolicy, some text⟩ t n cause ∧
      ∀ name, n.item.name? = some name → BeginsAt text position name := by
  cases h with
  | limit => exact absurd (.head _) hkind
  | text _ hwrong => exact absurd (by simp [hwrong]) hkind
  | @node t n cause ht hn htold =>
    obtain rfl := Option.some.inj hposition
    refine ⟨t, n, cause, ht, rfl, htold, fun name hname => ?_⟩
    obtain ⟨hstands, hne⟩ := standsAt_of_parseText ht n hn name hname
    exact hstands.beginsAt hne

/-- A result that is a failure tells why there is no number. -/
theorem valueOf_of_failed {callback : Option Callback} {result : Result}
    (h : (c.calculateRequest request callback).outcome = .ok result)
    (hfailed : result.outcome = .error d) :
    c.valueOf request (normalize request.expression request.international) =
      .error (.diagnostic d) := by
  rw [valueOf_of_outcome h, hfailed]
  rfl

end Calculator

theorem DiagnosticKind.name_injective : Function.Injective DiagnosticKind.name := by
  intro k k' h
  cases k <;> cases k' <;> first | rfl | simp [name] at h

/-- **Where a calculation fails.** A failure on the standard registry has no position just if a
limit is exceeded. Otherwise the position is in the normalized expression or at its end, and three
lines are shown: the message, the expression and a caret below the position. An unresolved variable
begins there, and so does the operation that fails or is refused a null, or the variable that is
null and all there is. -/
theorem Calculator.calculateRequest_failure (settings : Settings) {request : Request}
    (hmade : request.Made) {callback : Option Callback} {result : Result} {d : Diagnostic}
    (h : ((Calculator.new settings .standard).calculateRequest request callback).outcome =
      .ok result) (hfailed : result.outcome = .error d) :
    let c := Calculator.new settings .standard
    let normalized := normalize request.expression request.international
    (result.position? = none ↔ result.errorType? = some "LimitExceededError") ∧
    ∀ position, result.position? = some position →
      0 ≤ position ∧ position ≤ normalized.length ∧
      result.error? = some d.message ∧
      result.errorContext?.map lines = some [d.message, "  " ++ normalized,
        "  " ++ String.ofList (List.replicate position.toNat ' ') ++ "^"] ∧
      (result.errorType? = some "UnresolvedVariableError" →
        ∃ name, d.cause = .unresolvedVariable name ∧ BeginsAt normalized position name) ∧
      (result.errorType? = some "OperationError" →
        ∃ operation reason, d.cause = .operationFailed operation reason ∧
          BeginsAt normalized position operation) ∧
      (result.errorType? = some "NullValueError" →
        (∃ operation, d.cause = .nullOperand (some operation) ∧
          BeginsAt normalized position operation) ∨
        d.cause = .nullOperand none ∧ ∃ t n name, c.compile normalized = .ok t ∧
          t.rootNode? = some n ∧ n.item = .var name ∧ request.bindings.get? name = some .null ∧
          BeginsAt normalized position name) := by
  intro c normalized
  have hline : OneLine normalized := oneLine_normalize _ _
  have htells : c.Tells request normalized d :=
    tells_of_valueOf rfl hmade hline (valueOf_of_failed h hfailed)
  have hdiagnostic : result.diagnostic? = some d := by rw [Result.diagnostic?, hfailed]
  have hkind {k : DiagnosticKind} : result.errorType? = some k.name ↔ d.kind = k := by
    rw [Result.errorType?, hdiagnostic, Option.map_some, Option.some.injEq,
      DiagnosticKind.name_injective.eq_iff]
  simp only [Result.position?, Result.error?, Result.errorContext?, hdiagnostic, Option.bind_some,
    Option.map_some, Option.some.injEq, true_and]
  refine ⟨Iff.trans ?_ (hkind (k := .limit)).symm, fun position hposition => ?_⟩
  · rcases htells.placed hline with ⟨hnone, hlimit⟩ | hplaced
    · simp [hnone, hlimit]
    · obtain ⟨i, hi, _⟩ := hplaced.position
      simp [hi, hplaced.kind]
  rcases htells.placed hline with ⟨hnone, _⟩ | hplaced
  · rw [hnone] at hposition
    cases hposition
  obtain ⟨i, hi, hle⟩ := hplaced.position
  obtain rfl : position = i := Option.some.inj (hposition.symm.trans hi)
  refine ⟨Int.natCast_nonneg i, Int.ofNat_le.2 hle,
    Diagnostic.lines_context hi hplaced.text hplaced.oneLine hline, ?_, ?_, ?_⟩
  · intro htype
    have hunresolved := (hkind (k := .unresolvedVariable)).1 htype
    obtain ⟨_, _, _, _, hcause, htold, hbegins⟩ := htells.told (by simp [hunresolved]) hi
    rw [Diagnostic.kind, hcause] at hunresolved
    cases htold with
    | @unresolved name hitem => exact ⟨name, hcause, hbegins name (by rw [hitem]; rfl)⟩
    | nullOperand | failed | nullRoot => cases hunresolved
  · intro htype
    have hoperation := (hkind (k := .operation)).1 htype
    obtain ⟨_, _, _, _, hcause, htold, hbegins⟩ := htells.told (by simp [hoperation]) hi
    rw [Diagnostic.kind, hcause] at hoperation
    cases htold with
    | @failed o fault hitem =>
      exact ⟨o.name, fault.message, hcause, hbegins o.name (by rw [hitem]; rfl)⟩
    | unresolved | nullOperand | nullRoot => cases hoperation
  · intro htype
    have hnull := (hkind (k := .nullValue)).1 htype
    obtain ⟨t, n, _, ht, hcause, htold, hbegins⟩ := htells.told (by simp [hnull]) hi
    rw [Diagnostic.kind, hcause] at hnull
    cases htold with
    | @nullOperand o hitem => exact .inl ⟨o.name, hcause, hbegins o.name (by rw [hitem]; rfl)⟩
    | @nullRoot name hroot hitem hbound =>
      exact .inr ⟨hcause, t, n, name, ht, hroot, hitem, hbound,
        hbegins name (by rw [hitem]; rfl)⟩
    | unresolved | failed => cases hnull

/-- A variable without a value is told of where it begins once the spaces are gone. -/
theorem Calculator.calculateRequest_failure_unresolved :
    ∃ request result d, Request.ofFields [("expression", .text "2 * rate")] = .ok request ∧
      (Calculator.standard.calculateRequest request none).outcome = .ok result ∧
      result.outcome = .error d ∧ result.position? = some 2 ∧
      result.errorContext?.map lines =
        some ["Unresolved variable: rate", "  2*rate", "    ^"] ∧
      BeginsAt "2*rate" 2 "rate" := by
  have houtcome : (match (Calculator.standard.calculateRequest {
        expression := "2 * rate"
        bindings := []
        nullPolicy := .nullAsZero
        international := false } none).outcome with
      | .ok result => match result.outcome with
        | .error d => d == ⟨.unresolvedVariable "rate", some 2, some "2*rate"⟩
        | .ok _ => false
      | .error _ => false) = true := by
    decide +kernel
  split at houtcome
  · next result hresult =>
    split at houtcome
    · next d hd =>
      obtain rfl := beq_iff_eq.1 houtcome
      have hmade : Request.ofFields [("expression", .text "2 * rate")] = .ok {
        expression := "2 * rate"
        bindings := []
        nullPolicy := .nullAsZero
        international := false } := rfl
      obtain ⟨hposition, htype⟩ : result.position? = some 2 ∧
          result.errorType? = some "UnresolvedVariableError" := by
        simp only [Result.position?, Result.errorType?, Result.diagnostic?, hd]
        exact ⟨rfl, rfl⟩
      have hnormalized : normalize "2 * rate" false = "2*rate" := by decide +kernel
      obtain ⟨_, hfailure⟩ := calculateRequest_failure {} (.record hmade) hresult hd
      obtain ⟨_, _, _, hcontext, hunresolved, _⟩ := hfailure 2 hposition
      obtain ⟨name, hname, hbegins⟩ := hunresolved htype
      obtain rfl := Cause.unresolvedVariable.inj hname
      rw [hnormalized] at hcontext hbegins
      exact ⟨_, result, _, hmade, hresult, hd, hposition, hcontext, hbegins⟩
    · cases houtcome
  · cases houtcome

end Reckon
