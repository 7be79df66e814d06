/-
The registries that calls of `register` lead to, from an empty one and through
freezing and copying. All operations in them have passed the check of their
declarations: functions are words, and operators single symbols that bind with a
precedence of at least one (`Registry.Reached.declared`).
-/
import Reckon.Proofs.Outcome
import Reckon.Registry.Standard

namespace Reckon

/-- What the check of a declaration makes sure of. -/
inductive Operation.Declared : Operation → Prop
  | function {o} : o.isFunction = true → o.name ≠ "" → o.name.toList.all Text.isLetter = true →
      o.precedence = 0 → 1 ≤ o.minArgs → (∀ most ∈ o.maxArgs, o.minArgs ≤ most) → Declared o
  | operator {o c} : o.isFunction = false → o.name = String.singleton c → isSymbol c = true →
      1 ≤ o.precedence → o.minArgs = 2 → o.maxArgs = some 2 → Declared o

theorem Operation.Declared.one_le_minArgs {o : Operation} (h : o.Declared) : 1 ≤ o.minArgs := by
  cases h with
  | function _ _ _ _ hmin => exact hmin
  | operator _ _ _ _ hmin => omega

/-- No operation takes no operands. -/
theorem Operation.Declared.count_pos {o : Operation} (h : o.Declared) {count : Nat}
    (haccepts : o.accepts count = true) : 0 < count := by
  have hmin := h.one_le_minArgs
  have hcount := of_decide_eq_true (Bool.and_eq_true_iff.1 haccepts).1
  omega

/-- What an accepted declaration tells of its operation. -/
theorem Declaration.check_eq_ok {d : Declaration} {o : Operation} (h : d.check = .ok o) :
    d.name = .text o.name ∧ d.reducer = some o.reducer ∧ o.isFunction = d.isFunction ∧
      o.Declared := by
  unfold check at h
  split at h
  case h_2 => cases h
  next name hname =>
  split at h
  · cases h
  next hnonempty =>
  split at h
  · cases h
  next reducer hreducer =>
  split at h
  · next hfunction =>
    split at h
    · cases h
    next hletters =>
    split at h
    · cases h
    next hmin =>
    have hne : name ≠ "" := by simpa using hnonempty
    have hall : name.toList.all Text.isLetter = true := by simpa using hletters
    split at h
    · split at h
      · cases h
      next most _ hmost =>
      obtain rfl := Except.ok.inj h
      exact ⟨hname, hreducer, hfunction.symm,
        .function rfl hne hall rfl (Int.not_lt.1 hmin) (by simpa using hmost)⟩
    · obtain rfl := Except.ok.inj h
      exact ⟨hname, hreducer, hfunction.symm,
        .function rfl hne hall rfl (Int.not_lt.1 hmin) (by simp)⟩
  · next hoperator =>
    split at h
    · next c hc =>
      split at h
      · cases h
      next hsymbol =>
      split at h
      · cases h
      next hprec =>
      obtain rfl := Except.ok.inj h
      have hsingleton : name = String.singleton c := by
        rw [String.singleton_eq_ofList, ← hc, String.ofList_toList]
      exact ⟨hname, hreducer, (Bool.eq_false_iff.2 hoperator).symm,
        .operator rfl hsingleton (by simpa using hsymbol) (Int.not_lt.1 hprec) rfl rfl⟩
    · cases h

namespace Registry

/-- The registries that calls of `register` lead to. -/
inductive Reached : Registry → Prop
  | empty : Reached empty
  | register {r d registration} : Reached r → r.register d = .ok registration →
      Reached registration.registry
  | freeze {r} : Reached r → Reached r.freeze
  | copy {r} : Reached r → Reached r.copy

theorem mem_insert {r : Registry} {o p : Operation} (h : p ∈ (r.insert o).operations) :
    p = o ∨ p ∈ r.operations := by
  unfold insert at h
  dsimp only at h
  split at h
  · obtain ⟨q, hq, rfl⟩ := List.mem_map.1 h
    by_cases hn : (q.name == o.name) = true
    · exact .inl (if_pos hn)
    · rw [if_neg hn]
      exact .inr hq
  · simpa [or_comm] using h

theorem register_eq_ok {r : Registry} {d : Declaration} {registration : Registration}
    (h : r.register d = .ok registration) :
    r.frozen = false ∧ d.check = .ok registration.operation ∧
      registration.registry = r.insert registration.operation := by
  unfold register at h
  by_cases hf : r.frozen = true
  · simp [hf, throw, throwThe, MonadExceptOf.throw, bind, Except.bind] at h
  · rw [if_neg hf, bind_eq_ok] at h
    obtain ⟨o, ho, h⟩ := h
    dsimp only at h
    rw [pure_eq_ok] at h
    subst h
    exact ⟨by simpa using hf, ho, rfl⟩

/-- **Whatever is in a registry has been checked.** -/
theorem Reached.declared {r : Registry} (h : r.Reached) : ∀ o ∈ r.operations, o.Declared := by
  induction h with
  | empty => simp [Registry.empty]
  | register _ hreg ih =>
    obtain ⟨_, hcheck, hinsert⟩ := register_eq_ok hreg
    rw [hinsert]
    intro p hp
    rcases mem_insert hp with rfl | hp
    · exact (Declaration.check_eq_ok hcheck).2.2.2
    · exact ih p hp
  | freeze _ ih => exact ih
  | copy _ ih => exact ih

/-- Registering one declaration after another is registering. -/
theorem Reached.registerAll {r : Registry} (h : r.Reached) :
    ∀ ds : List Declaration, (r.registerAll ds).registry.Reached
  | [] => h
  | d :: ds => by
    unfold Registry.registerAll
    split
    · exact h
    · next hreg => exact (h.register hreg).registerAll ds

theorem standard_reached : standard.Reached := (Reached.empty.registerAll _).freeze

/-- Operators are symbols. -/
theorem Reached.isSymbol {r : Registry} (h : r.Reached) {c : Char}
    (hc : r.isOperator (String.singleton c) = true) : isSymbol c = true := by
  unfold isOperator at hc
  split at hc
  · next o ho =>
    cases h.declared o (List.mem_of_find?_eq_some ho) with
    | function hf => simp [hf] at hc
    | @operator c' _ hname hsymbol =>
      have hs : String.singleton c' = String.singleton c := hname ▸ name_of_get? ho
      have hcs := congrArg String.toList hs
      simp only [String.toList_singleton, List.cons.injEq, and_true] at hcs
      exact hcs ▸ hsymbol
  · cases hc

/-- Operators have a precedence of at least one. -/
theorem Reached.one_le_precedence {r : Registry} (h : r.Reached) {name : String} {o : Operation}
    (ho : r.get? name = some o) (hop : o.isFunction = false) : 1 ≤ o.precedence := by
  cases h.declared o (List.mem_of_find?_eq_some ho) with
  | function hf => simp [hf] at hop
  | operator _ _ _ hprecedence => exact hprecedence

end Registry

end Reckon
