/-
The sizes of a derivation that limits are put on: how deep its parentheses, calls
and negations are nested (`Derivation.nesting`), how many arguments its calls have
(`Derivation.calls`), and how many nodes it makes (`Derivation.nodes`).

The checks on the way through a derivation compare a counter that goes up and
down. From any place on they all pass just if the nesting around the place and
the nesting below it are within the limit together, and so are all calls
(`Derivation.within_eq_ok`); and one that fails tells of a size that is indeed
too great (`Derivation.exceeds_of_within`). That infix operators take two operands
is checked as well, but no registry has others (`Derives.infixAccepted`).
-/
import Reckon.Proofs.Grammar.Completeness
import Reckon.Proofs.Registry.Reached
import Reckon.Proofs.Tree.Cells

namespace Reckon

open Grammar (check)

/-! ## Checks -/

/-- The failure that tells how a limit is exceeded. -/
def Failure.exceeded (limit : String) (bound actual : Int) : Failure :=
  .diagnostic { cause := .limitExceeded limit bound actual }

/-- The failure tells of a limit that is exceeded. -/
def Failure.IsLimit (f : Failure) : Prop := ∃ d, f = .diagnostic d ∧ d.kind = .limit

theorem Failure.isLimit_exceeded {limit : String} {bound actual : Int} :
    (exceeded limit bound actual).IsLimit := ⟨_, rfl, rfl⟩

namespace Grammar

variable {limit : String} {bound actual : Int}

theorem check_eq_ok : check (Limits.check limit bound actual) = .ok () ↔ actual ≤ bound := by
  unfold check Limits.check
  split
  · simp only [mapError_error, reduceCtorEq, false_iff]
    omega
  · simp only [mapError_ok, true_iff]
    omega

theorem check_eq_error {f : Failure} : check (Limits.check limit bound actual) = .error f ↔
    bound < actual ∧ f = .exceeded limit bound actual := by
  unfold check Limits.check
  split
  · next h =>
    rw [mapError_error, Except.error.injEq, eq_comm]
    simp [h, Failure.exceeded]
  · next h => simp [mapError_ok, h]

theorem isLimit_of_check {f : Failure} (h : check (Limits.check limit bound actual) = .error f) :
    f.IsLimit := by
  obtain ⟨_, rfl⟩ := check_eq_error.1 h
  exact Failure.isLimit_exceeded

end Grammar

/-! ## Measures -/

namespace Derivation

/-- The most parentheses, calls and negations around any one point. -/
def nesting : Derivation → Nat
  | operand d | plain d => d.nesting
  | binary left _ _ right => max left.nesting right.nesting
  | negation _ d | group _ d _ => d.nesting + 1
  | call _ _ _ args _ => args.nesting + 1
  | number _ _ | name _ | noArguments | noFurther => 0
  | arguments d rest | further _ d rest => max d.nesting rest.nesting

/-- How many arguments each of the calls has. -/
def calls : Derivation → List Nat
  | operand d | plain d | negation _ d | group _ d _ => d.calls
  | binary left _ _ right => left.calls ++ right.calls
  | call _ _ _ args _ => args.exprs.length :: args.calls
  | number _ _ | name _ | noArguments | noFurther => []
  | arguments d rest | further _ d rest => d.calls ++ rest.calls

/-- Numbers, names, calls, negations and infix operators, each of which makes a node. -/
def nodes : Derivation → Nat
  | operand d | plain d | group _ d _ => d.nodes
  | binary left _ _ right => left.nodes + right.nodes + 1
  | negation _ d => d.nodes + 1
  | call _ _ _ args _ => args.nodes + 1
  | number _ _ | name _ => 1
  | noArguments | noFurther => 0
  | arguments d rest | further _ d rest => d.nodes + rest.nodes

/-- The nodes of a derivation are those of what it stands for. -/
theorem sizeAll_exprs : ∀ d : Derivation, Expr.sizeAll d.exprs = d.nodes
  | operand d | plain d | group _ d _ => sizeAll_exprs d
  | binary left _ _ right => by
    simp [exprs, nodes, Expr.sizeAll, Expr.size, Expr.sizeAll_append, sizeAll_exprs left,
      sizeAll_exprs right]
  | negation _ d => by simp [exprs, nodes, Expr.sizeAll, Expr.size, sizeAll_exprs d]
  | call _ _ _ args _ => by simp [exprs, nodes, Expr.sizeAll, Expr.size, sizeAll_exprs args]
  | number _ _ | name _ => rfl
  | noArguments | noFurther => rfl
  | arguments d rest | further _ d rest => by
    simp [exprs, nodes, Expr.sizeAll_append, sizeAll_exprs d, sizeAll_exprs rest]

theorem nodes_eq_size {d : Derivation} {e : Expr} (he : d.exprs = [e]) : d.nodes = e.size := by
  simp [← sizeAll_exprs, he, Expr.sizeAll]

end Derivation

/-! ## Infix operators -/

/-- Every infix operator takes two operands. -/
def Derivation.InfixAccepted : Derivation → Prop
  | operand d | plain d | group _ d _ | negation _ d => d.InfixAccepted
  | binary left _ o right => left.InfixAccepted ∧ right.InfixAccepted ∧ o.accepts 2 = true
  | call _ _ _ args _ => args.InfixAccepted
  | number _ _ | name _ | noArguments | noFurther => True
  | arguments d rest | further _ d rest => d.InfixAccepted ∧ rest.InfixAccepted

/-- Infix operators take two operands. -/
theorem Registry.Reached.accepts_infix {r : Registry} (hr : r.Reached) {t : Token} {o : Operation}
    (ho : r.InfixToken t o) : o.accepts 2 = true := by
  cases hr.declared o (List.mem_of_find?_eq_some ho.2.1) with
  | function hf => simp [ho.2.2] at hf
  | operator _ _ _ _ hmin hmax => simp [Operation.accepts, hmin, hmax]

theorem Derives.infixAccepted {r : Registry} (hr : r.Reached) {s d} (h : Derives r s d) :
    d.InfixAccepted := by
  induction h with
  | operand _ ih | plain _ ih | group _ _ _ ih | negation _ _ _ ih | call _ _ _ _ ih => exact ih
  | binary _ ho _ _ ihl ihr => exact ⟨ihl, ihr, hr.accepts_infix ho⟩
  | number | name | noArguments | noFurther => trivial
  | arguments _ _ ihd ihr | further _ _ _ ihd ihr => exact ⟨ihd, ihr⟩

namespace Derivation

/-! ## Limits -/

variable {l : Limits}

/-- Two parts keep to the limits if each of them does. -/
theorem parts_eq_ok {x y : Except Failure Unit} {depth n n' : Nat} {counts counts' : List Nat}
    (hx : x = .ok () ↔
      (depth + n : Int) ≤ l.maxNestingDepth ∧ ∀ count ∈ counts, count ≤ l.maxFunctionArgs)
    (hy : y = .ok () ↔
      (depth + n' : Int) ≤ l.maxNestingDepth ∧ ∀ count ∈ counts', count ≤ l.maxFunctionArgs) :
    (x = .ok () ∧ y = .ok ()) ↔ (depth + (max n n' : Nat) : Int) ≤ l.maxNestingDepth ∧
      ∀ count ∈ counts ++ counts', count ≤ l.maxFunctionArgs := by
  rw [hx, hy, List.forall_mem_append]
  constructor
  · rintro ⟨⟨hleft, hcalls⟩, hright, hcalls'⟩
    exact ⟨by omega, hcalls, hcalls'⟩
  · rintro ⟨hnesting, hcalls, hcalls'⟩
    exact ⟨⟨by omega, hcalls⟩, by omega, hcalls'⟩

/-- Where nothing is exceeded yet, nothing is exceeded below just if the nesting stays within the
limit all the way down, and the calls do. -/
theorem within_eq_ok : ∀ {d : Derivation} {depth : Nat}, d.InfixAccepted →
    (depth : Int) ≤ l.maxNestingDepth → (d.within l depth = .ok () ↔
      (depth + d.nesting : Int) ≤ l.maxNestingDepth ∧ ∀ count ∈ d.calls, count ≤ l.maxFunctionArgs)
  | operand d, _, ha, h | plain d, _, ha, h => within_eq_ok (d := d) ha h
  | number _ _, _, _, h | name _, _, _, h | noArguments, _, _, h | noFurther, _, _, h => by
    simp [within, pure_eq_ok, nesting, calls, h]
  | binary left _ o right, _, ⟨hl, hr, ho⟩, h => by
    rw [within, step_eq_ok, step_eq_ok, Grammar.checkInfix_eq_ok, and_iff_left ho]
    exact parts_eq_ok (within_eq_ok hl h) (within_eq_ok hr h)
  | arguments left right, _, ⟨hl, hr⟩, h | further _ left right, _, ⟨hl, hr⟩, h => by
    rw [within, step_eq_ok]
    exact parts_eq_ok (within_eq_ok hl h) (within_eq_ok hr h)
  | negation _ d, depth, ha, h | group _ d _, depth, ha, h => by
    rw [within, step_eq_ok, Limits.checkNesting, Grammar.check_eq_ok, nesting, calls]
    constructor
    · rintro ⟨hnext, hd⟩
      obtain ⟨hnesting, hcalls⟩ := (within_eq_ok (d := d) ha hnext).1 hd
      exact ⟨by omega, hcalls⟩
    · rintro ⟨hnesting, hcalls⟩
      have hnext : ((depth + 1 : Nat) : Int) ≤ l.maxNestingDepth := by omega
      exact ⟨hnext, (within_eq_ok (d := d) ha hnext).2 ⟨by omega, hcalls⟩⟩
  | call _ _ _ args _, depth, ha, h => by
    rw [within, step_eq_ok, step_eq_ok, Limits.checkNesting, Limits.checkArguments,
      Grammar.check_eq_ok, Grammar.check_eq_ok, nesting, calls, List.forall_mem_cons]
    constructor
    · rintro ⟨hnext, hargs, hcount⟩
      obtain ⟨hnesting, hcalls⟩ := (within_eq_ok (d := args) ha hnext).1 hargs
      exact ⟨by omega, hcount, hcalls⟩
    · rintro ⟨hnesting, hcount, hcalls⟩
      have hnext : ((depth + 1 : Nat) : Int) ≤ l.maxNestingDepth := by omega
      exact ⟨hnext, (within_eq_ok (d := args) ha hnext).2 ⟨by omega, hcalls⟩, hcount⟩

/-- The failure tells of a limit that the derivation exceeds at some depth: nesting by one more than
is allowed, whatever is nested further in, or arguments by those of a call. -/
inductive Exceeds (d : Derivation) (l : Limits) (depth : Nat) : Failure → Prop
  | nesting : l.maxNestingDepth < depth + d.nesting → Exceeds d l depth
      (.exceeded "max_nesting_depth" l.maxNestingDepth (l.maxNestingDepth + 1))
  | arguments {count} : count ∈ d.calls → l.maxFunctionArgs < count → Exceeds d l depth
      (.exceeded "max_function_args" l.maxFunctionArgs count)

theorem Exceeds.mono {d d' : Derivation} {depth depth' : Nat} {f : Failure}
    (h : d.Exceeds l depth f) (hnesting : depth + d.nesting ≤ depth' + d'.nesting)
    (hcalls : d.calls ⊆ d'.calls) : d'.Exceeds l depth' f := by
  cases h with
  | nesting h => exact .nesting (by omega)
  | arguments hcount h => exact .arguments (hcalls hcount) h

/-- The check of the next level is the first to fail: one level above the limit. -/
theorem exceeds_of_checkNesting {d : Derivation} {depth : Nat} {f : Failure}
    (hdepth : (depth : Int) ≤ l.maxNestingDepth) (hnesting : 0 < d.nesting)
    (h : check (l.checkNesting (depth + 1)) = .error f) : d.Exceeds l depth f := by
  obtain ⟨hlt, rfl⟩ := Grammar.check_eq_error.1 h
  have hactual : ((depth + 1 : Nat) : Int) = l.maxNestingDepth + 1 := by omega
  rw [hactual]
  exact .nesting (by omega)

theorem exceeds_of_within {e : Diagnostic} : ∀ {d : Derivation} {depth : Nat},
    (depth : Int) ≤ l.maxNestingDepth → d.within l depth = .error (.diagnostic e) →
    d.Exceeds l depth (.diagnostic e)
  | operand d, _, hdepth, h | plain d, _, hdepth, h =>
    (exceeds_of_within (d := d) hdepth h).mono (Nat.le_refl _) (List.Subset.refl _)
  | number _ _, _, _, h | name _, _, _, h | noArguments, _, _, h | noFurther, _, _, h => by
    simp [within, pure, Except.pure] at h
  | binary left _ o right, _, hdepth, h => by
    simp only [within, bind_eq_error] at h
    rcases h with h | ⟨_, _, h | ⟨_, _, h⟩⟩
    · exact (exceeds_of_within hdepth h).mono (by simp only [nesting]; omega) (by simp [calls])
    · exact (exceeds_of_within hdepth h).mono (by simp only [nesting]; omega) (by simp [calls])
    · exact absurd h (Grammar.checkInfix_ne_diagnostic o e)
  | arguments left right, _, hdepth, h | further _ left right, _, hdepth, h => by
    simp only [within, bind_eq_error] at h
    rcases h with h | ⟨_, _, h⟩
    · exact (exceeds_of_within hdepth h).mono (by simp only [nesting]; omega) (by simp [calls])
    · exact (exceeds_of_within hdepth h).mono (by simp only [nesting]; omega) (by simp [calls])
  | negation _ d, _, hdepth, h | group _ d _, _, hdepth, h => by
    simp only [within, bind_eq_error] at h
    rcases h with h | ⟨_, hnext, h⟩
    · exact exceeds_of_checkNesting hdepth (Nat.succ_pos _) h
    · exact (exceeds_of_within (Grammar.check_eq_ok.1 hnext) h).mono
        (by simp only [nesting]; omega) (by simp [calls])
  | call _ _ _ args _, _, hdepth, h => by
    simp only [within, bind_eq_error] at h
    rcases h with h | ⟨_, hnext, h | ⟨_, _, h⟩⟩
    · exact exceeds_of_checkNesting hdepth (Nat.succ_pos _) h
    · exact (exceeds_of_within (Grammar.check_eq_ok.1 hnext) h).mono
        (by simp only [nesting]; omega) (by simp [calls])
    · obtain ⟨hlt, heq⟩ := Grammar.check_eq_error.1 h
      exact heq ▸ .arguments (by simp [calls]) hlt

/-- Where infix operators take two operands, the checks fail with errors in the expression only. -/
theorem exists_of_within {f : Failure} : ∀ {d : Derivation} {depth : Nat}, d.InfixAccepted →
    d.within l depth = .error f → ∃ e, f = .diagnostic e
  | operand d, _, ha, h | plain d, _, ha, h => exists_of_within (d := d) ha h
  | number _ _, _, _, h | name _, _, _, h | noArguments, _, _, h | noFurther, _, _, h => by
    simp [within, pure, Except.pure] at h
  | binary left _ o right, _, ⟨hl, hr, ho⟩, h => by
    simp only [within, Grammar.checkInfix_eq_ok.2 ho, bind_eq_error, reduceCtorEq, and_false,
      exists_false, or_false] at h
    rcases h with h | ⟨_, _, h⟩
    · exact exists_of_within hl h
    · exact exists_of_within hr h
  | arguments left right, _, ⟨hl, hr⟩, h | further _ left right, _, ⟨hl, hr⟩, h => by
    simp only [within, bind_eq_error] at h
    rcases h with h | ⟨_, _, h⟩
    · exact exists_of_within hl h
    · exact exists_of_within hr h
  | negation _ d, _, ha, h | group _ d _, _, ha, h => by
    simp only [within, bind_eq_error] at h
    rcases h with h | ⟨_, _, h⟩
    · exact ⟨_, (Grammar.check_eq_error.1 h).2⟩
    · exact exists_of_within (d := d) ha h
  | call _ _ _ args _, _, ha, h => by
    simp only [within, bind_eq_error] at h
    rcases h with h | ⟨_, _, h | ⟨_, _, h⟩⟩
    · exact ⟨_, (Grammar.check_eq_error.1 h).2⟩
    · exact exists_of_within (d := args) ha h
    · exact ⟨_, (Grammar.check_eq_error.1 h).2⟩

theorem Exceeds.isLimit {d : Derivation} {depth : Nat} {f : Failure} (h : d.Exceeds l depth f) :
    f.IsLimit := by
  cases h <;> exact Failure.isLimit_exceeded

theorem zero_le_nesting : ((0 : Nat) : Int) ≤ l.maxNestingDepth := Int.le_of_lt l.nesting_pos

theorem isLimit_of_within {d : Derivation} {e : Diagnostic}
    (h : d.within l 0 = .error (.diagnostic e)) : (Failure.diagnostic e).IsLimit :=
  (exceeds_of_within zero_le_nesting h).isLimit

end Derivation

end Reckon
