/-
The registry of operations: a table by exact name, in the order of first
registration. A declaration is checked before it enters; a frozen registry takes
none. Operators are single symbols that the scanner has no other use for, and
functions are words of ASCII letters, so no text can be read in two ways.
-/
import Reckon.Journal
import Reckon.Operation
import Reckon.Text
import Reckon.Text.Alphanumeric

namespace Reckon

/-- A request to register an operation, not yet checked. The name may be a value of any kind, and
the reducer may be no function at all. -/
structure Declaration where
  name : Datum
  isFunction : Bool
  reducer : Option Reducer
  precedence : Int := 0
  minArgs : Int := 1
  maxArgs : Option Int := none

/-- Why a declaration is refused. -/
inductive RegistrationError where
  | frozen
  | noName
  | notCallable (name : String)
  | functionName (name : String)
  | noArguments (name : String)
  | argumentBounds (name : String) (least most : Int)
  | symbol (name : String)
  | precedence (name : String)
  deriving DecidableEq, Repr

namespace RegistrationError

def message : RegistrationError → String
  | frozen => "Operation registry is frozen"
  | noName => "Operation name must be a non-empty string"
  | notCallable name => s!"Reducer for operation '{name}' is not callable"
  | functionName name => s!"Function name must be alphabetic: '{name}'"
  | noArguments name => s!"Function '{name}' must accept at least one argument"
  | argumentBounds name least most =>
    s!"Function '{name}' has max_args {most} below min_args {least}"
  | symbol name => s!"Operator must be a single symbol character: '{name}'"
  | precedence name => s!"Operator '{name}' needs a precedence of at least 1"

def fault (e : RegistrationError) : Fault where
  kind := match e with
    | frozen => .runtime
    | notCallable _ => .type
    | _ => .value
  message := e.message

end RegistrationError

/-- The characters that structure an expression: they are no operators. -/
def isReserved (c : Char) : Bool := c = '(' || c = ')' || c = '.' || c = ','

/-- A character that may stand for an operator. -/
def isSymbol (c : Char) : Bool :=
  !Text.isAlphanumeric c && !Text.isBlank c && !isReserved c

namespace Declaration

/-- The operation that a declaration describes. Operators take two operands whatever they declare,
and functions have no precedence. -/
def check (d : Declaration) : Except RegistrationError Operation :=
  match d.name with
  | .text name =>
    if name.isEmpty then .error .noName
    else match d.reducer with
    | none => .error (.notCallable name)
    | some reducer =>
      if d.isFunction then
        if !name.toList.all Text.isLetter then .error (.functionName name)
        else if d.minArgs < 1 then .error (.noArguments name)
        else match d.maxArgs with
        | some most =>
          if most < d.minArgs then .error (.argumentBounds name d.minArgs most)
          else .ok ⟨name, true, reducer, 0, d.minArgs, some most⟩
        | none => .ok ⟨name, true, reducer, 0, d.minArgs, none⟩
      else match name.toList with
      | [c] =>
        if !isSymbol c then .error (.symbol name)
        else if d.precedence < 1 then .error (.precedence name)
        else .ok ⟨name, false, reducer, d.precedence, 2, some 2⟩
      | _ => .error (.symbol name)
  | _ => .error .noName

end Declaration

/-- Operations by name, in the order in which the names were first registered. -/
structure Registry where
  operations : List Operation := []
  frozen : Bool := false

namespace Registry

/-- A registry without operations. -/
def empty : Registry := {}

def get? (r : Registry) (name : String) : Option Operation :=
  r.operations.find? (·.name == name)

def contains (r : Registry) (name : String) : Bool := (r.get? name).isSome

/-- Whether the name is that of a registered operator. -/
def isOperator (r : Registry) (name : String) : Bool :=
  match r.get? name with
  | some o => !o.isFunction
  | none => false

/-- Whether the name is that of a registered function. -/
def isFunction (r : Registry) (name : String) : Bool :=
  match r.get? name with
  | some o => o.isFunction
  | none => false

def size (r : Registry) : Nat := r.operations.length

def names (r : Registry) : List String := r.operations.map (·.name)

/-- Puts an operation in the place of the one of its name, or at the end. -/
def insert (r : Registry) (o : Operation) : Registry :=
  { r with
    operations :=
      if r.contains o.name then r.operations.map fun p => if p.name == o.name then o else p
      else r.operations ++ [o] }

/-- An operation is found under its own name. -/
theorem name_of_get? {r : Registry} {name : String} {o : Operation} (h : r.get? name = some o) :
    o.name = name := by
  simpa using List.find?_some h

theorem find?_map_replace {os : List Operation} {o : Operation}
    (h : (os.find? (·.name == o.name)).isSome) :
    (os.map fun p => if p.name == o.name then o else p).find? (·.name == o.name) = some o := by
  induction os with
  | nil => simp at h
  | cons p os ih =>
    rw [List.map_cons, List.find?_cons]
    cases hp : p.name == o.name
    · rw [List.find?_cons, hp] at h
      simpa [hp] using ih h
    · simp

/-- An operation that has just been put in is found. -/
theorem get?_insert_self (r : Registry) (o : Operation) : (r.insert o).get? o.name = some o := by
  unfold insert get? contains
  split
  · exact find?_map_replace ‹_›
  · rename_i h
    rw [get?, Bool.not_eq_true, Option.isSome_eq_false_iff, Option.isNone_iff_eq_none] at h
    simp [List.find?_append, h]

/-- Putting in an operation changes what is found under no other name. -/
theorem get?_insert_of_ne (r : Registry) (o : Operation) {name : String} (h : name ≠ o.name) :
    (r.insert o).get? name = r.get? name := by
  have hne : (o.name == name) = false := by simpa using fun e => h e.symm
  unfold insert get?
  split
  · generalize r.operations = os
    induction os with
    | nil => rfl
    | cons p os ih =>
      rw [List.map_cons, List.find?_cons, List.find?_cons, ih]
      cases hp : p.name == o.name
      · rfl
      · rw [beq_iff_eq] at hp
        simp [hp, hne]
  · simp [List.find?_append, hne]

def freeze (r : Registry) : Registry := { r with frozen := true }

/-- The same operations, open to further ones. -/
def copy (r : Registry) : Registry := { r with frozen := false }

@[simp] theorem get?_freeze (r : Registry) (name : String) : r.freeze.get? name = r.get? name := rfl

@[simp] theorem get?_copy (r : Registry) (name : String) : r.copy.get? name = r.get? name := rfl

/-- An accepted registration. -/
structure Registration where
  registry : Registry
  operation : Operation
  events : List Event

/-- Adds the operation that a declaration describes, or refuses it. -/
def register (r : Registry) (d : Declaration) : Except RegistrationError Registration := do
  if r.frozen then throw .frozen
  let operation ← d.check
  let overwritten := if r.contains operation.name then [Event.operationOverwritten operation.name]
    else []
  return {
    registry := r.insert operation
    operation
    events := overwritten ++ [.operationRegistered operation.name operation.isFunction] }

/-- What comes of several declarations: the registry so far, the events, and the first refusal if
there is one. -/
structure Batch where
  registry : Registry
  events : List Event := []
  refusal : Option RegistrationError := none

/-- Registers one declaration after another, up to the first that is refused. -/
def registerAll (r : Registry) : List Declaration → Batch
  | [] => { registry := r }
  | d :: ds =>
    match r.register d with
    | .error refusal => { registry := r, refusal := some refusal }
    | .ok registration =>
      let rest := registration.registry.registerAll ds
      { rest with events := registration.events ++ rest.events }

end Registry

end Reckon
