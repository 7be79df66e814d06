/-
Data of any kind: what a variable may be given, what a reducer may return, what
a settings file may hold. Only integers and reals are numbers; everything else
is told apart for the sake of error messages.
-/
namespace Reckon

/-- A value of any kind. Records keep the order of their fields. -/
inductive Datum where
  | null
  | bool (b : Bool)
  | int (i : Int)
  | real (x : Float)
  | text (s : String)
  | list (items : List Datum)
  | record (fields : List (String × Datum))
  /-- A value of a kind beyond these, known by the name of its kind only. -/
  | foreign (kind : String)
  deriving Inhabited

namespace Datum

/-- The name of a value's kind in error messages. -/
def kindName : Datum → String
  | .null => "null"
  | .bool _ => "boolean"
  | .int _ => "number"
  | .real _ => "number"
  | .text _ => "string"
  | .list _ => "list"
  | .record _ => "dict"
  | .foreign kind => kind

/-- A value that counts as nothing: null, false, zero, or empty. -/
def isNothing : Datum → Bool
  | .null => true
  | .bool b => !b
  | .int i => i == 0
  | .real x => x == 0.0
  | .text s => s.isEmpty
  | .list items => items.isEmpty
  | .record fields => fields.isEmpty
  | .foreign _ => false

end Datum

/-- The double nearest to an integer, ties to even; none if it rounds beyond the largest double. -/
def intToFloat? (i : Int) : Option Float :=
  let x := Float.ofInt i
  if x.isInf then none else some x

/-- Whether an integer fits into 64 bits with its sign. -/
def fitsWord (i : Int) : Bool := -9223372036854775808 ≤ i && i < 9223372036854775808

/-- Values by name, in the order in which the names came. -/
abbrev Bindings := List (String × Datum)

namespace Bindings

/-- The value of a name, if it has one. -/
def get? (b : Bindings) (name : String) : Option Datum :=
  (b.find? (·.1 == name)).map (·.2)

/-- Gives a name a value: in its place if it has one already, else at the end. -/
def insert (b : Bindings) (name : String) (value : Datum) : Bindings :=
  if b.any (·.1 == name) then b.map fun p => if p.1 == name then (name, value) else p
  else b ++ [(name, value)]

theorem get?_cons (p : String × Datum) (b : Bindings) (name : String) :
    get? (p :: b) name = if p.1 == name then some p.2 else get? b name := by
  unfold get?
  rw [List.find?_cons]
  cases p.1 == name <;> rfl

/-- A name that has just been given a value has that value. -/
theorem get?_insert_self (b : Bindings) (name : String) (value : Datum) :
    (b.insert name value).get? name = some value := by
  unfold insert
  split
  · rename_i h
    induction b with
    | nil => simp at h
    | cons p b ih =>
      rw [List.map_cons, get?_cons]
      cases hp : p.1 == name
      · rw [List.any_cons, hp, Bool.false_or] at h
        simpa [hp] using ih h
      · simp
  · rename_i h
    have fresh : b.find? (·.1 == name) = none := by
      rw [List.find?_eq_none]
      exact fun p hp hname => h (List.any_eq_true.2 ⟨p, hp, hname⟩)
    simp [get?, List.find?_append, fresh]

/-- Giving a value to one name changes that of no other. -/
theorem get?_insert_of_ne (b : Bindings) {name other : String} (value : Datum)
    (h : other ≠ name) : (b.insert name value).get? other = b.get? other := by
  have hne : (name == other) = false := by simpa using fun e => h e.symm
  unfold insert
  split
  · rename_i present
    clear present
    induction b with
    | nil => rfl
    | cons p b ih =>
      rw [List.map_cons, get?_cons, get?_cons, ih]
      cases hp : p.1 == name
      · rfl
      · rw [beq_iff_eq] at hp
        simp [hp, hne]
  · simp only [get?, List.find?_append]
    cases List.find? (·.1 == other) b with
    | some p => rfl
    | none => simp [hne]

/-- Pairs one after the other, so that the last value of a name counts. -/
def ofPairs (pairs : List (String × Datum)) : Bindings :=
  pairs.foldl (fun b p => b.insert p.1 p.2) []

end Bindings

end Reckon
