/-
Variables as a caller may give them: a record, or a sequence of pairs of a name
and a value. A pair is any sequence of two; the characters of a text are a
sequence too. Of a name that comes twice the last value counts. Nothing at all
means no variables.
-/
import Reckon.Binary64
import Reckon.Request

namespace Reckon.Request

/-- The parts of a value that can be gone through. -/
def parts? : Datum → Option (List Datum)
  | .list items => some items
  | .text s => some (s.toList.map fun c => .text (String.singleton c))
  | .record fields => some (fields.map fun p => .text p.1)
  | _ => none

/-- The name of a value's kind where it cannot be gone through. -/
def scalarName : Datum → String
  | .null => "NoneType"
  | .bool _ => "bool"
  | .int _ => "int"
  | .real _ => "float"
  | .text _ => "str"
  | .list _ => "list"
  | .record _ => "dict"
  | .foreign kind => kind

/-- The integer that a value is equal to. Truth values count as one and zero. -/
def whole? : Datum → Option Int
  | .bool b => some (if b then 1 else 0)
  | .int i => some i
  | .real x =>
    match Binary64.value x with
    | .finite d => d.toInt?
    | _ => none
  | _ => none

/-- Whether two names are the same name. Numbers of different kinds are when they are equal. -/
def sameName : Datum → Datum → Bool
  | .text a, .text b => a == b
  | .null, .null => true
  | .real a, .real b => a == b
  | a, b =>
    match whole? a, whole? b with
    | some i, some j => i == j
    | _, _ => false

/-- Gives a name a value: in its place if it has one already, else at the end. -/
def assign (assignments : List Assignment) (name value : Datum) : List Assignment :=
  if assignments.any fun a => sameName a.1 name then
    assignments.map fun a => if sameName a.1 name then (a.1, value) else a
  else assignments ++ [(name, value)]

/-- The name and the value of the element at an index of a sequence of pairs. -/
def pairAt (index : Nat) (element : Datum) : Except Fault Assignment :=
  match parts? element with
  | none => .error ⟨.type,
      s!"cannot convert dictionary update sequence element #{index} to a sequence"⟩
  | some [name, value] =>
    match name with
    | .list _ => .error ⟨.type, "unhashable type: 'list'"⟩
    | .record _ => .error ⟨.type, "unhashable type: 'dict'"⟩
    | _ => .ok (name, value)
  | some other => .error ⟨.value,
      s!"dictionary update sequence element #{index} has length {other.length}; 2 is required"⟩

/-- The assignments of a sequence of pairs, after those before it. -/
def assignAll (assignments : List Assignment) (index : Nat) :
    List Datum → Except Fault (List Assignment)
  | [] => .ok assignments
  | element :: rest => do
    let (name, value) ← pairAt index element
    assignAll (assign assignments name value) (index + 1) rest

/-- The assignments that a value gives. -/
def assignments (d : Datum) : Except Fault (List Assignment) :=
  if d.isNothing then .ok []
  else match d with
    | .record fields => .ok (fields.map fun p => (.text p.1, p.2))
    | _ =>
      match parts? d with
      | some elements => assignAll [] 0 elements
      | none => .error ⟨.type, s!"'{scalarName d}' object is not iterable"⟩

end Reckon.Request
