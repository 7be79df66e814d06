/-
Reading JSON. Integers keep all their digits, other numbers are doubles, and the
words NaN, Infinity and -Infinity are numbers too. Records keep the order of
their fields; of a name that comes twice the last value counts. An escaped half of
a surrogate pair without its other half becomes the replacement character.
-/
import Reckon.Datum
import Reckon.Decimal.Reading

namespace Reckon.Json

open Text (isDigit)

/-- The characters that may stand between the parts of a document. -/
def isGap (c : Char) : Bool := c = ' ' || c = '\t' || c = '\n' || c = '\r'

def skipGap (cs : List Char) : List Char := cs.dropWhile isGap

/-- A word at the beginning of a text, and what follows it. -/
def word? (word : String) (cs : List Char) : Option (List Char) :=
  if word.toList.isPrefixOf cs then some (cs.drop word.length) else none

/-! ## Strings -/

def hexDigit? (c : Char) : Option Nat :=
  if isDigit c then some (c.toNat - '0'.toNat)
  else if 'a' ≤ c && c ≤ 'f' then some (c.toNat - 'a'.toNat + 10)
  else if 'A' ≤ c && c ≤ 'F' then some (c.toNat - 'A'.toNat + 10)
  else none

/-- Four hexadecimal digits, and what follows them. -/
def unit? : List Char → Option (Nat × List Char)
  | a :: b :: c :: d :: cs => do
    let a ← hexDigit? a
    let b ← hexDigit? b
    let c ← hexDigit? c
    let d ← hexDigit? d
    return (((a * 16 + b) * 16 + c) * 16 + d, cs)
  | _ => none

def isHighHalf (n : Nat) : Bool := 0xD800 ≤ n && n < 0xDC00

def isLowHalf (n : Nat) : Bool := 0xDC00 ≤ n && n < 0xE000

/-- The character of an escape `\uXXXX`, of which the digits and what follows are given. A high half
takes the low half with it that follows as an escape of its own. -/
def escapedUnit? (cs : List Char) : Option (Char × List Char) := do
  let (high, rest) ← unit? cs
  if isHighHalf high then
    match rest with
    | '\\' :: 'u' :: more =>
      match unit? more with
      | some (low, after) =>
        if isLowHalf low then
          return (Char.ofNat (0x10000 + (high - 0xD800) * 0x400 + (low - 0xDC00)), after)
        else return (Char.ofNat 0xFFFD, rest)
      | none => return (Char.ofNat 0xFFFD, rest)
    | _ => return (Char.ofNat 0xFFFD, rest)
  else if isLowHalf high then return (Char.ofNat 0xFFFD, rest)
  else return (Char.ofNat high, rest)

/-- The character of an escape after the backslash, and what follows it. -/
def escape? : List Char → Option (Char × List Char)
  | 'u' :: cs => escapedUnit? cs
  | c :: cs =>
    ([('\x22', '\x22'), ('\\', '\\'), ('/', '/'), ('b', '\x08'), ('f', '\x0c'), ('n', '\n'),
      ('r', '\r'), ('t', '\t')].lookup c).map (·, cs)
  | [] => none

/-- The rest of a string after its opening quote, latest character first, and what follows the
closing one. Control characters must be escaped. -/
def stringRest? : (fuel : Nat) → List Char → List Char → Option (List Char × List Char)
  | 0, _, _ => none
  | fuel + 1, read, cs =>
    match cs with
    | [] => none
    | '\x22' :: rest => some (read, rest)
    | '\\' :: rest =>
      match escape? rest with
      | some (c, rest) => stringRest? fuel (c :: read) rest
      | none => none
    | c :: rest => if c.toNat < 32 then none else stringRest? fuel (c :: read) rest

/-- A string after its opening quote, and what follows it. -/
def string? (cs : List Char) : Option (String × List Char) :=
  (stringRest? (cs.length + 1) [] cs).map fun (read, rest) => (String.ofList read.reverse, rest)

/-! ## Numbers -/

/-- Digits without a leading zero, unless there is just the zero. -/
def whole? (cs : List Char) : Option (List Char × List Char) :=
  match cs with
  | '0' :: rest => some (['0'], rest)
  | c :: _ => if isDigit c then some (cs.takeWhile isDigit, cs.dropWhile isDigit) else none
  | [] => none

/-- A point and digits after it, if they are there. -/
def fraction (cs : List Char) : List Char × List Char :=
  match cs with
  | '.' :: rest =>
    let digits := rest.takeWhile isDigit
    if digits.isEmpty then ([], cs) else (digits, rest.dropWhile isDigit)
  | _ => ([], cs)

/-- An exponent with its letter, if it is there. -/
def exponent (cs : List Char) : Option Int × List Char :=
  match cs with
  | e :: rest =>
    if e = 'e' || e = 'E' then
      let (negative, body) := Decimal.takeSign rest
      let digits := body.takeWhile isDigit
      if digits.isEmpty then (none, cs)
      else
        let n : Int := Decimal.digitsValue digits
        (some (if negative then -n else n), body.dropWhile isDigit)
    else (none, cs)
  | [] => (none, cs)

/-- A number without its sign, and what follows it. -/
def magnitude? (negative : Bool) (cs : List Char) : Option (Datum × List Char) := do
  let (whole, rest) ← whole? cs
  let (fraction, rest) := fraction rest
  let (power, rest) := exponent rest
  if fraction.isEmpty && power.isNone then
    let n : Int := Decimal.digitsValue whole
    return (.int (if negative then -n else n), rest)
  else
    let coefficient := Decimal.digitsValue (whole ++ fraction)
    return (.real (Decimal.nearest negative coefficient (power.getD 0 - fraction.length)), rest)

/-- A number or one of the words for a number, and what follows it. -/
def number? (cs : List Char) : Option (Datum × List Char) :=
  match cs with
  | '-' :: rest =>
    match word? "Infinity" rest with
    | some after => some (.real (-(1.0 / 0.0)), after)
    | none => magnitude? true rest
  | _ => magnitude? false cs

/-- One of the words of JSON, and what follows it. -/
def constant? (cs : List Char) : Option (Datum × List Char) :=
  [("null", Datum.null), ("true", .bool true), ("false", .bool false), ("NaN", .real (0.0 / 0.0)),
    ("Infinity", .real (1.0 / 0.0))].findSome? fun (word, d) => (word? word cs).map (d, ·)

/-! ## Values -/

mutual

/-- A value, and what follows it. -/
def value? : (fuel : Nat) → List Char → Option (Datum × List Char)
  | 0, _ => none
  | fuel + 1, cs =>
    match cs with
    | '\x22' :: rest => (string? rest).map fun (s, rest) => (.text s, rest)
    | '[' :: rest =>
      match skipGap rest with
      | ']' :: after => some (.list [], after)
      | first => (items? fuel first).map fun (items, rest) => (.list items, rest)
    | '\x7b' :: rest =>
      match skipGap rest with
      | '\x7d' :: after => some (.record [], after)
      | first =>
        (fields? fuel first).map fun (fields, rest) => (.record (Bindings.ofPairs fields), rest)
    | _ => (constant? cs).or (number? cs)
termination_by structural fuel => fuel

/-- The items of a list up to its closing bracket, of which there is at least one. -/
def items? : (fuel : Nat) → List Char → Option (List Datum × List Char)
  | 0, _ => none
  | fuel + 1, cs => do
    let (first, rest) ← value? fuel cs
    match skipGap rest with
    | ']' :: after => return ([first], after)
    | ',' :: more =>
      let (others, after) ← items? fuel (skipGap more)
      return (first :: others, after)
    | _ => none
termination_by structural fuel => fuel

/-- The fields of a record up to its closing brace, of which there is at least one. -/
def fields? : (fuel : Nat) → List Char → Option (List (String × Datum) × List Char)
  | 0, _ => none
  | fuel + 1, cs =>
    match cs with
    | '\x22' :: rest => do
      let (name, rest) ← string? rest
      match skipGap rest with
      | ':' :: body =>
        let (first, rest) ← value? fuel (skipGap body)
        match skipGap rest with
        | '\x7d' :: after => return ([(name, first)], after)
        | ',' :: more =>
          let (others, after) ← fields? fuel (skipGap more)
          return ((name, first) :: others, after)
        | _ => none
      | _ => none
    | _ => none
termination_by structural fuel => fuel

end

/-- The value that a document holds. A byte order mark is no part of a document. -/
def read? (s : String) : Option Datum := do
  let cs := skipGap s.toList
  let (value, rest) ← value? (2 * cs.length + 1) cs
  if (skipGap rest).isEmpty then return value else none

end Reckon.Json
