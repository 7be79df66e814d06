/-
Reading YAML 1.1, as far as settings need it: one document of scalars, block
mappings and lists, and flow mappings and lists, with comments. Where a block ends
is decided by the column in which the next thing stands. A key stands on one line,
and a mapping or a list does not begin behind a key on its line. Anchors, tags,
directives, block scalars and complex keys are refused.
-/
import Reckon.Text
import Reckon.Yaml.Scalar

namespace Reckon.Yaml

/-- A place in a document: the column, and the characters from it on. -/
structure Place where
  column : Nat
  rest : List Char

/-- The ends of lines. -/
def isBreak (c : Char) : Bool :=
  c = '\n' || c.toNat = 0x85 || c.toNat = 0x2028 || c.toNat = 0x2029

/-- What must stand after a mark for it to be one: a blank, the end of a line, or nothing. -/
def endsMark (cs : List Char) : Bool :=
  match cs with
  | [] => true
  | c :: _ => c = ' ' || c = '\t' || isBreak c

namespace Place

/-- The place after the next character. -/
def next (p : Place) : Place :=
  match p.rest with
  | [] => p
  | c :: cs => if isBreak c then ⟨0, cs⟩ else ⟨p.column + 1, cs⟩

/-- The place after a number of characters of one line. -/
def skip (p : Place) (n : Nat) : Place := ⟨p.column + n, p.rest.drop n⟩

/-- Whether a document begins or ends here. -/
def atMarker (p : Place) : Bool :=
  p.column = 0 && match p.rest with
    | '-' :: '-' :: '-' :: cs => endsMark cs
    | '.' :: '.' :: '.' :: cs => endsMark cs
    | _ => false

/-- Whether nothing more belongs to the document. -/
def atEnd (p : Place) : Bool := p.rest.isEmpty || p.atMarker

/-- Whether an item of a block list begins here. -/
def atItem (p : Place) : Bool :=
  match p.rest with
  | '-' :: cs => endsMark cs
  | _ => false

end Place

/-- Passes blanks, comments and ends of lines; tells whether it has passed an end of a line. -/
def skipGap : (fuel : Nat) → Place → (crossed : Bool) → Place × Bool
  | 0, p, crossed => (p, crossed)
  | fuel + 1, p, crossed =>
    match p.rest with
    | ' ' :: _ => skipGap fuel p.next crossed
    | '#' :: cs => skipGap fuel (p.skip (cs.takeWhile (!isBreak ·)).length.succ) crossed
    | c :: _ => if isBreak c then skipGap fuel p.next true else (p, crossed)
    | [] => (p, crossed)

/-- The next thing from a place on, and whether it stands on another line. -/
def gap (p : Place) : Place × Bool := skipGap (p.rest.length + 1) p false

/-! ## Scalars -/

/-- A scalar, whether it is on one line, and the place after it. -/
structure Scalar where
  datum : Datum
  /-- The scalar as text, which is what it is as a key. -/
  text : String
  oneLine : Bool
  after : Place

/-- Passes blanks and ends of lines inside a scalar: what they count for in it, whether there was an
end of a line, and the place after them. One end of a line counts as a space, further ones as ends
of lines; blanks around them do not count. -/
def fold (p : Place) (isPad : Char → Bool) : List Char × Bool × Place :=
  let pads := p.rest.takeWhile fun c => isPad c || isBreak c
  let breaks := (pads.filter isBreak).length
  if breaks = 0 then (pads, false, p.skip pads.length)
  else
    let last := (pads.reverse.takeWhile (!isBreak ·)).length
    (if breaks = 1 then [' '] else List.replicate (breaks - 1) '\n', true,
      ⟨last, p.rest.drop pads.length⟩)

def isPad (c : Char) : Bool := c = ' ' || c = '\t'

/-- The rest of a text in single quotes, in which a quote is written twice. -/
def singleQuoted : (fuel : Nat) → (read : List Char) → (oneLine : Bool) → Place →
    Option (List Char × Bool × Place)
  | 0, _, _, _ => none
  | fuel + 1, read, oneLine, p =>
    match p.rest with
    | [] => none
    | '\x27' :: '\x27' :: _ => singleQuoted fuel ('\x27' :: read) oneLine (p.skip 2)
    | '\x27' :: _ => some (read, oneLine, p.next)
    | c :: _ =>
      if p.atMarker then none
      else if isPad c || isBreak c then
        let (text, crossed, after) := fold p isPad
        singleQuoted fuel (text.reverse ++ read) (oneLine && !crossed) after
      else singleQuoted fuel (c :: read) oneLine p.next

/-- The escapes of one letter in double quotes. -/
def escapes : List (Char × Nat) := [
  ('0', 0), ('a', 7), ('b', 8), ('t', 9), ('\t', 9), ('n', 10), ('v', 11), ('f', 12), ('r', 13),
  ('e', 27), (' ', 32), ('\x22', 34), ('\\', 92), ('/', 47), ('N', 0x85), ('_', 0xA0),
  ('L', 0x2028), ('P', 0x2029)]

/-- The count of hexadecimal digits after the letter of an escape. -/
def escapeWidths : List (Char × Nat) := [('x', 2), ('u', 4), ('U', 8)]

/-- The rest of a text in double quotes, in which a backslash begins an escape. -/
def doubleQuoted : (fuel : Nat) → (read : List Char) → (oneLine : Bool) → Place →
    Option (List Char × Bool × Place)
  | 0, _, _, _ => none
  | fuel + 1, read, oneLine, p =>
    match p.rest with
    | [] => none
    | '\x22' :: _ => some (read, oneLine, p.next)
    | '\\' :: c :: more =>
      match escapes.lookup c, escapeWidths.lookup c with
      | some n, _ => doubleQuoted fuel (Char.ofNat n :: read) oneLine (p.skip 2)
      | none, some width =>
        if more.length < width then none
        else match digitsIn 16 (more.take width) with
          | some n =>
            if (more.take width).contains '_' then none
            else doubleQuoted fuel (Char.ofNat n :: read) oneLine (p.skip (2 + width))
          | none => none
      | none, none =>
        if isBreak c then
          let (text, _, after) := fold (p.skip 1) isPad
          doubleQuoted fuel ((if text = [' '] then [] else text).reverse ++ read) false after
        else none
    | c :: _ =>
      if p.atMarker then none
      else if isPad c || isBreak c then
        let (text, crossed, after) := fold p isPad
        doubleQuoted fuel (text.reverse ++ read) (oneLine && !crossed) after
      else doubleQuoted fuel (c :: read) oneLine p.next

/-- The characters that structure flow mappings and lists. -/
def isFlowMark (c : Char) : Bool :=
  c = ',' || c = '?' || c = '[' || c = ']' || c = '\x7b' || c = '\x7d'

/-- Whether a scalar without quotes can begin here. -/
def beginsPlain (flow : Bool) (cs : List Char) : Bool :=
  match cs with
  | [] => false
  | c :: after =>
    if c = '-' then !endsMark after
    else if c = '?' || c = ':' then !flow && !endsMark after
    else !(c = ' ' || c = '\t' || isBreak c || isFlowMark c ||
      ['#', '&', '*', '!', '|', '>', '\x27', '\x22', '%', '@', '\x60'].contains c)

/-- How many characters from here on go into a scalar without quotes, up to the next blank. -/
def plainChunk (flow : Bool) : List Char → Nat
  | [] => 0
  | c :: cs =>
    if c = ' ' || c = '\t' || isBreak c then 0
    else if c = ':' &&
        (endsMark cs || (flow && cs.head?.any fun d => isFlowMark d && d != '?')) then 0
    else if flow && isFlowMark c then 0
    else plainChunk flow cs + 1

/-- The rest of a scalar without quotes. It goes on over blanks and ends of lines, unless a comment
comes, a document ends, or in a block the next line is not indented beyond the block. -/
def plainRest (flow : Bool) (indent : Int) : (fuel : Nat) → (read : List Char) →
    (oneLine : Bool) → Place → List Char × Bool × Place
  | 0, read, oneLine, p => (read, oneLine, p)
  | fuel + 1, read, oneLine, p =>
    let n := plainChunk flow p.rest
    let read := (p.rest.take n).reverse ++ read
    let p := p.skip n
    let (text, crossed, after) := fold p (· == ' ')
    let indented : Bool := flow || decide (indent < after.column)
    if n = 0 || text.isEmpty || after.rest.head? == some '#' || after.atEnd || !indented ||
        plainChunk flow after.rest = 0 then (read, oneLine, p)
    else plainRest flow indent fuel (text.reverse ++ read) (oneLine && !crossed) after

/-- A scalar with or without quotes. -/
def scalar? (flow : Bool) (indent : Int) (p : Place) : Option Scalar :=
  let fuel := p.rest.length + 1
  match p.rest with
  | '\x27' :: _ => (singleQuoted fuel [] true p.next).map fun (read, oneLine, after) =>
    let text := String.ofList read.reverse
    ⟨.text text, text, oneLine, after⟩
  | '\x22' :: _ => (doubleQuoted fuel [] true p.next).map fun (read, oneLine, after) =>
    let text := String.ofList read.reverse
    ⟨.text text, text, oneLine, after⟩
  | cs =>
    if beginsPlain flow cs then do
      let (read, oneLine, after) := plainRest flow indent fuel [] true p
      let text := String.ofList read.reverse
      let datum ← plainDatum? text
      return ⟨datum, text, oneLine, after⟩
    else none

/-- The place after the colon that makes a scalar a key. -/
def afterColon? (flow : Bool) (s : Scalar) : Option Place :=
  let p := if flow then (gap s.after).1 else s.after.skip (s.after.rest.takeWhile (· == ' ')).length
  match p.rest with
  | ':' :: cs => if flow || (s.oneLine && endsMark cs) then some p.next else none
  | _ => none

/-! ## Flow mappings and lists -/

mutual

/-- A value in a flow mapping or list, and the place after it. -/
def flowValue? : (fuel : Nat) → Place → Option (Datum × Place)
  | 0, _ => none
  | fuel + 1, p =>
    match p.rest with
    | '[' :: _ => (flowItems? fuel p.next).map fun (items, after) => (.list items, after)
    | '\x7b' :: _ => (flowFields? fuel p.next).map fun (fields, after) =>
      (.record (Bindings.ofPairs fields), after)
    | _ => (scalar? true 0 p).map fun s => (s.datum, s.after)
termination_by structural fuel => fuel

/-- The items of a flow list up to its bracket. A key and its value alone are an item, too. -/
def flowItems? : (fuel : Nat) → Place → Option (List Datum × Place)
  | 0, _ => none
  | fuel + 1, p => do
    let p := (gap p).1
    if p.rest.head? == some ']' then return ([], p.next)
    let (first, after) ← match (scalar? true 0 p).bind fun s => (afterColon? true s).map (s.text, ·)
      with
      | some (key, after) =>
        (flowFieldValue? fuel after).map fun (d, after) => (Datum.record [(key, d)], after)
      | none => flowValue? fuel p
    let after := (gap after).1
    match after.rest with
    | ']' :: _ => return ([first], after.next)
    | ',' :: _ =>
      let (others, last) ← flowItems? fuel after.next
      return (first :: others, last)
    | _ => none
termination_by structural fuel => fuel

/-- The fields of a flow mapping up to its brace. A key alone has the value null. -/
def flowFields? : (fuel : Nat) → Place → Option (List (String × Datum) × Place)
  | 0, _ => none
  | fuel + 1, p => do
    let p := (gap p).1
    if p.rest.head? == some '\x7d' then return ([], p.next)
    let key ← scalar? true 0 p
    let (first, after) ← match afterColon? true key with
      | some after => flowFieldValue? fuel after
      | none => some (.null, key.after)
    let after := (gap after).1
    match after.rest with
    | '\x7d' :: _ => return ([(key.text, first)], after.next)
    | ',' :: _ =>
      let (others, last) ← flowFields? fuel after.next
      return ((key.text, first) :: others, last)
    | _ => none
termination_by structural fuel => fuel

/-- The value after the colon in a flow mapping, which may be left out. -/
def flowFieldValue? : (fuel : Nat) → Place → Option (Datum × Place)
  | 0, _ => none
  | fuel + 1, p =>
    let p := (gap p).1
    match p.rest with
    | ',' :: _ => some (.null, p)
    | ']' :: _ => some (.null, p)
    | '\x7d' :: _ => some (.null, p)
    | _ => flowValue? fuel p
termination_by structural fuel => fuel

end

/-! ## Blocks -/

mutual

/-- What stands at a place: a list, a mapping, or a scalar. `indent` is the column of the block
around it; `opens` says whether a mapping or a list may begin here. -/
def blockValue? : (fuel : Nat) → (indent : Int) → (opens : Bool) → Place →
    Option (Datum × Place)
  | 0, _, _, _ => none
  | fuel + 1, indent, opens, p =>
    if p.atItem then
      if opens then (blockItems? fuel p.column p).map fun (items, after) => (.list items, after)
      else none
    else match p.rest with
    | '[' :: _ => flowValue? (2 * p.rest.length + 2) p
    | '\x7b' :: _ => flowValue? (2 * p.rest.length + 2) p
    | _ => do
      let s ← scalar? false indent p
      match afterColon? false s with
      | some after =>
        if opens then
          let (fields, last) ← blockFields? fuel p.column s.text after
          return (.record (Bindings.ofPairs fields), last)
        else none
      | none => return (s.datum, s.after)
termination_by structural fuel => fuel

/-- What stands after the mark of an item or the colon of a key, in a block of a column; nothing is
null. A list may stand in the column of its key. -/
def blockEntry? : (fuel : Nat) → (column : Nat) → (isItem : Bool) → Place →
    Option (Datum × Place)
  | 0, _, _, _ => none
  | fuel + 1, column, isItem, p =>
    let (start, crossed) := gap p
    if start.atEnd then some (.null, start)
    else if !crossed then blockValue? fuel column isItem start
    else if column < start.column then blockValue? fuel column true start
    else if !isItem && start.column = column && start.atItem then
      (blockItems? fuel column start).map fun (items, after) => (.list items, after)
    else some (.null, p)
termination_by structural fuel => fuel

/-- The items of a block list from the mark of the first one on. -/
def blockItems? : (fuel : Nat) → (column : Nat) → Place → Option (List Datum × Place)
  | 0, _, _ => none
  | fuel + 1, column, p => do
    let (first, after) ← blockEntry? fuel column true p.next
    let (start, crossed) := gap after
    if start.atEnd then return ([first], start)
    else if !crossed then none
    else if start.column = column && start.atItem then
      let (others, last) ← blockItems? fuel column start
      return (first :: others, last)
    else if column < start.column then none
    else return ([first], after)
termination_by structural fuel => fuel

/-- The fields of a block mapping from the value of the first key on. -/
def blockFields? : (fuel : Nat) → (column : Nat) → (key : String) → Place →
    Option (List (String × Datum) × Place)
  | 0, _, _, _ => none
  | fuel + 1, column, key, p => do
    let (first, after) ← blockEntry? fuel column false p
    let (start, crossed) := gap after
    if start.atEnd then return ([(key, first)], start)
    else if !crossed then none
    else if start.column = column then
      let next ← scalar? false column start
      let body ← afterColon? false next
      let (others, last) ← blockFields? fuel column next.text body
      return ((key, first) :: others, last)
    else if column < start.column then none
    else return ([(key, first)], after)
termination_by structural fuel => fuel

end

/-! ## Documents -/

/-- Characters that a document may hold. -/
def isAllowed (c : Char) : Bool :=
  let n := c.toNat
  n = 9 || n = 10 || n = 13 || (32 ≤ n && n ≤ 126) || n = 0x85 || (0xA0 ≤ n && n ≤ 0xFFFD) ||
    0x10000 ≤ n

/-- One kind of end of a line for all. -/
def unifyBreaks : List Char → List Char
  | '\r' :: '\n' :: cs => '\n' :: unifyBreaks cs
  | '\r' :: cs => '\n' :: unifyBreaks cs
  | c :: cs => c :: unifyBreaks cs
  | [] => []

/-- The place of the document's content, and whether a mapping or a list may begin there. A document
that nothing has opened cannot be ended. -/
def content? (p : Place) : Option (Place × Bool) :=
  let (start, _) := gap p
  match start.atMarker, start.rest with
  | true, '-' :: _ => some (gap (start.skip 3))
  | true, _ => none
  | _, _ => some (start, true)

/-- Whether nothing but marks of the document's end follow. -/
def finished : (fuel : Nat) → Place → Bool
  | 0, _ => false
  | fuel + 1, p =>
    let (start, _) := gap p
    match start.atMarker, start.rest with
    | true, '.' :: _ => finished fuel (start.skip 3)
    | _, rest => rest.isEmpty

/-- The datum that the only document of a text holds; an empty one holds null. -/
def read? (s : String) : Option Datum := do
  let cs := unifyBreaks s.toList
  let cs := if cs.head?.any (·.toNat = 0xFEFF) then cs.drop 1 else cs
  if !cs.all isAllowed then none
  let (start, opens) ← content? ⟨0, cs⟩
  let (d, after) ← if start.atEnd then some (.null, start)
    else blockValue? (4 * cs.length + 4) (-1) opens start
  if finished (cs.length + 1) after then return d else none

end Reckon.Yaml
