/-
Scanning: from the characters of an expression to its tokens, in one pass from
left to right. Digits, letters and points gather in a run; a run becomes a token
before the character that breaks it is looked at. A comma separates the arguments
of a call; everywhere else it groups digits, and is skipped as if it were not
there.

Before that an expression is prepared as it is typed: where the comma is the
decimal mark it changes places with the point, and characters that leave no mark
are dropped.
-/
import Reckon.Limits
import Reckon.Registry
import Reckon.Token

namespace Reckon

/-! ## Preparation -/

/-- Comma for point and point for comma; other characters stay. -/
def swapMark (c : Char) : Char := if c = ',' then '.' else if c = '.' then ',' else c

/-- Exchanges all commas and points. -/
def swapMarks (s : String) : String := String.ofList (s.toList.map swapMark)

/-- Drops blanks, controls and all else that leaves no mark. -/
def stripUnprintable (s : String) : String :=
  String.ofList (s.toList.filter (!Text.isUnprintable ·))

/-- The expression to be scanned; `international` says that the comma is the decimal mark. -/
def normalize (s : String) (international : Bool) : String :=
  stripUnprintable (if international then swapMarks s else s)

/-! ## Scanning -/

/-- The characters that may stand between tokens. -/
def isSpace (c : Char) : Bool := c = ' ' || c = '\t' || c = '\n' || c = '\r'

/-- Digits with at most one point among them and at least one digit: the form of a number. -/
def isNumeral (cs : List Char) : Bool :=
  let whole := cs.takeWhile Text.isDigit
  match cs.dropWhile Text.isDigit with
  | [] => !whole.isEmpty
  | '.' :: fraction => fraction.all Text.isDigit && !(whole.isEmpty && fraction.isEmpty)
  | _ => false

namespace Scanner

/-- What the scanner remembers of the characters before. -/
structure State where
  /-- The characters gathered since the last token. -/
  run : List Char := []
  /-- Where the run begins. -/
  start : Nat := 0
  /-- The last character that was not skipped. -/
  previous : Option Char := none
  /-- The open parentheses, innermost first; true when one opens the arguments of a call. -/
  groups : List Bool := []
  /-- Whether the last token is the name of a function. -/
  afterFunction : Bool := false
  deriving Repr

/-- Adds a character to the run, which begins with it if it was empty. -/
def State.gather (s : State) (c : Char) (position : Nat) : State :=
  { s with
    run := s.run ++ [c]
    start := if s.run.isEmpty then position else s.start
    previous := some c }

/-- A single character as a token. -/
def single (kind : TokenKind) (c : Char) (position : Nat) : Token :=
  ⟨kind, String.singleton c, position⟩

/-- The token that a run of characters is: a word, the name of a function, or a number. -/
def runToken (r : Registry) (source : String) (run : List Char) (start : Nat) :
    Except Diagnostic Token :=
  let value := String.ofList run
  if run.all Text.isLetter then
    .ok ⟨if r.isFunction value then .function else .identifier, value, start⟩
  else if isNumeral run then .ok ⟨.number, value, start⟩
  else .error {
    cause := .lexical (.malformedNumber value)
    position := some start
    source := some source }

/-- Ends the run: the token that it is, if it is not empty, and the state without it. -/
def flush (r : Registry) (source : String) (s : State) : Except Diagnostic (List Token × State) :=
  if s.run.isEmpty then .ok ([], s)
  else do
    let token ← runToken r source s.run s.start
    return ([token], { s with run := [], afterFunction := token.kind == .function })

/-- Whether a character of the class goes into a run that ends with the last character. -/
def State.continues (s : State) (same : Char → Bool) : Bool :=
  s.run.isEmpty || s.previous.any same

/-- Looks at one character: the tokens that it completes, and the state after it. -/
def step (r : Registry) (source : String) (s : State) (position : Nat) (c : Char) :
    Except Diagnostic (List Token × State) :=
  if Text.isDigit c then
    if s.continues fun p => Text.isDigit p || p == '.' then .ok ([], s.gather c position)
    else do
      let (tokens, s) ← flush r source s
      return (tokens, s.gather c position)
  else if Text.isLetter c then
    if s.continues Text.isLetter then .ok ([], s.gather c position)
    else do
      let (tokens, s) ← flush r source s
      return (tokens, s.gather c position)
  else if c = '.' then .ok ([], s.gather c position)
  else if c = ',' then
    if s.groups.head? == some true then do
      let (tokens, s) ← flush r source s
      return (tokens ++ [single .comma c position],
        { s with previous := some c, afterFunction := false })
    else .ok ([], s)
  else if c = '(' then do
    let (tokens, s) ← flush r source s
    return (tokens ++ [single .leftParen c position],
      { s with previous := some c, groups := s.afterFunction :: s.groups, afterFunction := false })
  else if c = ')' then do
    let (tokens, s) ← flush r source s
    return (tokens ++ [single .rightParen c position],
      { s with previous := some c, groups := s.groups.tail, afterFunction := false })
  else if r.isOperator (String.singleton c) then do
    let (tokens, s) ← flush r source s
    return (tokens ++ [single .operator c position],
      { s with previous := some c, afterFunction := false })
  else if isSpace c then do
    let (tokens, s) ← flush r source s
    return (tokens, { s with previous := some c })
  else .error {
    cause := .lexical (.unexpectedCharacter c)
    position := some position
    source := some source }

/-- The tokens of the characters from a position on. -/
def scan (r : Registry) (source : String) (s : State) (position : Nat) :
    List Char → Except Diagnostic (List Token)
  | [] => do
    let (tokens, _) ← flush r source s
    return tokens ++ [Token.finish position]
  | c :: cs => do
    let (tokens, s) ← step r source s position c
    let rest ← scan r source s (position + 1) cs
    return tokens ++ rest

end Scanner

/-- The tokens of an expression, the last of which marks its end. -/
def tokenize (source : String) (r : Registry) (limits : Limits) :
    Except Diagnostic (List Token) := do
  limits.checkLength source.length
  Scanner.scan r source {} 0 source.toList

end Reckon
