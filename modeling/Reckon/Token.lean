/-
Tokens: the pieces that an expression is made of, each with the place where it
begins. A text of tokens puts their values one after the other, with a space
only where two of them would otherwise be read as one.
-/
namespace Reckon

/-- The kinds of tokens. -/
inductive TokenKind where
  | number
  | identifier
  | operator
  | function
  | leftParen
  | rightParen
  /-- The comma between two arguments of a call. -/
  | comma
  /-- The end of the expression. -/
  | finish
  deriving DecidableEq, Repr

/-- A piece of an expression. -/
structure Token where
  kind : TokenKind
  value : String
  position : Int
  deriving DecidableEq, Repr

namespace TokenKind

/-- Numbers and words are runs of characters; other tokens are single characters. -/
def isRun : TokenKind → Bool
  | number | identifier | function => true
  | _ => false

end TokenKind

namespace Token

/-- The token at the end of an expression. -/
def finish (position : Int) : Token := ⟨.finish, "", position⟩

/-- Whether two tokens written without a space would be read as one. A word and a number merge only
when the number begins with a point. -/
def merges (left right : Token) : Bool :=
  if !left.kind.isRun || !right.kind.isRun then false
  else if (left.kind == .number) == (right.kind == .number) then true
  else right.kind == .number && right.value.toList.head? == some '.'

/-- The text of tokens, given the one before them, up to the first end. -/
def textAfter (previous : Option Token) : List Token → List Char
  | [] => []
  | t :: ts =>
    if t.kind == .finish then []
    else
      let space := match previous with
        | some p => if p.merges t then [' '] else []
        | none => []
      space ++ t.value.toList ++ textAfter (some t) ts

/-- The text of tokens up to the first end. -/
def text (tokens : List Token) : String := String.ofList (textAfter none tokens)

end Token

end Reckon
