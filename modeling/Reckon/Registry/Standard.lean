/-
The registries to start from: arithmetic alone, or arithmetic and the functions
ABS, MIN, MAX, SUM and AVG.
-/
import Reckon.Operation.Arithmetic
import Reckon.Registry

namespace Reckon.Registry

/-- An infix operator of arithmetic. -/
def operator (symbol : String) (precedence : Int) (f : List Float → Except Failure Float) :
    Declaration where
  name := .text symbol
  isFunction := false
  reducer := some (Arithmetic.reducer f)
  precedence := precedence

/-- A function over any number of arguments, or over a bounded one. -/
def function (name : String) (maxArgs : Option Int) (f : List Float → Except Failure Float) :
    Declaration where
  name := .text name
  isFunction := true
  reducer := some (Arithmetic.reducer f)
  maxArgs := maxArgs

/-- Addition and subtraction bind less tightly than multiplication, division and remainder. -/
def arithmeticOperators : List Declaration := [
  operator "+" 1 Arithmetic.sum,
  operator "-" 1 Arithmetic.difference,
  operator "*" 2 Arithmetic.product,
  operator "/" 2 Arithmetic.quotient,
  operator "%" 2 Arithmetic.remainder]

def arithmeticFunctions : List Declaration := [
  function "ABS" (some 1) Arithmetic.absolute,
  function "MIN" none Arithmetic.minimum,
  function "MAX" none Arithmetic.maximum,
  function "SUM" none Arithmetic.sum,
  function "AVG" none Arithmetic.average]

/-- An open registry of arithmetic, with or without the functions, and the events of filling it. -/
def arithmetic (functions : Bool) : Batch :=
  empty.registerAll (arithmeticOperators ++ if functions then arithmeticFunctions else [])

/-- The registry used where none is given: all of arithmetic, frozen. -/
def standard : Registry := (arithmetic true).registry.freeze

end Reckon.Registry
