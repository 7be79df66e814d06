/-
The journal: what the library reports while it works. Every event has a level,
the part of the library that reports it, and a name. A journal keeps the events
at or above its threshold.

One of the events is an unknown null policy. It is not an error: missing operands
are zero then.
-/
import Reckon.NullPolicy
import Reckon.Text.Case
import Reckon.Text.Unprintable

namespace Reckon

/-- The importance of an event. -/
inductive Level where
  | all
  | debug
  | info
  | warning
  | error
  | critical
  deriving DecidableEq, Repr

/-- The parts of the library that report events. -/
inductive Channel where
  | operations
  | evaluator
  | settings
  | calculator
  deriving DecidableEq, Repr

/-- What can be reported. -/
inductive Event where
  | operationOverwritten (operation : String)
  | operationRegistered (operation : String) (isFunction : Bool)
  | unknownNullPolicy (mode : Datum) (fallback : NullPolicy)
  | settingsLoaded
  | calculationStarted (expression : String) (policy : NullPolicy)
  | calculationFailed (expression errorType error : String)
  | calculationFinished (expression : String) (value : Float)

namespace Level

/-- Higher numbers are more important. -/
def number : Level → Nat
  | all => 0
  | debug => 10
  | info => 20
  | warning => 30
  | error => 40
  | critical => 50

/-- The level of a name in capitals. -/
def ofName? (s : String) : Option Level :=
  [("NOTSET", all), ("DEBUG", debug), ("INFO", info), ("WARN", warning), ("WARNING", warning),
    ("ERROR", error), ("FATAL", critical), ("CRITICAL", critical)].lookup s

end Level

namespace Event

def level : Event → Level
  | unknownNullPolicy _ _ => .warning
  | _ => .debug

def channel : Event → Channel
  | operationOverwritten _ => .operations
  | operationRegistered _ _ => .operations
  | unknownNullPolicy _ _ => .evaluator
  | settingsLoaded => .settings
  | calculationStarted _ _ => .calculator
  | calculationFailed _ _ _ => .calculator
  | calculationFinished _ _ => .calculator

def name : Event → String
  | operationOverwritten _ => "operation_overwritten"
  | operationRegistered _ _ => "operation_registered"
  | unknownNullPolicy _ _ => "invalid_null_handling_mode"
  | settingsLoaded => "config_loaded"
  | calculationStarted _ _ => "calculation_started"
  | calculationFailed _ _ _ => "calculation_failed"
  | calculationFinished _ _ => "calculation_finished"

end Event

/-- The events kept so far, oldest first, and the least level to be kept. -/
structure Journal where
  threshold : Level
  entries : List Event := []

namespace Journal

/-- Keeps those of the events that reach the threshold. -/
def record (j : Journal) (events : List Event) : Journal :=
  { j with entries := j.entries ++ events.filter (j.threshold.number ≤ ·.level.number) }

/-- The level that a name means in any case of letters. -/
def levelOf (name : String) : Except String Level :=
  let name := Text.upper name
  match Level.ofName? name with
  | some level => .ok level
  | none => .error s!"Unknown level: {Text.quoted name}"

end Journal

namespace NullPolicy

/-- The policy meant by a value, with what is to be reported. Null means the default. -/
def resolve (mode : Datum) : NullPolicy × List Event :=
  match mode with
  | .null => (nullAsZero, [])
  | mode =>
    match ofDatum? mode with
    | some policy => (policy, [])
    | none => (nullAsZero, [.unknownNullPolicy mode nullAsZero])

end NullPolicy

end Reckon
