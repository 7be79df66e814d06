/-
The calculator: settings and a registry of its own. It takes an expression as it
is typed through normalization, scanning, reading and evaluation. Whatever is
wrong with the expression becomes a result; anything else goes through to the
caller. A result is delivered to the callback, if there is one, after it has been
reported.
-/
import Reckon.Evaluation
import Reckon.Registry.Standard
import Reckon.Request.Variables
import Reckon.Settings
import Reckon.Settings.Environment
import Reckon.Token.Scanner
import Reckon.Tree.Parsing

namespace Reckon

/-- What comes of a calculation: a number, or what is wrong with the expression. -/
structure Result where
  /-- The expression as it was typed. -/
  expression : String
  outcome : Except Diagnostic Float

namespace Result

def diagnostic? (r : Result) : Option Diagnostic :=
  match r.outcome with
  | .ok _ => none
  | .error d => some d

def success (r : Result) : Bool := r.outcome.toBool

def value? (r : Result) : Option Float := r.outcome.toOption

def error? (r : Result) : Option String := r.diagnostic?.map (·.message)

def errorType? (r : Result) : Option String := r.diagnostic?.map (·.kind.name)

def errorContext? (r : Result) : Option String := r.diagnostic?.map (·.context)

def position? (r : Result) : Option Int := r.diagnostic?.bind (·.position)

end Result

/-- What receives results. It may fail, and then so does the calculation. -/
abbrev Callback := Result → Except Failure Unit

/-- Why there is no result: the request is not valid, or something failed that is no matter of the
expression. -/
inductive Refusal where
  | invalid (e : ValidationError)
  | failed (f : Failure)

/-- What can be seen of a calculation from outside. -/
inductive Occurrence where
  /-- An event is reported. -/
  | reported (event : Event)
  /-- The callback is called. -/
  | delivered (result : Result)

/-- What a calculation comes to, and all that was seen of it on the way, in its order. -/
structure Delivery (ε : Type) where
  outcome : Except ε Result
  trace : List Occurrence

namespace Delivery

variable {ε : Type}

def events (d : Delivery ε) : List Event :=
  d.trace.filterMap fun
    | .reported event => some event
    | .delivered _ => none

/-- The results that the callback has received. -/
def delivered (d : Delivery ε) : List Result :=
  d.trace.filterMap fun
    | .reported _ => none
    | .delivered result => some result

end Delivery

/-- A step of a calculation: it adds to what is seen, and may fail. -/
abbrev Calculation := ExceptT Failure (StateM (List Occurrence))

namespace Calculation

def see (occurrence : Occurrence) : Calculation Unit := modify (· ++ [occurrence])

def report (event : Event) : Calculation Unit := see (.reported event)

/-- Carries out a calculation of which nothing has been seen. -/
def deliver (calculation : Calculation Result) : Delivery Failure :=
  let (outcome, trace) := calculation.run.run []
  { outcome, trace }

end Calculation

/-- A calculator. Its registry is frozen. -/
structure Calculator where
  settings : Settings
  registry : Registry

/-- What one calculation is asked to do. Null leaves a choice to the settings. -/
structure Call where
  expression : Datum
  assignments : Datum := .null
  nullPolicy : Datum := .null
  international : Datum := .null

namespace Calculator

/-- A calculator with a frozen copy of a registry, so that later registrations do not reach it. -/
def new (settings : Settings) (registry : Registry) : Calculator :=
  ⟨settings, registry.copy.freeze⟩

/-- The tree of an expression that is normalized already. -/
def compile (c : Calculator) (expression : String) : Except Failure Tree :=
  parseText expression c.registry c.settings.limits

/-- The number of an expression that is normalized already. -/
def valueOf (c : Calculator) (request : Request) (normalized : String) :
    Except Failure Float := do
  let t ← c.compile normalized
  t.evaluate request.bindings request.nullPolicy

open Calculation

/-- The result of a request. Whatever is wrong with the expression makes a result as well. -/
def resultOf (c : Calculator) (request : Request) (normalized : String) : Calculation Result :=
  match c.valueOf request normalized with
  | .ok value => do
    report (.calculationFinished normalized value)
    return ⟨request.expression, .ok value⟩
  | .error (.diagnostic d) => do
    report (.calculationFailed normalized d.kind.name d.message)
    return ⟨request.expression, .error d⟩
  | .error (.fault f) => throw (.fault f)

/-- Hands a result to the callback, if there is one. -/
def handOver (result : Result) : Option Callback → Calculation Unit
  | none => return
  | some callback => do
    see (.delivered result)
    ofExcept (callback result)

/-- Evaluates a request. -/
def calculateRequest (c : Calculator) (request : Request) (callback : Option Callback) :
    Delivery Failure :=
  Calculation.deliver do
    let normalized := normalize request.expression request.international
    report (.calculationStarted normalized request.nullPolicy)
    let result ← c.resultOf request normalized
    handOver result callback
    return result

/-- The request of a call: the settings fill in what the call leaves open. -/
def requestOf (c : Calculator) (call : Call) (assignments : List Assignment)
    (nullPolicy : NullPolicy) : Except ValidationError Request :=
  Request.combine (Check.text call.expression) (Request.checkVariables assignments)
    (.ok nullPolicy)
    (match call.international with
      | .null => .ok c.settings.international
      | d => Check.boolean d)

/-- Evaluates an expression as it is typed. -/
def calculate (c : Calculator) (call : Call) (callback : Option Callback) : Delivery Refusal :=
  match Request.assignments call.assignments with
  | .error f => { outcome := .error (.failed (.fault f)), trace := [] }
  | .ok assignments =>
    let (nullPolicy, events) :=
      match call.nullPolicy with
      | .null => (c.settings.nullPolicy, [])
      | mode => NullPolicy.resolve mode
    match c.requestOf call assignments nullPolicy with
    | .error e => { outcome := .error (.invalid e), trace := events.map .reported }
    | .ok request =>
      let delivery := c.calculateRequest request callback
      { outcome := delivery.outcome.mapError .failed
        trace := events.map .reported ++ delivery.trace }

end Calculator

/-- The calculator used where none is given: standard settings and the standard registry. -/
def Calculator.standard : Calculator := Calculator.new {} Registry.standard

end Reckon
