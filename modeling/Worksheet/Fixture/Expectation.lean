import Worksheet.Fixture.Basic
import Worksheet.Outcome

namespace Worksheet

/-- How an outcome differs from what was expected. -/
inductive Mismatch where
  | unexpectedErrors (messages : List String)
  | messageCount (severity : Severity) (expected : Nat) (actual : List String)
  | messageText (severity : Severity) (index : Nat) (expected actual : String)
  | messageBlock (severity : Severity) (index block : Nat) (actual : String)
  | exerciseCount (expected actual : Nat)
  | kinds (expected actual : List String)
  | notAllValid
  | allValid
  deriving DecidableEq, Repr

def Severity.name : Severity → String
  | .error => "error"
  | .warning => "warning"

/-- The given messages on lines of their own. -/
def listMessages (messages : List String) : String :=
  if messages.isEmpty then "    (none)" else Text.join "\n" (messages.map ("  - " ++ ·))

def Mismatch.message : Mismatch → String
  | .unexpectedErrors messages => "unexpected errors:\n    " ++ Text.join "\n    " messages
  | .messageCount severity expected actual =>
    s!"expected {expected} {severity.name}(s), got {actual.length}\n  actual {severity.name}s:\n" ++
      listMessages actual
  | .messageText severity index expected actual =>
    s!"{severity.name}[{index}]: expected message containing \"{expected}\", got: " ++ actual
  | .messageBlock severity index block actual =>
    s!"{severity.name}[{index}]: expected in block {block}, got: " ++ actual
  | .exerciseCount expected actual => s!"expected {expected} exercise(s), got {actual}"
  | .kinds expected actual =>
    "type mismatch\n  expected: [" ++ Text.join ", " expected ++ "]\n  actual:   [" ++
      Text.join ", " actual ++ "]"
  | .notAllValid => "expected every exercise to be valid"
  | .allValid => "expected at least one invalid exercise"

/-- The difference between a diagnostic and the expected message. -/
def ExpectedMessage.mismatch? (severity : Severity) (index : Nat) (e : ExpectedMessage)
    (d : Diagnostic) : Option Mismatch :=
  if !Text.includes d.message e.contains then
    some (.messageText severity index e.contains d.message)
  else
    match e.block with
    | none => none
    | some block =>
      if d.block.map (· + 1) == some block then none
      else some (.messageBlock severity index block d.render)

namespace Expectation

/-- The first difference between the diagnostics of a severity and the expected messages. -/
def messageMismatch? (severity : Severity) (expected : List ExpectedMessage) (o : Outcome) :
    Option Mismatch :=
  let actual := o.diagnostics.filter (·.severity == severity)
  if actual.length != expected.length then
    some (.messageCount severity expected.length (actual.map (·.render)))
  else
    (actual.zip expected).zipIdx.findSome? fun ((d, e), index) => e.mismatch? severity index d

def errorMismatch? (e : Expectation) (o : Outcome) : Option Mismatch :=
  match e.errors with
  | some expected => messageMismatch? .error expected o
  | none => if o.hasErrors then some (.unexpectedErrors o.errors) else none

def warningMismatch? (e : Expectation) (o : Outcome) : Option Mismatch :=
  e.warnings.bind (messageMismatch? .warning · o)

def countMismatch? (e : Expectation) (o : Outcome) : Option Mismatch :=
  match e.count with
  | some count =>
    if o.exercises.length == count then none
    else some (.exerciseCount count o.exercises.length)
  | none => none

def kindMismatch? (e : Expectation) (o : Outcome) : Option Mismatch :=
  match e.kinds with
  | some expected =>
    let actual := o.exercises.map (·.kind)
    if actual == expected then none else some (.kinds expected actual)
  | none => none

def validityMismatch? (e : Expectation) (o : Outcome) : Option Mismatch :=
  let allValid := o.exercises.all (·.validation.isValid)
  match e.valid with
  | some true => if allValid then none else some .notAllValid
  | some false => if allValid then some .allValid else none
  | none => none

/-- The first difference between an outcome and what was expected. -/
def mismatch? (e : Expectation) (o : Outcome) : Option Mismatch :=
  [e.errorMismatch? o, e.warningMismatch? o, e.countMismatch? o, e.kindMismatch? o,
    e.validityMismatch? o].findSome? id

end Expectation

end Worksheet
