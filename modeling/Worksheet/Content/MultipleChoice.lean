import Worksheet.Content.Error
import Worksheet.Content.Line
import Worksheet.Content.Validation

namespace Worksheet

/-- A question with options: `What is 2+2? = 3 | 4 | 5 [4]`. The labels in brackets name the correct
options. -/
structure ChoiceQuestion where
  question : String
  options : List String
  /-- Places of the correct options. -/
  correct : List Nat
  deriving DecidableEq, Repr

namespace MultipleChoice

def tag : String := "multiple-choice"

def maxQuestions : Nat := 50
def minOptions : Nat := 2
def maxOptions : Nat := 10

def qualifies (text : String) : Bool :=
  Text.contains text '|' && Text.contains text '[' && Text.contains text '='

/-- The text before the last bracket and the labels in it, if the text ends in that bracket. -/
def labels? (rest : List Char) : Option (List Char × List String) := do
  let (before, after) ← Chars.splitLast '[' rest
  let inner ← Chars.stripLast? ']' after
  return (before, Text.pieces ',' (String.ofList inner))

/-- The place of the first option that a label names up to case. -/
def place? (options : List String) (label : String) : Option Nat :=
  options.findIdx? fun o => Text.lower o == Text.lower label

/-- The places that the labels name, in order, or the first place if they name none. -/
def correctPlaces (options labels : List String) : List Nat :=
  let named := (List.range options.length).filter fun i =>
    labels.any fun label => place? options label == some i
  if named.isEmpty then [0] else named

def parseQuestion (text : String) : Option ChoiceQuestion :=
  (Chars.splitOnce '=' text.toList).map fun (question, rest) =>
    let rest := Chars.trim rest
    let (listed, labels) := (labels? rest).getD (rest, [])
    let options := Text.pieces '|' (String.ofList listed)
    ⟨String.ofList (Chars.trim question), options, correctPlaces options labels⟩

def detect (lines : List ContentLine) : Bool :=
  (ContentLine.withText lines).any fun l => qualifies l.text

def questionLine (l : ContentLine) : Except ContentError ChoiceQuestion :=
  match if Text.contains l.text '|' then parseQuestion l.text else none with
  | some q => .ok q
  | none => .error (.line l.line (.notQuestion l.text))

def parse (lines : List ContentLine) : Except ContentError (List ChoiceQuestion) := do
  let questions ← (ContentLine.withText lines).mapM questionLine
  if questions.isEmpty then .error (.noContent tag) else return questions

/-- An error for the first place that is none of an option. -/
def validatePlaces (label : String) (q : ChoiceQuestion) : Validation :=
  match q.correct.find? (q.options.length ≤ ·) with
  | none => .passed
  | some bad =>
    .error s!"{label} marks option {bad + 1} as correct, but has {q.options.length} options"

def validateQuestion (number : Nat) (q : ChoiceQuestion) : Validation :=
  let label := s!"question {number}"
  .require (!Text.isBlank q.question) s!"{label} has no question text" ++
    .count s!"{label} options" q.options.length minOptions maxOptions ++
    .require (!q.options.any Text.isBlank) s!"{label} has an empty option" ++
    .all ((duplicates q.options).map fun o => .warning s!"{label} lists '{o}' more than once") ++
    .require (!q.correct.isEmpty) s!"{label} has no correct answer" ++
    validatePlaces label q

def validate (questions : List ChoiceQuestion) : Validation :=
  .count "multiple-choice exercise" questions.length 1 maxQuestions ++
    .each questions validateQuestion

/-- The option at a place. -/
def optionAt (options : List String) (i : Nat) : Except ContentError String :=
  match options[i]? with
  | some o => .ok o
  | none => .error (.line 0 (.badIndex i))

def renderQuestion (q : ChoiceQuestion) : Except ContentError String := do
  let labels ← q.correct.mapM (optionAt q.options)
  return q.question ++ " = " ++ Text.join " | " q.options ++ " [" ++ Text.join ", " labels ++ "]"

def serialize (questions : List ChoiceQuestion) : Except ContentError (List String) :=
  questions.mapM renderQuestion

end MultipleChoice

end Worksheet
