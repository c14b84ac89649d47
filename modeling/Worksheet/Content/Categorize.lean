import Worksheet.Content.Error
import Worksheet.Content.Line
import Worksheet.Content.Validation

namespace Worksheet

/-- A category and the items that belong to it: `Fruits = apple | pear`. -/
structure Category where
  name : String
  items : List String
  deriving DecidableEq, Repr

/-- Categories, or a lake with the items that belong in it and those that do not. -/
structure Categories where
  categories : List Category := []
  /-- Items that belong in the lake. -/
  correct : List String := []
  /-- Items that do not belong in the lake. -/
  distractors : List String := []
  instruction : Option String := none
  deriving DecidableEq, Repr

namespace Categorize

def tag : String := "categorize"
def original : String := "original"
def ordering : String := "ordering"
def lake : String := "lake"

def maxCategories : Nat := 10
def maxItems : Nat := 30
def maxNameLength : Nat := 100

/-- Items between bars, or between commas if there is no bar. -/
def splitItems (text : String) : List String :=
  Text.pieces (if Text.contains text '|' then '|' else ',') text

/-- Reads a line with a name before an equals sign. -/
def parseCategory (text : String) : Option Category := do
  let (name, items) ← Text.splitOnce '=' text
  if Text.isBlank name then none else return ⟨Text.trim name, splitItems items⟩

/-- Whether a line is a category with at least two items between bars. -/
def isPiped (text : String) : Bool :=
  !Text.contains text '[' &&
    match Text.splitOnce '=' text with
    | some (name, items) => !Text.isBlank name && 2 ≤ (Text.pieces '|' items).length
    | none => false

def startsLake (text : String) : Bool :=
  text.toList.head? == some '='

/-- Whether a line is a category with at least three items and a bar. -/
def isOrdered (text : String) : Bool :=
  Text.contains text '|' && (parseCategory text).any fun c => 3 ≤ c.items.length

def variationOf (lines : List ContentLine) : String :=
  let lines := ContentLine.withText lines
  if lines.any fun l => startsLake l.text then lake
  else if 2 ≤ (lines.filter fun l => isOrdered l.text).length then ordering
  else original

def detect (lines : List ContentLine) : Bool :=
  (ContentLine.withText lines).any fun l => startsLake l.text || isPiped l.text

def categoryLine (l : ContentLine) : Except ContentError Category :=
  match parseCategory l.text with
  | some c => .ok c
  | none => .error (.line l.line (.notCategory l.text))

def parse (lines : List ContentLine) : Except ContentError Categories := do
  let categories ← (ContentLine.withText lines).mapM categoryLine
  if categories.isEmpty then .error (.noContent tag) else return { categories }

def validateCategory (minItems number : Nat) (c : Category) : Validation :=
  .text s!"category {number} name" c.name maxNameLength ++
    .count s!"category '{c.name}'" c.items.length minItems maxItems

/-- Checks the categories, given how many of them and of their items are needed. -/
def validateAtLeast (minCategories minItems : Nat) (c : Categories) : Validation :=
  .count "categorize exercise" c.categories.length minCategories maxCategories ++
    .each c.categories (validateCategory minItems) ++
    .all ((duplicates (c.categories.map (·.name))).map fun name =>
      .error s!"category '{name}' is defined more than once")

def validate (c : Categories) : Validation :=
  validateAtLeast 1 1 c

def validateOrdered (c : Categories) : Validation :=
  validateAtLeast 2 3 c

def renderCategory (c : Category) : String :=
  c.name ++ " = " ++ Text.join " | " c.items

def serialize (c : Categories) : List String :=
  c.categories.map renderCategory

namespace InLake

/-- Takes a line in: correct items after an equals sign, the instruction after a question mark, or
else distractors. -/
def add (c : Categories) (text : String) : Categories :=
  match text.toList with
  | '=' :: items => { c with correct := c.correct ++ splitItems (String.ofList items) }
  | '?' :: rest => { c with instruction := some (String.ofList (Chars.trim rest)) }
  | _ => { c with distractors := c.distractors ++ splitItems text }

def parse (lines : List ContentLine) : Categories :=
  (ContentLine.withText lines).foldl (fun c l => add c l.text) {}

/-- Distractors that are correct items up to case and white space. -/
def contradictions (c : Categories) : List String :=
  c.distractors.filter fun d =>
    c.correct.any fun item => Text.normalized item == Text.normalized d

def validate (c : Categories) : Validation :=
  .count "lake correct items" c.correct.length 1 maxItems ++
    .count "lake distractors" c.distractors.length 0 maxItems ++
    .require (c.instruction.any fun text => !Text.isBlank text)
      "lake exercise needs instruction text (a '?' line or the 'instructions' metadata)" ++
    .all ((contradictions c).map fun d =>
      .error s!"'{d}' is both a correct item and a distractor") ++
    .all ((duplicates c.correct).map fun item =>
      .warning s!"correct item '{item}' is listed more than once")

def serialize (c : Categories) : List String :=
  (c.instruction.toList.map ("? " ++ ·)) ++ ["= " ++ Text.join " | " c.correct] ++
    if c.distractors.isEmpty then [] else [Text.join " | " c.distractors]

end InLake

end Categorize

end Worksheet
