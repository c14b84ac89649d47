import Worksheet.Content.Basic
import Worksheet.Json.Basic
import Worksheet.Words.Library

namespace Worksheet

namespace Json

def string? : Json → Option String
  | .string s => some s
  | _ => none

def bool? : Json → Option Bool
  | .bool b => some b
  | _ => none

/-- A natural number of 64 bits. -/
def nat? : Json → Option Nat
  | .int n => if 0 ≤ n ∧ n.toNat < Nat.pow 2 64 then some n.toNat else none
  | _ => none

/-- A number. Integers count as floats. -/
def float? : Json → Option Float
  | .float x => some x
  | .int n => some (if n < 0 then -Float.ofNat n.natAbs else Float.ofNat n.natAbs)
  | _ => none

def list? (read : Json → Option α) : Json → Option (List α)
  | .array items => items.mapM read
  | _ => none

/-- A value or null. -/
def nullable? (read : Json → Option α) : Json → Option (Option α)
  | .null => some none
  | j => (read j).map some

/-- The members of a record, by name or by position. -/
inductive Record where
  | named (members : List (String × Json))
  | ordered (items : List Json)

/-- A value as a record. Items of an array beyond its members are ignored. -/
def openRecord? : Json → Option Record
  | .object members => some (.named members)
  | .array items => some (.ordered items)
  | _ => none

/-- A value as a record of at most the given number of members. -/
def record? (size : Nat) : Json → Option Record
  | .array items => if items.length ≤ size then some (.ordered items) else none
  | j => j.openRecord?

namespace Record

def get? (r : Record) (index : Nat) (name : String) : Option Json :=
  match r with
  | .named members => members.lookup name
  | .ordered items => items[index]?

/-- A member that has to be there. -/
def required? (r : Record) (index : Nat) (name : String) (read : Json → Option α) : Option α :=
  (r.get? index name).bind read

/-- A member with a default value. -/
def withDefault? (r : Record) (index : Nat) (name : String) (default : α)
    (read : Json → Option α) : Option α :=
  match r.get? index name with
  | none => some default
  | some j => read j

end Record

end Json

open Json (Record)

namespace Blank

def ofJson? (j : Json) : Option Blank := do
  let r ← j.record? 2
  return ⟨← r.required? 0 "position" Json.nat?,
    ← r.required? 1 "answers" (Json.list? Json.string?)⟩

end Blank

def FillSentence.ofJson? (j : Json) : Option FillSentence := do
  let r ← j.record? 2
  return ⟨← r.required? 0 "text" Json.string?,
    ← r.required? 1 "blanks" (Json.list? Blank.ofJson?)⟩

def MatchPair.ofJson? (j : Json) : Option MatchPair := do
  let r ← j.record? 2
  return ⟨← r.required? 0 "left" Json.string?, ← r.required? 1 "right" Json.string?⟩

def ChoiceQuestion.ofJson? (j : Json) : Option ChoiceQuestion := do
  let r ← j.record? 3
  return ⟨← r.required? 0 "question" Json.string?,
    ← r.required? 1 "options" (Json.list? Json.string?),
    ← r.required? 2 "correctIndices" (Json.list? Json.nat?)⟩

def OrderingSentence.ofJson? (j : Json) : Option OrderingSentence := do
  let r ← j.record? 1
  return ⟨← r.required? 0 "segments" (Json.list? Json.string?)⟩

def Category.ofJson? (j : Json) : Option Category := do
  let r ← j.record? 2
  return ⟨← r.required? 0 "name" Json.string?,
    ← r.required? 1 "items" (Json.list? Json.string?)⟩

def SelectorWord.ofJson? (j : Json) : Option SelectorWord := do
  let r ← j.record? 3
  return ⟨← r.required? 0 "index" Json.nat?, ← r.required? 1 "text" Json.string?,
    ← r.required? 2 "isTarget" Json.bool?⟩

def SelectorSentence.ofJson? (j : Json) : Option SelectorSentence := do
  let r ← j.record? 2
  return ⟨← r.required? 0 "text" Json.string?,
    ← r.required? 1 "words" (Json.list? SelectorWord.ofJson?)⟩

def ImageArea.ofJson? (j : Json) : Option ImageArea := do
  let r ← j.record? 6
  return ⟨← r.required? 0 "x" Json.float?, ← r.required? 1 "y" Json.float?,
    ← r.required? 2 "width" Json.float?, ← r.required? 3 "height" Json.float?,
    ← r.required? 4 "isTarget" Json.bool?,
    ← r.withDefault? 5 "label" none (Json.nullable? Json.string?)⟩

def ImageSelection.ofJson? (j : Json) : Option ImageSelection := do
  let r ← j.record? 2
  return ⟨← r.required? 0 "url" Json.string?,
    ← r.required? 1 "areas" (Json.list? ImageArea.ofJson?)⟩

namespace Content

/-- Content whose only member beside the variation is a list. -/
def listOfJson? (wrap : List α → Body) (name : String) (read : Json → Option α) (j : Json) :
    Option Content := do
  let r ← j.record? 2
  return ⟨wrap (← r.required? 0 name (Json.list? read)),
    ← r.withDefault? 1 "variation" none (Json.nullable? Json.string?)⟩

def categorizeOfJson? (j : Json) : Option Content := do
  let r ← j.record? 5
  let texts := Json.list? Json.string?
  let categories : Categories := {
    categories := ← r.required? 0 "categories" (Json.list? Category.ofJson?)
    correct := ← r.withDefault? 1 "correctItems" [] texts
    distractors := ← r.withDefault? 2 "distractors" [] texts
    instruction := ← r.withDefault? 3 "instruction" none (Json.nullable? Json.string?) }
  return ⟨.categorize categories,
    ← r.withDefault? 4 "variation" none (Json.nullable? Json.string?)⟩

def selectorOfJson? (j : Json) : Option Content := do
  let r ← j.record? 3
  let selection : Selection := {
    sentences := ← r.withDefault? 0 "sentences" [] (Json.list? SelectorSentence.ofJson?)
    image := ← r.withDefault? 1 "image" none (Json.nullable? ImageSelection.ofJson?) }
  return ⟨.selector selection, ← r.withDefault? 2 "variation" none (Json.nullable? Json.string?)⟩

/-- Content of the kind that has the given tag. -/
def ofTagged? (tag : String) (j : Json) : Option Content :=
  if tag == FillBlank.tag then listOfJson? .fillBlank "sentences" FillSentence.ofJson? j
  else if tag == Matching.tag then listOfJson? .matching "pairs" MatchPair.ofJson? j
  else if tag == MultipleChoice.tag then
    listOfJson? .multipleChoice "questions" ChoiceQuestion.ofJson? j
  else if tag == Ordering.tag then listOfJson? .ordering "sentences" OrderingSentence.ofJson? j
  else if tag == Categorize.tag then categorizeOfJson? j
  else if tag == Selector.tag then selectorOfJson? j
  else none

/-- Content of the kind that the member `type` of an object or the first item of an array names. -/
def ofJson? : Json → Option Content
  | .object members => do
    let tag ← (← members.lookup "type").string?
    ofTagged? tag (.object (members.filter (·.1 != "type")))
  | .array (.string tag :: rest) => ofTagged? tag (.array rest)
  | _ => none

end Content

namespace WordEntry

def ofRecord? (r : Record) : Option WordEntry := do
  return ⟨← r.required? 0 "word" Json.string?, ← r.required? 1 "category" Json.string?,
    ← r.required? 2 "level" Json.string?,
    ← r.withDefault? 3 "tags" [] (Json.list? Json.string?)⟩

def ofJson? (j : Json) : Option WordEntry := do
  ofRecord? (← j.record? 4)

end WordEntry

namespace WordSet

/-- A word set whose words are read in the given way. -/
def ofRecord? (word : Json → Option WordEntry) (r : Record) : Option WordSet := do
  return ⟨← r.required? 0 "name" Json.string?,
    ← r.withDefault? 1 "aliases" [] (Json.list? Json.string?),
    ← r.withDefault? 2 "words" [] (Json.list? word)⟩

def ofJson? (j : Json) : Option WordSet := do
  ofRecord? WordEntry.ofJson? (← j.record? 3)

end WordSet

end Worksheet
