import Worksheet.Kind.Registry

namespace Worksheet.Kind

/-- The grammar of a kind whose content is of type `α`, where `get?` takes the content out of a
body. Other bodies are refused. -/
def grammarOf (tag : String) (wrap : α → Body) (get? : Body → Option α)
    (detect : List ContentLine → Bool) (parse : List ContentLine → Except ContentError α)
    (validate : α → Validation) (serialize : α → Except ContentError (List String)) : Grammar where
  detect := detect
  parse lines := (parse lines).map wrap
  validate body :=
    match get? body with
    | some a => some (validate a)
    | none => some (.error (ContentError.mismatch tag).message)
  serialize body :=
    match get? body with
    | some a => serialize a
    | none => .error (.mismatch tag)

/-- The check of a variation, in which other bodies are refused. -/
def checkOf (tag : String) (get? : Body → Option α) (validate : α → Validation) (body : Body) :
    Validation :=
  match get? body with
  | some a => validate a
  | none => .error (ContentError.mismatch tag).message

/-- The writing of a variation, in which other bodies are refused. -/
def writeOf (tag : String) (get? : Body → Option α)
    (serialize : α → Except ContentError (List String)) (body : Body) :
    Except ContentError (List String) :=
  match get? body with
  | some a => serialize a
  | none => .error (.mismatch tag)

end Kind

namespace Body

def fillBlank? : Body → Option (List FillSentence)
  | .fillBlank s => some s
  | _ => none

def matching? : Body → Option (List MatchPair)
  | .matching p => some p
  | _ => none

def multipleChoice? : Body → Option (List ChoiceQuestion)
  | .multipleChoice q => some q
  | _ => none

def ordering? : Body → Option (List OrderingSentence)
  | .ordering s => some s
  | _ => none

def categorize? : Body → Option Categories
  | .categorize c => some c
  | _ => none

def selector? : Body → Option Selection
  | .selector s => some s
  | _ => none

end Body

namespace Kind

def selector : KindSpec where
  tag := Selector.tag
  displayName := some "Selector"
  priority := 10
  instructions := some "Select the correct words."
  aliases := ["select", "highlight"]
  grammar := some (grammarOf Selector.tag .selector Body.selector? Selector.detect Selector.parse
    Selector.validate (.ok ∘ Selector.serialize))
  variations := [
    { name := Selector.onText, displayName := "Select in text" },
    { name := Selector.onImage, displayName := "Select on image"
      grammar := some {
        parse := some fun lines => (Selector.Image.parse lines).map .selector
        validate := some (checkOf Selector.tag Body.selector? Selector.Image.validate)
        serialize := some (writeOf Selector.tag Body.selector? Selector.Image.serialize) } }]
  defaultVariation := some Selector.onText
  variationOf lines := some (Selector.variationOf lines)

def fillBlank : KindSpec where
  tag := FillBlank.tag
  displayName := some "Fill in the blank"
  priority := 20
  instructions := some "Fill in the missing words."
  aliases := ["fill", "fill_blank", "blanks"]
  grammar := some (grammarOf FillBlank.tag .fillBlank Body.fillBlank? FillBlank.detect
    FillBlank.parse FillBlank.validate FillBlank.serialize)

def multipleChoice : KindSpec where
  tag := MultipleChoice.tag
  displayName := some "Multiple choice"
  priority := 30
  instructions := some "Choose the correct answer."
  aliases := ["mc", "choice", "quiz"]
  grammar := some (grammarOf MultipleChoice.tag .multipleChoice Body.multipleChoice?
    MultipleChoice.detect MultipleChoice.parse MultipleChoice.validate MultipleChoice.serialize)

def categorize : KindSpec where
  tag := Categorize.tag
  displayName := some "Categorize"
  priority := 40
  instructions := some "Sort each item into its category."
  aliases := ["categorise", "category", "groups"]
  grammar := some (grammarOf Categorize.tag .categorize Body.categorize? Categorize.detect
    Categorize.parse Categorize.validate (.ok ∘ Categorize.serialize))
  variations := [
    { name := Categorize.original, displayName := "Categories" },
    { name := Categorize.ordering, displayName := "Ordered categories"
      grammar := some {
        validate := some
          (checkOf Categorize.tag Body.categorize? Categorize.validateOrdered) } },
    { name := Categorize.lake, displayName := "Lake"
      grammar := some {
        parse := some fun lines => .ok (.categorize (Categorize.InLake.parse lines))
        validate := some (checkOf Categorize.tag Body.categorize? Categorize.InLake.validate)
        serialize := some
          (writeOf Categorize.tag Body.categorize? (.ok ∘ Categorize.InLake.serialize)) } }]
  defaultVariation := some Categorize.original
  variationOf lines := some (Categorize.variationOf lines)

def matching : KindSpec where
  tag := Matching.tag
  displayName := some "Matching"
  priority := 50
  instructions := some "Match each item with its pair."
  aliases := ["match", "pairs"]
  grammar := some (grammarOf Matching.tag .matching Body.matching? Matching.detect Matching.parse
    Matching.validate (.ok ∘ Matching.serialize))

def ordering : KindSpec where
  tag := Ordering.tag
  displayName := some "Ordering"
  priority := 60
  instructions := some "Put the pieces in the correct order."
  aliases := ["order", "sort"]
  grammar := some (grammarOf Ordering.tag .ordering Body.ordering? Ordering.detect Ordering.parse
    Ordering.validate (.ok ∘ Ordering.serialize))
  variations := [
    { name := Ordering.single, displayName := "Letter scramble"
      grammar := some {
        parse := some fun lines => (Ordering.Single.parse lines).map .ordering
        validate := some (checkOf Ordering.tag Body.ordering? Ordering.Single.validate)
        serialize := some
          (writeOf Ordering.tag Body.ordering? (.ok ∘ Ordering.Single.serialize)) } },
    { name := Ordering.aligner, displayName := "Sentence aligner"
      grammar := some {
        parse := some fun lines => (Ordering.Aligner.parse lines).map .ordering
        serialize := some
          (writeOf Ordering.tag Body.ordering? (.ok ∘ Ordering.Aligner.serialize)) } }]
  variationOf lines := Ordering.variationOf lines

/-- The built-in kinds in the order in which they are registered. -/
def builtin : List KindSpec :=
  [selector, fillBlank, multipleChoice, categorize, matching, ordering]

end Kind

/-- The registry of the built-in kinds. -/
def KindRegistry.builtin : KindRegistry :=
  (KindRegistry.registerAll {} Kind.builtin).1

end Worksheet
