import Worksheet.Content.Categorize
import Worksheet.Content.FillBlank
import Worksheet.Content.Matching
import Worksheet.Content.MultipleChoice
import Worksheet.Content.Ordering
import Worksheet.Content.Selector

namespace Worksheet

/-- What an exercise asks. -/
inductive Body where
  | fillBlank (sentences : List FillSentence)
  | matching (pairs : List MatchPair)
  | multipleChoice (questions : List ChoiceQuestion)
  | ordering (sentences : List OrderingSentence)
  | categorize (categories : Categories)
  | selector (selection : Selection)
  deriving BEq, Repr

/-- The tag of the kind that a body belongs to. -/
def Body.tag : Body → String
  | .fillBlank _ => FillBlank.tag
  | .matching _ => Matching.tag
  | .multipleChoice _ => MultipleChoice.tag
  | .ordering _ => Ordering.tag
  | .categorize _ => Categorize.tag
  | .selector _ => Selector.tag

/-- The content of an exercise of any built-in kind. -/
structure Content where
  body : Body
  /-- The variation of the kind by which the body was read. -/
  variation : Option String := none
  deriving BEq, Repr

namespace Content

def tag (c : Content) : String :=
  c.body.tag

/-- Gives the instructions of a block to content that needs its own and has none. -/
def inheritInstructions (c : Content) (instructions : Option String) : Content :=
  match c.body, instructions with
  | .categorize categories, some text =>
    if categories.instruction.any fun own => !Text.isBlank own then c
    else { c with body := .categorize { categories with instruction := some text } }
  | _, _ => c

end Content

end Worksheet
