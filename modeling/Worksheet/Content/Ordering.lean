import Worksheet.Chars.Alphabetic
import Worksheet.Content.Error
import Worksheet.Content.Line
import Worksheet.Content.Validation

namespace Worksheet

/-- A sentence to be put in order: `I | like | to | read`. -/
structure OrderingSentence where
  /-- The segments in their correct order. -/
  segments : List String
  deriving DecidableEq, Repr

namespace Ordering

def tag : String := "ordering"
def single : String := "single"
def aligner : String := "aligner"

def maxSentences : Nat := 30
def minSegments : Nat := 2
def maxSegments : Nat := 20

def qualifies (text : String) : Bool :=
  Text.contains text '|' && !Text.contains text '=' && !Text.contains text '['

/-- The calls that list the segments of a sentence. -/
def alignCalls (text : String) : Except CallError (List Call) :=
  Call.findBare ["align"] text

def hasAlign (text : String) : Bool :=
  match alignCalls text with
  | .ok calls => !calls.isEmpty
  | .error _ => false

def isSingleWord (text : String) : Bool :=
  !text.isEmpty && text.toList.all Chars.isAlphabetic

def variationOf (lines : List ContentLine) : Option String :=
  let lines := ContentLine.withText lines
  if lines.isEmpty then none
  else if lines.any fun l => hasAlign l.text then some aligner
  else if lines.all fun l => isSingleWord l.text then some single
  else none

def detect (lines : List ContentLine) : Bool :=
  let lines := ContentLine.withText lines
  !lines.isEmpty && ((lines.any fun l => qualifies l.text || hasAlign l.text) ||
    lines.all fun l => isSingleWord l.text)

def nonempty (sentences : List OrderingSentence) : Except ContentError (List OrderingSentence) :=
  if sentences.isEmpty then .error (.noContent tag) else .ok sentences

def segmentLine (l : ContentLine) : Except ContentError OrderingSentence :=
  if qualifies l.text then .ok ⟨Text.pieces '|' l.text⟩
  else .error (.line l.line (.notSegments l.text))

def parse (lines : List ContentLine) : Except ContentError (List OrderingSentence) := do
  nonempty (← (ContentLine.withText lines).mapM segmentLine)

/-- Numbers of segments that are allowed. -/
def validateSize (label : String) (s : OrderingSentence) : Validation :=
  .count label s.segments.length minSegments maxSegments

def validateSentence (number : Nat) (s : OrderingSentence) : Validation :=
  let label := s!"sentence {number}"
  validateSize label s ++
    .all ((duplicates s.segments).map fun item => .error s!"{label} repeats the segment '{item}'")

def validate (sentences : List OrderingSentence) : Validation :=
  .count "ordering exercise" sentences.length 1 maxSentences ++ .each sentences validateSentence

def serialize (sentences : List OrderingSentence) : List String :=
  sentences.map fun s => Text.join " | " s.segments

namespace Single

/-- A word stands for its letters. -/
def wordLine (l : ContentLine) : Except ContentError OrderingSentence :=
  if isSingleWord l.text then .ok ⟨l.text.toList.map fun c => String.ofList [c]⟩
  else segmentLine l

def parse (lines : List ContentLine) : Except ContentError (List OrderingSentence) := do
  nonempty (← (ContentLine.withText lines).mapM wordLine)

def isLetter (segment : String) : Bool :=
  segment.length == 1 && segment.toList.all Chars.isAlphabetic

def validateWord (number : Nat) (s : OrderingSentence) : Validation :=
  let label := s!"word {number}"
  validateSize label s ++
    .require (s.segments.all isLetter) s!"{label} must consist of single letters"

def validate (sentences : List OrderingSentence) : Validation :=
  .count "letter scramble" sentences.length 1 maxSentences ++ .each sentences validateWord

def renderWord (s : OrderingSentence) : String :=
  let word := Text.join "" s.segments
  if isSingleWord word && s.segments.all (·.length == 1) then word
  else Text.join " | " s.segments

def serialize (sentences : List OrderingSentence) : List String :=
  sentences.map renderWord

end Single

namespace Aligner

/-- Neighbouring lines without a separator, as far as there are any, are one sentence. -/
def flush (run : List String) : List OrderingSentence :=
  if run.isEmpty then [] else [⟨run⟩]

/-- The sentences of lines that follow a run of lines without a separator. -/
def sentences (run : List String) :
    List ContentLine → Except ContentError (List OrderingSentence)
  | [] => .ok (flush run)
  | l :: rest =>
    match alignCalls l.text with
    | .error e => .error (.line l.line (.call e.message))
    | .ok calls =>
      if calls.isEmpty && !qualifies l.text then sentences (run ++ [l.text]) rest
      else
        let here : List OrderingSentence :=
          if calls.isEmpty then [⟨Text.pieces '|' l.text⟩]
          else calls.map fun c => ⟨c.arguments.map (·.value.render)⟩
        (sentences [] rest).map fun more => flush run ++ here ++ more

def parse (lines : List ContentLine) : Except ContentError (List OrderingSentence) := do
  nonempty (← sentences [] (ContentLine.withText lines))

def renderSentence (s : OrderingSentence) : String :=
  "align(" ++ Text.join ", " (s.segments.map Quoted.ofText) ++ ")"

def serialize (sentences : List OrderingSentence) : List String :=
  sentences.map renderSentence

end Aligner

end Ordering

end Worksheet
