import Worksheet.Content.Error
import Worksheet.Content.Line
import Worksheet.Content.Validation

namespace Worksheet

structure SelectorWord where
  index : Nat
  text : String
  isTarget : Bool
  deriving DecidableEq, Repr

/-- A sentence in which words are to be picked: `The [cat] sleeps.` -/
structure SelectorSentence where
  /-- Displayed text, without brackets. -/
  text : String
  words : List SelectorWord
  deriving DecidableEq, Repr

structure ImageArea where
  x : Float
  y : Float
  width : Float
  height : Float
  isTarget : Bool
  label : Option String
  deriving BEq, Repr

structure ImageSelection where
  url : String
  areas : List ImageArea
  deriving BEq, Repr

/-- Words to be picked in sentences, or areas to be picked on an image. -/
structure Selection where
  sentences : List SelectorSentence := []
  image : Option ImageSelection := none
  deriving BEq, Repr

namespace Selector

def tag : String := "selector"
def onText : String := "on-text"
def onImage : String := "image"

def maxSentences : Nat := 30
def maxAreas : Nat := 30

/-- The calls that describe areas of an image. -/
def areaCalls (text : String) : Except CallError (List Call) :=
  Call.findBare ["area"] text

def hasArea (text : String) : Bool :=
  match areaCalls text with
  | .ok calls => !calls.isEmpty
  | .error _ => false

/-- Whether brackets that are not blank stand on a line without the signs of other exercises. -/
def isTextLine (text : String) : Bool :=
  !Text.contains text '=' && !Text.contains text '|' &&
    ((Chars.splitOn '[' text.toList).drop 1).any fun rest =>
      (Chars.splitOnce ']' rest).any fun (inner, _) => !inner.all Chars.isBlank

def variationOf (lines : List ContentLine) : String :=
  if lines.any fun l => hasArea l.text then onImage else onText

/-- The word without its brackets, whether it is a target, and whether a bracket is open after it.
A bracket that opens within a word makes the whole word a target. -/
def readWord (inBrackets target : Bool) : List Char → List Char × Bool × Bool
  | [] => ([], target, inBrackets)
  | c :: cs =>
    if c == '[' then readWord true true cs
    else if c == ']' then readWord false target cs
    else
      let (word, target, inBrackets) := readWord inBrackets target cs
      (c :: word, target, inBrackets)

/-- Numbers the words that are not empty. -/
def readWords (index : Nat) (inBrackets : Bool) : List (List Char) → List SelectorWord
  | [] => []
  | token :: rest =>
    let (word, isTarget, isOpen) := readWord inBrackets inBrackets token
    if word.isEmpty then readWords index isOpen rest
    else ⟨index, String.ofList word, isTarget⟩ :: readWords (index + 1) isOpen rest

/-- Reads a line. Brackets may span several words, which are all targets. -/
def parseSentence (text : String) : SelectorSentence :=
  let words := readWords 0 false (Chars.words text.toList)
  ⟨Text.join " " (words.map (·.text)), words⟩

def renderSentence (s : SelectorSentence) : String :=
  Text.join " " (s.words.map fun w => if w.isTarget then "[" ++ w.text ++ "]" else w.text)

/-- An address with a host, a path from the root, or an image given in place. -/
def isValidUrl (url : String) : Bool :=
  let url := Text.trim url
  match (Text.stripStart? "https://" url).or (Text.stripStart? "http://" url) with
  | some host => !host.isEmpty && !url.toList.any Chars.isBlank
  | none => (Text.startsWith url "/" && 1 < url.length) || Text.startsWith url "data:image/"

def detect (lines : List ContentLine) : Bool :=
  lines.any fun l => hasArea l.text || isTextLine l.text

def parse (lines : List ContentLine) : Except ContentError Selection :=
  let sentences := (ContentLine.withText lines).map fun l => parseSentence l.text
  if sentences.isEmpty then .error (.noContent tag) else .ok { sentences }

def validate (s : Selection) : Validation :=
  .count "selector exercise" s.sentences.length 1 maxSentences ++
    .require (s.sentences.any fun sentence => sentence.words.any (·.isTarget))
      "mark at least one target word with [brackets]" ++
    .each s.sentences fun i sentence =>
      .require (!sentence.words.isEmpty) s!"sentence {i} has no words"

def serialize (s : Selection) : List String :=
  s.sentences.map renderSentence

namespace Image

/-- A number among the arguments of an area. -/
def coordinate (line : Nat) (call : Call) (index : Nat) (name : String) :
    Except ContentError Float :=
  match call.positional? index with
  | some (.number n) => .ok n
  | other =>
    let found := (other.map Param.typeName).getD "nothing"
    .error (.line line (.areaNumber (index + 1) name found))

def areaTarget (line : Nat) (call : Call) : Except ContentError Bool :=
  match call.positional? 4 with
  | some (.bool b) => .ok b
  | none => .ok false
  | some other => .error (.line line (.areaTarget other.typeName))

/-- The area that a call describes. A wrong mark of targets is reported before a wrong number. -/
def area (line : Nat) (call : Call) : Except ContentError ImageArea := do
  let isTarget ← areaTarget line call
  let x ← coordinate line call 0 "x"
  let y ← coordinate line call 1 "y"
  let width ← coordinate line call 2 "width"
  let height ← coordinate line call 3 "height"
  return ⟨x, y, width, height, isTarget, (call.positional? 5).map Param.render⟩

def lineAreas (l : ContentLine) : Except ContentError (List ImageArea) :=
  match areaCalls l.text with
  | .error e => .error (.line l.line (.call e.message))
  | .ok calls => calls.mapM (area l.line)

def parse (lines : List ContentLine) : Except ContentError Selection := do
  match lines.findSome? (·.marker? .image) with
  | none => .error (.noContent "image selector @img(url)")
  | some marker =>
    let areas ← lines.mapM lineAreas
    return { image := some ⟨marker.text, areas.flatten⟩ }

def validateArea (number : Nat) (a : ImageArea) : Validation :=
  .require (!(a.x < 0.0 || a.y < 0.0)) s!"area {number} starts at a negative position" ++
    .require (!(a.width ≤ 0.0 || a.height ≤ 0.0)) s!"area {number} must have a positive size"

def validate (s : Selection) : Validation :=
  match s.image with
  | none => .error "image selector has no image"
  | some image =>
    .require (isValidUrl image.url) s!"'{image.url}' is not a valid image URL" ++
      .count "image selector areas" image.areas.length 1 maxAreas ++
      .require (image.areas.any (·.isTarget)) "mark at least one area as a target" ++
      .each image.areas validateArea

def renderArea (a : ImageArea) : String :=
  let numbers := [a.x, a.y, a.width, a.height].map Decimal.plain
  let target := if a.isTarget then "true" else "false"
  "area(" ++ Text.join ", " (numbers ++ [target] ++ a.label.toList.map Quoted.ofText) ++ ")"

def serialize (s : Selection) : Except ContentError (List String) :=
  match s.image with
  | none => .error (.noContent "image selector image")
  | some image =>
    .ok (Marker.toDecorator ⟨.image, image.url⟩ :: image.areas.map renderArea)

end Image

end Selector

end Worksheet
