import Worksheet.Json.Encode
import Worksheet.Outcome
import Worksheet.Words.Library

namespace Worksheet

def Json.nat (n : Nat) : Json :=
  .int n

def Blank.toJson (b : Blank) : Json :=
  .object [("position", .nat b.position), ("answers", .strings b.answers)]

def FillSentence.toJson (s : FillSentence) : Json :=
  .object [("text", .string s.text), ("blanks", .array (s.blanks.map Blank.toJson))]

def MatchPair.toJson (p : MatchPair) : Json :=
  .object [("left", .string p.left), ("right", .string p.right)]

def ChoiceQuestion.toJson (q : ChoiceQuestion) : Json :=
  .object [("question", .string q.question), ("options", .strings q.options),
    ("correctIndices", .array (q.correct.map .nat))]

def OrderingSentence.toJson (s : OrderingSentence) : Json :=
  .object [("segments", .strings s.segments)]

def Category.toJson (c : Category) : Json :=
  .object [("name", .string c.name), ("items", .strings c.items)]

def SelectorWord.toJson (w : SelectorWord) : Json :=
  .object [("index", .nat w.index), ("text", .string w.text), ("isTarget", .bool w.isTarget)]

def SelectorSentence.toJson (s : SelectorSentence) : Json :=
  .object [("text", .string s.text), ("words", .array (s.words.map SelectorWord.toJson))]

def ImageArea.toJson (a : ImageArea) : Json :=
  .object ([("x", .float a.x), ("y", .float a.y), ("width", .float a.width),
    ("height", .float a.height), ("isTarget", .bool a.isTarget)] ++
    Json.optionalMember "label" .string a.label)

def ImageSelection.toJson (s : ImageSelection) : Json :=
  .object [("url", .string s.url), ("areas", .array (s.areas.map ImageArea.toJson))]

/-- The members of content that depend on its kind. -/
def Body.members : Body → List (String × Json)
  | .fillBlank sentences => [("sentences", .array (sentences.map FillSentence.toJson))]
  | .matching pairs => [("pairs", .array (pairs.map MatchPair.toJson))]
  | .multipleChoice questions => [("questions", .array (questions.map ChoiceQuestion.toJson))]
  | .ordering sentences => [("sentences", .array (sentences.map OrderingSentence.toJson))]
  | .categorize c =>
    ("categories", .array (c.categories.map Category.toJson)) ::
      (Json.listMember "correctItems" .string c.correct ++
        Json.listMember "distractors" .string c.distractors ++
        Json.optionalMember "instruction" .string c.instruction)
  | .selector s =>
    Json.listMember "sentences" SelectorSentence.toJson s.sentences ++
      Json.optionalMember "image" ImageSelection.toJson s.image

/-- Members without a value are left out of content. Elsewhere they are null. -/
def Content.toJson (c : Content) : Json :=
  .object (("type", .string c.tag) ::
    (c.body.members ++ Json.optionalMember "variation" .string c.variation))

def Validation.toJson (v : Validation) : Json :=
  .object [("isValid", .bool v.isValid), ("errors", .strings v.errors),
    ("warnings", .strings v.warnings)]

def Severity.toJson : Severity → Json
  | .error => .string "error"
  | .warning => .string "warning"

def Diagnostic.toJson (d : Diagnostic) : Json :=
  .object [("severity", d.severity.toJson), ("message", .string d.message),
    ("block", .option .nat d.block), ("line", .option .nat d.line),
    ("span", .option Span.toJson d.span)]

def Exercise.toJson (e : Exercise) : Json :=
  .object [
    ("type", .string e.kind),
    ("title", .string e.title),
    ("instructions", .string e.instructions),
    ("difficulty", .option .string e.difficulty),
    ("category", .option .string e.category),
    ("content", e.content.toJson),
    ("hints", .strings e.hints),
    ("tags", .strings e.tags),
    ("explanation", .option .string e.explanation),
    ("published", .bool e.published),
    ("author", .string e.author),
    ("variation", .option .string e.variation),
    ("config", e.config.toJson),
    ("script", .string e.script),
    ("annotations", .array (e.markers.map Marker.toJson)),
    ("validation", e.validation.toJson)]

def Outcome.toJson (o : Outcome) : Json :=
  .object [("exercises", .array (o.exercises.map Exercise.toJson)), ("errors", .strings o.errors),
    ("warnings", .strings o.warnings),
    ("diagnostics", .array (o.diagnostics.map Diagnostic.toJson))]

def WordEntry.toJson (w : WordEntry) : Json :=
  .object [("word", .string w.word), ("category", .string w.category), ("level", .string w.level),
    ("tags", .strings w.tags)]

def WordSet.toJson (s : WordSet) : Json :=
  .object [("name", .string s.name), ("aliases", .strings s.aliases),
    ("words", .array (s.words.map WordEntry.toJson))]

end Worksheet
