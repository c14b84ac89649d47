import Worksheet.Chars.Alphabetic
import Worksheet.Eval.Functions

namespace Worksheet.Builtin

variable {σ : Type} [RandomSource σ]

/-- The text or the texts that an entry of the filters stands for. -/
def filterTexts : Param → List String
  | .list items => items.map Param.render
  | other => [other.render]

/-- Takes entries of an object as restrictions on words. -/
def filterOfEntries (filter : WordFilter) : List (String × Param) → Except ParameterFault WordFilter
  | [] => .ok filter
  | (key, p) :: rest =>
    if key == "level" || key == "levels" then
      filterOfEntries { filter with levels := filter.levels ++ filterTexts p } rest
    else if key == "tag" || key == "tags" then
      filterOfEntries { filter with tags := filter.tags ++ filterTexts p } rest
    else .error (.unknownFilter key)

/-- The restrictions that a call to `fill` names. -/
def filterOf (call : Call) : Except ParameterFault WordFilter :=
  match call.argument? 2 "filters" with
  | none => .ok {}
  | some (.object entries) => filterOfEntries {} entries
  | some p => .error (.filtersNotObject p.typeName)

/-- Words from a library or a category. -/
def fill : ScriptFunction σ where
  name := "fill"
  signature := "fill(libOrCategory, amount=1, filters=\x7b\x7d)"
  call ctx call := do
    let query ← ctx.textArgument call 0 "library"
    let amount ← ctx.countArgument call 1 "amount"
    match filterOf call with
    | .error fault => Eval.invalid "fill" fault
    | .ok filter =>
      match ← Eval.choose (ctx.words.sample query filter amount) with
      | .error e => throw (.words e)
      | .ok words => return .list (words.map .text)

/-- The value of a variable. -/
def var : ScriptFunction σ where
  name := "var"
  signature := "var(name)"
  call ctx call := do
    let name ← ctx.textArgument call 0 "name"
    ctx.read name

/-- Defines a variable. A single call is left for later. -/
def define : ScriptFunction σ where
  name := "define"
  signature := "define(name, value)"
  call ctx call := do
    let name ← ctx.textArgument call 0 "name"
    match call.argument? 1 "value" with
    | some (.call inner) => Eval.modifyTable (·.defer name inner)
    | some p =>
      let v ← ctx.evaluateParam p
      Eval.modifyTable (·.define name v)
    | none => Eval.invalid "define" (.missing "value")
    return .empty

/-- What `randomize` does to a text. -/
inductive Mode where
  | words
  | letters
  | mask
  | maskLetters
  deriving DecidableEq

def Mode.ofName? (name : String) : Option Mode :=
  match name with
  | "words" => some .words
  | "letters" => some .letters
  | "mask" => some .mask
  | "mask-letters" | "mask_letters" => some .maskLetters
  | _ => none

/-- Replaces the items at the given places. -/
def replaceAt (places : List Nat) (gap : α) (items : List α) : List α :=
  items.mapIdx fun i item => if places.contains i then gap else item

/-- Puts gaps in the place of some words. -/
def maskWords (amount : Nat) (words : List (List Char)) (s : σ) : List (List Char) × σ :=
  let (places, s) := sampleIndices words.length amount s
  (replaceAt places ['_', '_', '_'] words, s)

/-- Puts a gap in the place of some letters of a word. -/
def maskWord (amount : Nat) (word : List Char) (s : σ) : List Char × σ :=
  let letters := (List.range word.length).filter fun i => word[i]?.any Chars.isAlphabetic
  let (picks, s) := sampleIndices letters.length amount s
  (replaceAt (picks.filterMap (letters[·]?)) '_' word, s)

/-- Changes one word after the other. -/
def eachWord (change : List Char → σ → List Char × σ) :
    List (List Char) → σ → List (List Char) × σ
  | [], s => ([], s)
  | word :: rest, s =>
    let (word, s) := change word s
    let (rest, s) := eachWord change rest s
    (word :: rest, s)

/-- Changes the words of a text. -/
def Mode.apply (mode : Mode) (amount : Nat) (words : List (List Char)) (s : σ) :
    List (List Char) × σ :=
  match mode with
  | .words => shuffle words s
  | .letters => eachWord shuffle words s
  | .mask => maskWords amount words s
  | .maskLetters => eachWord (maskWord amount) words s

/-- Random orders and gaps. -/
def randomize : ScriptFunction σ where
  name := "randomize"
  signature := "randomize(content, kind=words|letters|mask|mask-letters, amount=1)"
  call ctx call := do
    let content ← ctx.argument call 0 "content"
    let name := match ← ctx.argument? call 1 "kind" with
      | some v => Text.asciiLower (Text.trim v.render)
      | none => "words"
    let amount ← ctx.countArgument call 2 "amount"
    match content, Mode.ofName? name with
    | _, none => Eval.invalid "randomize" (.unknownMode name)
    | .list items, some .words => return .list (← Eval.choose (shuffle items))
    | content, some mode =>
      let words ← Eval.choose (mode.apply amount (Chars.words content.render.toList))
      return .text (String.ofList (Chars.join [' '] words))

/-- Number of items of a list, or of characters of a text. -/
def sizeOf : Value → Nat
  | .list items => items.length
  | .empty => 0
  | other => other.render.length

def length : ScriptFunction σ where
  name := "length"
  signature := "length(content)"
  call ctx call := do
    let content ← ctx.argument call 0 "content"
    return .number (Float.ofNat (sizeOf content))

/-- Name of the parameter of a decorator. -/
def markerParameter : MarkerKind → String
  | .image => "url"
  | _ => "text"

def decorator (kind : MarkerKind) : ScriptFunction σ where
  name := kind.functionName
  signature := kind.functionName ++ "(" ++ markerParameter kind ++ ")"
  call ctx call := do
    let text ← ctx.textArgument call 0 (markerParameter kind)
    return .marker ⟨kind, text⟩

/-- The built-in functions in the order in which they are registered. -/
def functions : List (ScriptFunction σ) :=
  [fill, var, define, randomize, length] ++ MarkerKind.all.map decorator

end Worksheet.Builtin
