import Worksheet.Block.Basic
import Worksheet.Call.Definition
import Worksheet.Content.Line
import Worksheet.Eval.Context

namespace Worksheet

/-- What the content of a block comes to. -/
structure Material where
  lines : List ContentLine := []
  hints : List String := []
  /-- The last explanation. -/
  explanation : Option String := none
  deriving DecidableEq, Repr

/-- An error and the line of the script on which it arises. -/
structure LineError where
  line : Nat
  span : Span
  error : EvalError

/-- What one line contributes. -/
inductive LineEffect where
  | nothing
  | hint (text : String)
  | explanation (text : String)
  | content (line : ContentLine)

namespace Material

def markers (m : Material) : List Marker :=
  m.lines.flatMap (·.markers)

def add (m : Material) : LineEffect → Material
  | .nothing => m
  | .hint text => { m with hints := m.hints ++ [text] }
  | .explanation text => { m with explanation := some text }
  | .content line => { m with lines := m.lines ++ [line] }

end Material

/-- A remark of the form `HINT(text)` or `EXPLANATION(text)` that makes up a whole line. -/
def remark? (trimmed : String) : Except CallError (Option ((String → LineEffect) × String)) :=
  let effect? : Option (String → LineEffect) :=
    if Text.startsWith trimmed "HINT(" then some .hint
    else if Text.startsWith trimmed "EXPLANATION(" then some .explanation
    else none
  match effect? with
  | none => .ok none
  | some effect =>
    (Call.findBare ["HINT", "EXPLANATION"] trimmed).map fun calls =>
      match calls with
      | [] => none
      | call :: _ =>
        if call.span = ⟨0, Text.size trimmed⟩ then
          let inner := (call.source.toList.drop (call.name.length + 1)).dropLast
          some (effect, String.ofList ((Quoted.decode? inner).getD (Chars.trim inner)))
        else none

namespace Context

variable {σ : Type} (ctx : Context σ)

/-- Takes a definition into the table. A text that is no value after its calls are evaluated stands
for itself. -/
def define (d : Definition) : Eval σ Unit :=
  match d.value with
  | .call c => Eval.modifyTable (·.defer d.name c)
  | .literal raw => do
    let text ← ctx.resolve raw
    let value := match Param.parse text with
      | .ok p => Value.ofParam p
      | .error _ => .text text
    Eval.modifyTable (·.define d.name value)

/-- Evaluates a trimmed line of content that has the given number. -/
def readContent (number : Nat) (trimmed : String) : Eval σ LineEffect := do
  let text ← ctx.resolve trimmed
  let (rest, markers) ← Eval.ofCall (Marker.extract text)
  let rest := Text.trim rest
  if rest.isEmpty && markers.isEmpty then return .nothing
  else return .content ⟨rest, markers, number⟩

/-- Evaluates a line of a block. -/
def readLine (line : SourceLine) : Eval σ LineEffect := do
  let trimmed := Text.trim line.text
  if trimmed.isEmpty || Text.isComment trimmed then return .nothing
  else match Definition.parse? trimmed with
    | some definition => do
      ctx.define (← Eval.ofCall definition)
      return .nothing
    | none => do
      match ← Eval.ofCall (remark? trimmed) with
      | some (effect, text) => return effect (← ctx.resolve text)
      | none => ctx.readContent line.number trimmed

/-- Evaluates the lines of a block up to the first that fails. -/
def readLines (found : Material) :
    List SourceLine → World σ → Except LineError Material × World σ
  | [], w => (.ok found, w)
  | line :: rest, w =>
    match (ctx.readLine line).run.run w with
    | (.error e, w) => (.error ⟨line.number, line.span, e⟩, w)
    | (.ok effect, w) => readLines (found.add effect) rest w

/-- Evaluates the content of a block with no variables defined before. -/
def material (lines : List SourceLine) (random : σ) : Except LineError Material × σ :=
  let (result, w) := ctx.readLines {} lines ⟨{}, random⟩
  (result, w.random)

end Context

end Worksheet
