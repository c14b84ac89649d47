import Worksheet.Block.Sections
import Worksheet.Eval.Builtin
import Worksheet.Kind.Builtin
import Worksheet.Outcome
import Worksheet.Words.Builtin

namespace Worksheet

/-- The functions, kinds of exercises and words with which scripts are compiled. -/
structure Engine (σ : Type) where
  functions : FunctionRegistry σ := {}
  kinds : KindRegistry := {}
  words : WordLibrary := WordLibrary.builtin
  /-- Whether all built-in functions and kinds have been registered. -/
  installed : Bool := false

namespace Engine

variable {σ : Type} [RandomSource σ]

/-- Registers the built-in functions and kinds. Those before the first refused one stay. -/
def install (e : Engine σ) : Engine σ × Except RegistryError Unit :=
  if e.installed then (e, .ok ())
  else
    match e.functions.registerAll Builtin.functions with
    | (functions, .error err) => ({ e with functions }, .error err)
    | (functions, .ok ()) =>
      match e.kinds.registerAll Kind.builtin with
      | (kinds, .error err) => ({ e with functions, kinds }, .error err)
      | (kinds, .ok ()) => ({ e with functions, kinds, installed := true }, .ok ())

/-- The engine with the built-in functions, kinds and words. -/
def builtin : Engine σ :=
  (install {}).1

def registerFunction (e : Engine σ) (f : ScriptFunction σ) : Except RegistryError (Engine σ) :=
  (e.functions.register f).map fun functions => { e with functions }

def registerKind (e : Engine σ) (k : Kind) : Except RegistryError (Engine σ) :=
  let (kinds, result) := e.kinds.register k
  result.map fun () => { e with kinds }

/-- A diagnostic about a whole block. -/
def aboutBlock (block : Block) (severity : Severity) (message : String) : Diagnostic :=
  ⟨severity, message, some block.index, some block.startLine, some block.span⟩

/-- A diagnostic about a line of a block. -/
def aboutLine (block : Block) (line : Nat) (span : Span) (message : String) : Diagnostic :=
  ⟨.error, message, some block.index, some line, some span⟩

/-- What the fields of a block come to. -/
structure Header where
  metadata : Metadata
  config : Config
  warnings : List String

/-- Reads the fields of a block. -/
def readHeader (sections : Sections) : Header :=
  let (fields, malformed) := Field.parseAll sections.metadata
  let metadata := Metadata.ofFields fields
  let (configFields, malformedConfig) := Field.parseAll sections.config
  let (config, notes) := Config.ofFields configFields
  ⟨metadata, config,
    (malformed.map fun entry => s!"ignoring metadata entry '{entry}'") ++ metadata.notes ++
      (malformedConfig.map fun entry => s!"ignoring config entry '{entry}'") ++ notes⟩

/-- The kind that the metadata names, and a warning if there is none of that name. -/
def declaredKind (e : Engine σ) (metadata : Metadata) : Option Kind × List String :=
  match metadata.kind with
  | none => (none, [])
  | some name =>
    match e.kinds.get? name with
    | some k => (some k, [])
    | none =>
      (none, [s!"unknown exercise type '{name}', detecting the type from the content"])

/-- A fault of the content, placed on its line if it has one. -/
def contentError (block : Block) (error : ContentError) : Diagnostic :=
  match error with
  | .line number fault =>
    if 0 < number then aboutLine block number (block.lineSpan number) fault.message
    else aboutBlock block .error error.message
  | _ => aboutBlock block .error error.message

/-- Makes an exercise from the evaluated content of a block. -/
def finish (e : Engine σ) (author : String) (block : Block) (header : Header)
    (declared : Option Kind) (material : Material) : Outcome :=
  if material.lines.isEmpty then
    .report [aboutBlock block .error "exercise block has no content"]
  else
    match declared.or (e.kinds.detect? material.lines) with
    | none => .report [aboutBlock block .error ContentError.undetectedKind.message]
    | some kind =>
      match e.kinds.parse kind.tag material.lines header.config.variation with
      | .error err => .report [contentError block err]
      | .ok parsed =>
        let content := parsed.inheritInstructions header.metadata.instructions
        let validation := e.kinds.validate kind.tag content
        { Outcome.report (validation.errors.map (aboutBlock block .error) ++
            validation.warnings.map (aboutBlock block .warning)) with
          exercises := [Exercise.assemble kind block author header.metadata header.config material
            content validation] }

/-- Compiles one block. -/
def compileBlock (e : Engine σ) (author : String) (block : Block) (random : σ) : Outcome × σ :=
  let sections := Sections.ofBlock block
  let header := readHeader sections
  let (declared, unknown) := e.declaredKind header.metadata
  let before := Outcome.report ((header.warnings ++ unknown).map (aboutBlock block .warning))
  match (e.functions.context e.words).material sections.content random with
  | (.error err, random) =>
    (before ++ .report [aboutLine block err.line err.span err.error.message], random)
  | (.ok material, random) => (before ++ e.finish author block header declared material, random)

/-- Compiles blocks one after the other. -/
def compileBlocks (e : Engine σ) (author : String) : List Block → σ → Outcome × σ
  | [], random => ({}, random)
  | block :: rest, random =>
    let (first, random) := e.compileBlock author block random
    let (others, random) := compileBlocks e author rest random
    (first ++ others, random)

/-- A warning about text outside of all blocks. -/
def aboutStructure (script : String) (w : StructureWarning) : Diagnostic where
  severity := .warning
  message := w.fault.message
  line := some (Chars.countBefore '\n' w.span.start script.toList + 1)
  span := some w.span

/-- Compiles a script. Whatever is wrong with it is told by the diagnostics. -/
def compile (e : Engine σ) (script author : String) (random : σ) : Outcome × σ :=
  let outline := Outline.ofScript script
  let (blocks, random) := e.compileBlocks author outline.blocks random
  (.report (outline.warnings.map (aboutStructure script)) ++ blocks, random)

end Engine

end Worksheet
