import Worksheet.Fixture.Suite
import Worksheet.Json.Exercise

namespace Worksheet

/-- What a command prints, in lines, and whether it succeeds. -/
structure Printed where
  exit : Nat := 0
  output : List String := []
  /-- Messages, which are printed apart from the output. -/
  messages : List String := []
  deriving DecidableEq, Repr

namespace Printed

def failed (message : String) : Printed :=
  { exit := 1, messages := ["error: " ++ message] }

end Printed

/-- Text of at least the given width, with spaces after it. -/
def padEnd (width : Nat) (s : String) : String :=
  s ++ String.ofList (List.replicate (width - s.length) ' ')

/-- Text of at least the given width, with spaces before it. -/
def padStart (width : Nat) (s : String) : String :=
  String.ofList (List.replicate (width - s.length) ' ') ++ s

/-- Items between separators after a text, or nothing if there are none. -/
def listed (start : String) (items : List String) (ending : String) : String :=
  if items.isEmpty then "" else start ++ Text.join ", " items ++ ending

namespace Kind

/-- A variation as it is listed. -/
def describeVariation (k : Kind) (v : Variation) : String :=
  if k.defaultVariation == some v.name then v.name ++ " (default)" else v.name

/-- The lines that describe a kind. -/
def describe (k : Kind) : List String :=
  let aliases := listed "      aliases: " k.aliases ""
  let variations := listed "      variations: " (k.variations.map k.describeVariation) ""
  (padStart 4 (toString k.priority) ++ "  " ++ padEnd 16 k.tag ++ " " ++ k.displayName) ::
    [aliases, variations].filter (!·.isEmpty)

end Kind

def WordSet.describe (s : WordSet) : String :=
  padEnd 12 s.name ++ " " ++ padStart 4 (toString s.words.length) ++ " words" ++
    listed "  (aliases: " s.aliases ")"

def WordEntry.describe (w : WordEntry) : String :=
  padEnd 16 w.word ++ " " ++ padEnd 10 w.category ++ " " ++ w.level ++ listed "  [" w.tags "]"

namespace Printed

/-- The kinds of a registry. -/
def kinds (r : KindRegistry) : Printed :=
  { output := r.byPriority.flatMap Kind.describe }

/-- The functions of a registry. -/
def functions (r : FunctionRegistry σ) : Printed :=
  { output := r.toList.map fun f => "@" ++ f.signature }

/-- The word sets of a library, or the words of the set of a name. -/
def words (library : WordLibrary) (name : Option String) : Printed :=
  match name with
  | none => { output := library.sets.map fun (_, set) => set.describe }
  | some name =>
    match library.set? name with
    | none => .failed s!"no word library named '{name}'"
    | some set => { output := set.words.map WordEntry.describe }

/-- The line on a diagnostic. -/
def diagnosticLine (d : Diagnostic) : String :=
  s!"{d.severity.name}: " ++ d.render

/-- An outcome as JSON, and its diagnostics. -/
def outcome (o : Outcome) (pretty : Bool) : Printed where
  exit := if o.hasErrors then 1 else 0
  output := [if pretty then o.toJson.pretty "" else o.toJson.compact]
  messages := o.diagnostics.map diagnosticLine

/-- The diagnostics of an outcome, and how many there are. -/
def checked (file : String) (o : Outcome) : Printed :=
  let found := o.diagnostics.map diagnosticLine
  let exercises := o.exercises.length
  let warnings := o.warnings.length
  if o.hasErrors then
    let valid := (o.exercises.filter (·.validation.isValid)).length
    { exit := 1
      messages := found ++
        [s!"error: {file}: {o.errors.length} error(s), {warnings} warning(s), {valid} of " ++
          s!"{exercises} exercise(s) valid"] }
  else
    { messages := found ++ [s!"ok: {file}: {exercises} exercise(s), {warnings} warning(s)"] }

/-- Text in the color or weight of a terminal code. -/
def paint (colored : Bool) (code text : String) : String :=
  if colored then "\x1b[" ++ code ++ "m" ++ text ++ "\x1b[0m" else text

/-- The line on a fixture that has been run. -/
def resultLine (colored : Bool) (r : FixtureResult) : String :=
  let mark := if r.failure.isSome then paint colored "31" "FAIL" else paint colored "32" "PASS"
  "  " ++ mark ++ "  " ++ r.label

/-- The lines on the failure of a fixture. -/
def failureLines (r : FixtureResult) : List String :=
  match r.failure with
  | none => []
  | some failure =>
    ["", s!"  --- {r.path} ---"] ++ (Text.lines failure.message).map ("  " ++ ·)

/-- What is printed about fixtures after they have been run, given the lines before that. -/
def report (colored : Bool) (before : List String) (results : List FixtureResult) : Printed :=
  let failed := (results.filter (·.failure.isSome)).length
  let passed := results.length - failed
  if failed == 0 then
    let ok := paint colored "32" "ok"
    { messages := before ++ ["", s!"test result: {ok}. {passed} passed, 0 failed"] }
  else
    let mark := paint colored "31" "FAILED"
    { exit := 1
      messages := before ++ ["", "failures:"] ++ results.flatMap failureLines ++
        ["", s!"test result: {mark}. {passed} passed, {failed} failed (of {results.length})"] }

/-- The categories of the fixtures at a path. -/
def categories (path : String) (entry : Option Entry) : Printed :=
  match entry with
  | some .file => { messages := ["(single file, no categories)"] }
  | _ =>
    let suite := Suite.ofEntries path ((entry.map (·.entries)).getD [])
    if suite.isEmpty then { messages := [s!"no .test.md files found in {path}"] }
    else
      { messages := "available categories:" :: suite.map fun (category, paths) =>
          s!"  {Suite.categoryLabel category} ({paths.length} tests)" }

end Printed

end Worksheet
