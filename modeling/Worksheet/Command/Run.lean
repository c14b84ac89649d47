import Worksheet.Command.Basic
import Worksheet.Command.Printed

namespace Worksheet

namespace Command

variable {m : Type → Type} [Monad m] {σ : Type} [RandomSource σ]

/-- Runs the fixtures of categories one after the other, under headings. -/
def runSuite (files : Files m) (colored : Bool) :
    Suite → σ → m (List String × List FixtureResult)
  | [], _ => return ([], [])
  | (category, paths) :: rest, random => do
    let (results, random) ← Fixture.runAll files paths random
    let (lines, more) ← runSuite files colored rest random
    return (["", Printed.paint colored "1" (Suite.categoryLabel category)] ++
      results.map (Printed.resultLine colored) ++ lines, results ++ more)

/-- Runs the fixtures of a directory. -/
def testDirectory (files : Files m) (colored : Bool) (path : String)
    (entries : List (String × Entry)) (categories : List String) (random : σ) : m Printed := do
  let all := Suite.ofEntries path entries
  if all.isEmpty then return { exit := 1, messages := [s!"no .test.md files found in {path}"] }
  else
    let (suite, unknown) := if categories.isEmpty then (all, []) else all.select categories
    let available := Text.join ", " (all.map fun (category, _) => Suite.categoryLabel category)
    let warnings := unknown.map fun request =>
      s!"warning: category '{request}' not found (available: {available})"
    if suite.isEmpty then
      return { exit := 1, messages := warnings ++ ["no matching categories found"] }
    else
      let (lines, results) ← runSuite files colored suite random
      return Printed.report colored (warnings ++ lines) results

/-- Runs the fixtures at a path. -/
def runTests (files : Files m) (colored : Bool) (path : String) (categories : List String)
    (random : σ) : m Printed := do
  match ← files.find path with
  | some .file =>
    let (result, _) ← Fixture.run files path random
    return Printed.report colored [Printed.resultLine colored result] [result]
  | entry => testDirectory files colored path ((entry.map (·.entries)).getD []) categories random

/-- Does something with the built-in words and those of files. -/
def withWords (files : Files m) (paths : List String) (use : WordLibrary → m Printed) :
    m Printed := do
  match ← WordLibrary.builtin.loadFiles files paths with
  | .error (path, e) => return .failed (s!"cannot load '{path}': " ++ e.message)
  | .ok library => use library

/-- Compiles the script of a file and does something with the outcome. -/
def withOutcome (files : Files m) (file author : String) (paths : List String) (random : σ)
    (use : Outcome → Printed) : m Printed := do
  match ← files.read file with
  | .error fault => return .failed (s!"cannot read '{file}': " ++ fault.message)
  | .ok script =>
    withWords files paths fun words =>
      let engine : Engine σ := { Engine.builtin with words }
      return use (engine.compile script author random).1

def run (files : Files m) (colored : Bool) (random : σ) : Command → m Printed
  | .parse file author pretty paths =>
    withOutcome files file author paths random (Printed.outcome · pretty)
  | .check file paths => withOutcome files file "" paths random (Printed.checked file)
  | .types => return .kinds KindRegistry.builtin
  | .functions => return .functions (Engine.builtin : Engine σ).functions
  | .words name paths => withWords files paths fun library => return .words library name
  | .test path categories => runTests files colored path categories random
  | .listCategories path => return .categories path (← files.find path)

end Command

namespace Refusal

def programName : String := "exscript"

def programVersion : String := "0.1.0"

def usageLine : String :=
  "Usage: " ++ programName ++ " [OPTIONS] <COMMAND>"

/-- What is printed instead of carrying out a command line. -/
def printed : Refusal → Printed
  | .usage =>
    { exit := 2, messages := ["error: unknown or incomplete command line", "", usageLine] }
  | .help =>
    { output := [usageLine, "", "Commands: parse, check, types, functions, words, test, help"] }
  | .version => { output := [programName ++ " " ++ programVersion] }

end Refusal

/-- Carries out a command line. -/
def Invocation.run [Monad m] [RandomSource σ] (files : Files m) (random : σ)
    (words : List String) : m Printed :=
  match Invocation.ofWords words with
  | .error refusal => return refusal.printed
  | .ok invocation => invocation.command.run files invocation.colored random

end Worksheet
