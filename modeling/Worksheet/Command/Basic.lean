import Worksheet.Command.Options

namespace Worksheet

/-- What the program is asked to do. -/
inductive Command where
  /-- Compile a script and print the outcome as JSON. -/
  | parse (file author : String) (pretty : Bool) (words : List String)
  /-- Compile a script and report its diagnostics alone. -/
  | check (file : String) (words : List String)
  | types
  | functions
  /-- List the word sets, or the words of one of them. -/
  | words (library : Option String) (words : List String)
  /-- Run fixtures, those of the given categories if there are any. -/
  | test (path : String) (categories : List String)
  | listCategories (path : String)
  deriving DecidableEq, Repr

/-- A command and how its results are to be shown. -/
structure Invocation where
  command : Command
  colored : Bool
  deriving DecidableEq, Repr

namespace Invocation

/-- Options that every command takes. -/
def commonOptions : List OptionSpec :=
  [{ long := "no-color" }, { long := "verbose", short := some 'v', arity := .counted },
    { long := "help", short := some 'h', asks := some .help }]

/-- An option that stands before the command only. -/
def versionOption : OptionSpec :=
  { long := "version", short := some 'V', asks := some .version }

def wordsOption : OptionSpec :=
  { long := "words", arity := .values, isPath := true }

/-- The options of a command and its number of operands, all of which have to be given. -/
def shapeOf? : String → Option (List OptionSpec × Nat)
  | "parse" => some ([{ long := "author", arity := .value }, { long := "pretty" }, wordsOption], 1)
  | "check" => some ([wordsOption], 1)
  | "types" => some ([], 0)
  | "functions" => some ([], 0)
  | "words" =>
    some ([{ long := "library", short := some 'l', arity := .value }, wordsOption], 0)
  | "test" =>
    some ([{ long := "category", short := some 'c', arity := .values },
      { long := "list-categories" }], 1)
  | _ => none

/-- The command of a name with its options and operands. -/
def commandOf? (name : String) (p : Parsed) : Option Command :=
  match name, p.operands with
  | "parse", [file] =>
    some (.parse file ((p.value? "author").getD "") (p.contains "pretty") (p.values "words"))
  | "check", [file] => some (.check file (p.values "words"))
  | "types", [] => some .types
  | "functions", [] => some .functions
  | "words", [] => some (.words (p.value? "library") (p.values "words"))
  | "test", [path] =>
    if p.contains "list-categories" then some (.listCategories path)
    else some (.test path (p.values "category"))
  | _, _ => none

/-- Whether a word before the command is an option. -/
def isLeading (word : String) : Bool :=
  isOption word && word != "--"
where
  isOption (word : String) : Bool := Parsed.isOption word

/-- Reads the options before the command. -/
def readLeading (words : List String) : Except Refusal Parsed :=
  Parsed.ofWords (versionOption :: commonOptions) 0 words

/-- What a request for help comes to, which may name one command. -/
def helpOn (names : List String) : Refusal :=
  match names with
  | [] => .help
  | [name] => if name == "help" || (shapeOf? name).isSome then .help else .usage
  | _ => .usage

/-- Reads a command line without the name of the program. -/
def ofWords (words : List String) : Except Refusal Invocation := do
  let leading ← readLeading (words.takeWhile isLeading)
  match words.dropWhile isLeading with
  | [] => .error .usage
  | name :: rest =>
    match shapeOf? name with
    | none => .error (if name == "help" then helpOn rest else .usage)
    | some (specs, operands) =>
      let p ← Parsed.ofWords (specs ++ commonOptions) operands rest
      match commandOf? name p with
      | none => .error .usage
      | some command =>
        return ⟨command, !leading.contains "no-color" && !p.contains "no-color"⟩

end Invocation

end Worksheet
