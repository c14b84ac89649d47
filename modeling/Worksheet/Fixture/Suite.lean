import Worksheet.Engine
import Worksheet.Files
import Worksheet.Fixture.Expectation
import Worksheet.Words.File

namespace Worksheet

/-- Why a fixture fails. -/
inductive FixtureFailure where
  | unreadable (fault : FileFault)
  | frontMatter (e : FrontMatterError)
  | noScript
  | words (e : WordError)
  | mismatch (m : Mismatch)
  deriving DecidableEq, Repr

def FixtureFailure.message : FixtureFailure → String
  | .unreadable fault => "cannot read file: " ++ fault.message
  | .frontMatter e => "frontmatter error: " ++ e.message
  | .noScript => "no \x60\x60\x60" ++ Fixture.language ++ " code block found"
  | .words e => "cannot load word library: " ++ e.message
  | .mismatch m => m.message

/-- What running a fixture comes to. -/
structure FixtureResult where
  path : String
  description : Option String
  failure : Option FixtureFailure

namespace FixtureResult

/-- The description of the fixture, or else the name of its file. -/
def label (r : FixtureResult) : String :=
  (r.description.or ((Path.fileName? r.path).bind (Text.stripEnd? Fixture.fileEnding))).getD "?"

end FixtureResult

namespace WordLibrary

variable {m : Type → Type} [Monad m]

/-- Adds the sets of a file. -/
def loadFile (files : Files m) (library : WordLibrary) (path : String) :
    m (WordLibrary × Except WordError Nat) := do
  match ← files.read path with
  | .error fault => return (library, .error (.malformed (path ++ ": " ++ fault.message)))
  | .ok text => return library.load text

/-- Adds the sets of files. The first file that cannot be loaded is returned with its fault. -/
def loadFiles (files : Files m) (library : WordLibrary) :
    List String → m (Except (String × WordError) WordLibrary)
  | [] => return .ok library
  | path :: rest => do
    match ← library.loadFile files path with
    | (_, .error e) => return .error (path, e)
    | (library, .ok _) => loadFiles files library rest

end WordLibrary

namespace Fixture

variable {m : Type → Type} [Monad m] {σ : Type} [RandomSource σ]

/-- Compiles the script of a fixture with further words, and compares the outcome. -/
def check (fixture : Fixture) (script : String) (words : WordLibrary) (random : σ) :
    Option Mismatch × σ :=
  let engine : Engine σ := { Engine.builtin with words }
  let (outcome, random) := engine.compile script fixture.author random
  (fixture.expectation.mismatch? outcome, random)

/-- Runs the fixture of a file. -/
def run (files : Files m) (path : String) (random : σ) : m (FixtureResult × σ) := do
  match ← files.read path with
  | .error fault => return (⟨path, none, some (.unreadable fault)⟩, random)
  | .ok text =>
    match ofText text with
    | .error e => return (⟨path, none, some (.frontMatter e)⟩, random)
    | .ok (fixture, body) =>
      let result (failure : Option FixtureFailure) : FixtureResult :=
        ⟨path, fixture.description, failure⟩
      match script? body with
      | none => return (result (some .noScript), random)
      | some script =>
        let paths := fixture.words.map (Path.join (Path.parent path))
        match ← WordLibrary.builtin.loadFiles files paths with
        | .error (_, e) => return (result (some (.words e)), random)
        | .ok words =>
          let (mismatch, random) := fixture.check script words random
          return (result (mismatch.map .mismatch), random)

/-- Runs the fixtures of files one after the other. -/
def runAll (files : Files m) : List String → σ → m (List FixtureResult × σ)
  | [], random => return ([], random)
  | path :: rest, random => do
    let (result, random) ← run files path random
    let (results, random) ← runAll files rest random
    return (result :: results, random)

end Fixture

/-- The paths of fixtures by their categories. The category of a fixture is its directory, as it is
seen from where the suite begins. -/
abbrev Suite := Keyed (List String)

namespace Suite

/-- Adds a fixture to a category. -/
def insert (category path : String) (s : Suite) : Suite :=
  Keyed.insert category ((Keyed.get? category s).getD [] ++ [path]) s

/-- The category of a directory within a category. -/
def subcategory (category name : String) : String :=
  let name := String.ofList (name.toList.map fun c => if c == '\\' then '/' else c)
  if category.isEmpty then name else category ++ "/" ++ name

mutual

/-- The categories and paths of the fixtures in an entry of the given category, name and path. -/
def fixturesOf (category name path : String) : Entry → List (String × String)
  | .file => if (Text.stripEnd? Fixture.fileEnding name).isSome then [(category, path)] else []
  | .directory entries => fixturesIn (subcategory category name) path entries

/-- The categories and paths of the fixtures in a directory of the given category and path. -/
def fixturesIn (category path : String) : List (String × Entry) → List (String × String)
  | [] => []
  | (name, entry) :: rest =>
    fixturesOf category name (Path.join path name) entry ++ fixturesIn category path rest

end

/-- The fixtures of a directory at a path. -/
def ofEntries (path : String) (entries : List (String × Entry)) : Suite :=
  let sorted := entriesInOrder (fixturesIn "" path entries)
  sorted.foldl (fun s (category, path) => s.insert category path) []
where
  entriesInOrder (found : List (String × String)) : List (String × String) :=
    found.mergeSort fun a b => !(b.2 < a.2)

/-- The name under which a category is shown. -/
def categoryLabel (category : String) : String :=
  if category.isEmpty then "(root)" else category

/-- A request without slashes at its ends. -/
def requestKey (request : String) : String :=
  let dropSlashes (cs : List Char) : List Char := cs.dropWhile (· == '/')
  String.ofList (dropSlashes (dropSlashes request.toList).reverse).reverse

/-- Whether a category is the requested one or lies within it. -/
def isWithin (request category : String) : Bool :=
  category == request || Text.startsWith category (request ++ "/")

/-- The categories that are requested, and the requests that no category answers. -/
def select (s : Suite) (requests : List String) : Suite × List String :=
  let keys := requests.map requestKey
  (s.filter fun (category, _) => keys.any (isWithin · category),
    keys.filter fun key => !s.any fun (category, _) => isWithin key category)

end Suite

end Worksheet
