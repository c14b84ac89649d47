import Worksheet.Fixture.FrontMatter
import Worksheet.Json.Decode
import Worksheet.Markdown.Blocks
import Worksheet.Toml.Reader

namespace Worksheet

/-- A message that is expected. -/
structure ExpectedMessage where
  /-- Text that occurs in the message. -/
  contains : String
  /-- Number of the block that it is about, from one. -/
  block : Option Nat
  deriving DecidableEq, Repr

/-- What compiling a script should come to, as far as it is said. -/
structure Expectation where
  count : Option Nat := none
  kinds : Option (List String) := none
  valid : Option Bool := none
  /-- Without this, no errors are expected. -/
  errors : Option (List ExpectedMessage) := none
  warnings : Option (List ExpectedMessage) := none
  deriving DecidableEq, Repr

/-- The settings of a fixture, which is a Markdown text with a script in fenced code blocks. -/
structure Fixture where
  description : Option String := none
  author : String := ""
  /-- Paths of word libraries, which start from the directory of the fixture. -/
  words : List String := []
  expectation : Expectation := {}
  deriving DecidableEq, Repr

open Json (Record)

def ExpectedMessage.ofJson? (j : Json) : Option ExpectedMessage := do
  let r ← j.openRecord?
  return ⟨← r.required? 0 "contains" Json.string?,
    ← r.withDefault? 1 "block" none (Json.nullable? Json.nat?)⟩

namespace Fixture

/-- A setting that may be left out. -/
def setting? (r : Record) (index : Nat) (name : String) (read : Json → Option α) :
    Option (Option α) :=
  r.withDefault? index name none (Json.nullable? read)

def ofJson? (j : Json) : Option Fixture := do
  let r ← j.openRecord?
  let messages := Json.list? ExpectedMessage.ofJson?
  return {
    description := ← setting? r 0 "description" Json.string?
    author := ← r.withDefault? 1 "author" "" Json.string?
    words := ← r.withDefault? 2 "words" [] (Json.list? Json.string?)
    expectation := {
      count := ← setting? r 3 "expect_count" Json.nat?
      kinds := ← setting? r 4 "expect_types" (Json.list? Json.string?)
      valid := ← setting? r 5 "expect_valid" Json.bool?
      errors := ← setting? r 6 "expect_errors" messages
      warnings := ← setting? r 7 "expect_warnings" messages } }

/-- The fixture that a text holds, and the Markdown text after its settings. -/
def ofTextWith (decode : String → Option Fixture) (text : String) :
    Except FrontMatterError (Fixture × String) := do
  let parts ← FrontMatter.split text
  match decode parts.settings with
  | some fixture => return (fixture, parts.body)
  | none => .error .malformed

/-- The fixture of a text with settings in TOML. -/
def ofText (text : String) : Except FrontMatterError (Fixture × String) :=
  ofTextWith (fun settings => (Toml.parse? settings).bind ofJson?) text

/-- How the names of fixture files end. -/
def fileEnding : String := ".test.md"

/-- The language of the code blocks that hold the script. -/
def language : String := "exercise"

/-- Puts a code block after others, on a line of its own. -/
def appendBlock (script block : List Char) : List Char :=
  if script.isEmpty || script.getLast? == some '\n' then script ++ block
  else script ++ '\n' :: block

/-- The script of a Markdown text, if there is one. -/
def script? (markdown : String) : Option String :=
  match (Markdown.codeBlocks markdown).filter (·.language == language) with
  | [] => none
  | blocks => some (String.ofList (blocks.foldl (fun s b => appendBlock s b.text.toList) []))

end Fixture

end Worksheet
