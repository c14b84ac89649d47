import Worksheet.Text

namespace Worksheet

/-- The parts of a text that begins with settings between two lines of dashes. -/
structure FrontMatter where
  /-- The text between the dashes. -/
  settings : String
  /-- The text after the closing dashes and their line break. -/
  body : String
  deriving DecidableEq, Repr

/-- What is wrong with the settings of a text. -/
inductive FrontMatterError where
  | missingOpening
  | missingClosing
  | malformed
  deriving DecidableEq, Repr

def FrontMatterError.message : FrontMatterError → String
  | .missingOpening => "missing opening --- frontmatter delimiter"
  | .missingClosing => "missing closing --- frontmatter delimiter"
  | .malformed => "TOML parse error: not a table of expectations"

namespace FrontMatter

def byteOrderMark : Char := '\uFEFF'

/-- Drops a line break at the start of a text. -/
def dropBreak : List Char → List Char
  | '\n' :: rest => rest
  | '\r' :: '\n' :: rest => rest
  | cs => cs

/-- The texts before and after the first line break that three dashes follow. -/
def splitAtDashes : List Char → Option (List Char × List Char)
  | [] => none
  | '\n' :: '-' :: '-' :: '-' :: rest => some ([], rest)
  | c :: rest => (splitAtDashes rest).map fun (before, after) => (c :: before, after)

/-- Drops the carriage returns at the end of a text. -/
def dropReturns (cs : List Char) : List Char :=
  (cs.reverse.dropWhile (· == '\r')).reverse

/-- Cuts the settings off a text, which may begin with byte order marks. -/
def split (text : String) : Except FrontMatterError FrontMatter :=
  match text.toList.dropWhile (· == byteOrderMark) with
  | '-' :: '-' :: '-' :: rest =>
    match splitAtDashes (dropBreak rest) with
    | none => .error .missingClosing
    | some (settings, body) =>
      .ok ⟨String.ofList (dropReturns settings), String.ofList (dropBreak body)⟩
  | _ => .error .missingOpening

end FrontMatter

end Worksheet
