import Worksheet.Text

namespace Worksheet

/-- A line of a script without its line break. -/
structure SourceLine where
  /-- Number of the line, from one. -/
  number : Nat
  text : String
  /-- Where the text stands in the script. -/
  span : Span
  deriving DecidableEq, Repr

/-- The text between an opening and a closing brace, which describes one exercise. -/
structure Block where
  /-- Position among the blocks of the script, from zero. -/
  index : Nat
  /-- Line of the opening brace. -/
  startLine : Nat
  /-- Line of the closing brace. -/
  endLine : Nat
  /-- Where the block stands in the script, braces included. -/
  span : Span
  text : String
  /-- Lines between the braces. -/
  lines : List SourceLine
  deriving DecidableEq, Repr

/-- Where a line of the block stands, and for other lines where the block stands. -/
def Block.lineSpan (b : Block) (number : Nat) : Span :=
  ((b.lines.find? (·.number == number)).map (·.span)).getD b.span

namespace SourceLine

/-- Lines with consecutive numbers and the byte offsets that follow from their lengths. A carriage
return at the end of a line is part of its line break. -/
def enumerate (number start : Nat) : List (List Char) → List SourceLine
  | [] => []
  | raw :: rest =>
    let text := Chars.dropReturn raw
    ⟨number, String.ofList text, ⟨start, start + Chars.size text⟩⟩ ::
      enumerate (number + 1) (start + Chars.size raw + 1) rest

/-- The lines of a script. -/
def ofScript (script : String) : List SourceLine :=
  enumerate 1 0 (Chars.splitOn '\n' script.toList)

end SourceLine

end Worksheet
