import Worksheet.Block.Basic

namespace Worksheet

/-- What is wrong with text that belongs to no block. -/
inductive StructureFault where
  | stray
  | unclosed (line : Nat)
  deriving DecidableEq, Repr

namespace StructureFault

def message : StructureFault → String
  | .stray => "text outside of an exercise block is ignored"
  | .unclosed line => s!"block starting on line {line} is never closed and was skipped"

/-- Advice that goes with the message. -/
def notes : StructureFault → List String
  | .stray => ["wrap each exercise in a `\x7b` ... `\x7d` pair on their own lines"]
  | .unclosed _ => []

end StructureFault

structure StructureWarning where
  fault : StructureFault
  span : Span
  deriving DecidableEq, Repr

/-- Opened less closed braces of a text outside double-quoted strings. -/
def braceBalance (inString escaped : Bool) : List Char → Int
  | [] => 0
  | c :: cs =>
    if inString then
      if escaped then braceBalance true false cs
      else if c == '\\' then braceBalance true true cs
      else braceBalance (c != '"') false cs
    else if c == '"' then braceBalance true false cs
    else if c == '\x7b' then braceBalance false false cs + 1
    else if c == '\x7d' then braceBalance false false cs - 1
    else braceBalance false false cs

/-- A block whose closing brace is still to come. -/
structure OpenBlock where
  startLine : Nat
  start : Nat
  /-- Opened less closed braces so far. -/
  depth : Int
  lines : List SourceLine

/-- Where the reading of a script stands after some lines. -/
inductive Place where
  /-- Outside all blocks, after a run of stray text if there is one. -/
  | outside (stray : Option Span)
  | inside (block : OpenBlock)

/-- What the reading of a line brings to light. -/
inductive Finding where
  | warning (w : StructureWarning)
  /-- The lines of a closed block and the line of its closing brace. -/
  | block (b : OpenBlock) (last : SourceLine)

/-- A run of stray text is reported when it ends. -/
def strayWarning (stray : Option Span) : List Finding :=
  match stray with
  | some span => [.warning ⟨.stray, span⟩]
  | none => []

namespace OpenBlock

/-- Takes a further line in. -/
def add (b : OpenBlock) (line : SourceLine) : OpenBlock :=
  { b with lines := b.lines ++ [line] }

/-- Takes in what stands before the last brace of the closing line. -/
def addLast (b : OpenBlock) (line : SourceLine) : OpenBlock :=
  if Text.trim line.text == "\x7d" then b
  else match Chars.splitLast '\x7d' line.text.toList with
    | none => b
    | some (before, _) =>
      if before.all Chars.isBlank then b
      else b.add ⟨line.number, String.ofList before,
        ⟨line.span.start, line.span.start + Chars.size before⟩⟩

end OpenBlock

namespace Place

/-- Reads one line. -/
def step (place : Place) (line : SourceLine) : Place × List Finding :=
  let trimmed := Text.trim line.text
  match place with
  | .outside stray =>
    if trimmed.isEmpty || Text.isComment trimmed then (.outside none, strayWarning stray)
    else if trimmed == "\x7b" then
      (.inside ⟨line.number, line.span.start, 1, []⟩, strayWarning stray)
    else
      let start := (stray.map (·.start)).getD line.span.start
      (.outside (some ⟨start, line.span.stop⟩), [])
  | .inside block =>
    if Text.isComment trimmed then (.inside (block.add line), [])
    else
      let depth := block.depth + braceBalance false false line.text.toList
      if 0 < depth then (.inside { block.add line with depth }, [])
      else (.outside none, [.block (block.addLast line) line])

/-- Reads lines one after the other. -/
def run (place : Place) : List SourceLine → Place × List Finding
  | [] => (place, [])
  | line :: rest =>
    let (next, found) := place.step line
    let (last, more) := run next rest
    (last, found ++ more)

/-- What is reported when the script ends here. -/
def finish (place : Place) (size : Nat) : List Finding :=
  match place with
  | .outside stray => strayWarning stray
  | .inside block => [.warning ⟨.unclosed block.startLine, ⟨block.start, size⟩⟩]

end Place

/-- The block that a finding stands for, given the script. -/
def OpenBlock.close (script : String) (index : Nat) (b : OpenBlock) (last : SourceLine) : Block :=
  let span : Span := ⟨b.start, last.span.stop⟩
  ⟨index, b.startLine, last.number, span, (Text.slice? script span).getD "", b.lines⟩

/-- A script cut into its blocks, and what was wrong between them. -/
structure Outline where
  blocks : List Block
  warnings : List StructureWarning

/-- The blocks and warnings of a script. A block opens on a line that holds an opening brace alone,
and closes where the opened and closed braces of its lines, strings and comments aside, are equally
many. -/
def Outline.ofScript (script : String) : Outline :=
  let (place, found) := Place.run (.outside none) (SourceLine.ofScript script)
  let found := found ++ place.finish (Text.size script)
  let closed := found.filterMap fun
    | .block b last => some (b, last)
    | .warning _ => none
  ⟨closed.zipIdx.map fun ((b, last), index) => b.close script index last,
    found.filterMap fun
      | .warning w => some w
      | .block .. => none⟩

end Worksheet
