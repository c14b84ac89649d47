import Worksheet.Block.Basic
import Worksheet.Field.Config
import Worksheet.Field.Metadata

namespace Worksheet

inductive SectionName where
  | metadata
  | config
  deriving DecidableEq, Repr

/-- Where the lines of a block go. -/
structure Sections where
  /-- Field text of the metadata, one contribution a line. -/
  metadata : String
  /-- Field text of the configuration, one contribution a line. -/
  config : String
  content : List SourceLine
  deriving DecidableEq

/-- What is known after some lines of a block. -/
structure SectionState where
  /-- The section of a decorator that is not closed yet. -/
  decorator : Option SectionName := none
  /-- Whether no content came before. -/
  inHeader : Bool := true

/-- What a line contributes. -/
inductive Contribution where
  | fields (name : SectionName) (text : List Char)
  | content (line : SourceLine)

namespace Sections

/-- The section of the decorator that a line opens, and the text after its parenthesis. -/
def decorator? (trimmed : List Char) : Option (SectionName × List Char) :=
  let opens (name : String) : Bool := (name.toList).isPrefixOf (trimmed.map Char.toLower)
  if opens "@metadata(" then some (.metadata, trimmed.drop "@metadata(".length)
  else if opens "@config(" then some (.config, trimmed.drop "@config(".length)
  else none

def isSeparator (c : Char) : Bool :=
  c == ':' || c == '='

/-- The section of a field at the head of a block. With an equals sign its key has no capitals, so
that pairs such as `Time = Tiempo` stay content. -/
def header? (trimmed : List Char) : Option SectionName :=
  let key := Chars.trim (trimmed.takeWhile (!isSeparator ·))
  match trimmed.dropWhile (!isSeparator ·) with
  | [] => none
  | separator :: rest =>
    if rest.head?.any isSeparator then none
    else if separator == '=' && key.any Char.isUpper then none
    else
      let name := Text.asciiLower (String.ofList key)
      if Metadata.keys.contains name then some .metadata
      else if Config.keys.contains name then some .config
      else none

/-- Reads one line. -/
def route (state : SectionState) (line : SourceLine) : SectionState × List Contribution :=
  let trimmed := Chars.trim line.text.toList
  match state.decorator with
  | some name =>
    match Chars.stripLast? ')' trimmed with
    | some last => ({ state with decorator := none }, [.fields name last])
    | none => (state, [.fields name trimmed])
  | none =>
    if trimmed.isEmpty then (state, [])
    else match decorator? trimmed with
      | some (name, rest) =>
        match Chars.stripLast? ')' rest with
        | some inner => (state, [.fields name inner])
        | none => ({ state with decorator := some name }, [.fields name rest])
      | none =>
        if state.inHeader && !Text.isComment (String.ofList trimmed) then
          match header? trimmed with
          | some name => (state, [.fields name trimmed])
          | none => ({ state with inHeader := false }, [.content line])
        else (state, [.content line])

/-- Reads lines one after the other. -/
def contributions (state : SectionState) : List SourceLine → List Contribution
  | [] => []
  | line :: rest =>
    let (next, found) := route state line
    found ++ contributions next rest

/-- The trimmed contributions to a section that are not empty, each on a line of its own. -/
def fieldText (name : SectionName) (found : List Contribution) : String :=
  let texts := found.filterMap fun
    | .fields other text => if other = name then some (Chars.trim text) else none
    | .content _ => none
  String.ofList (Chars.join ['\n'] (texts.filter (!·.isEmpty)))

/-- Sorts the lines of a block into its sections. -/
def ofLines (lines : List SourceLine) : Sections :=
  let found := contributions {} lines
  ⟨fieldText .metadata found, fieldText .config found, found.filterMap fun
    | .content line => some line
    | .fields .. => none⟩

/-- The sections of a block. Metadata and configuration stand in decorators `@metadata(...)` and
`@config(...)`, or as recognized fields at the head of the block. -/
def ofBlock (b : Block) : Sections :=
  ofLines b.lines

end Sections

end Worksheet
