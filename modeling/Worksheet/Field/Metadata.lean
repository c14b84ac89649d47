import Worksheet.Field.Basic
import Worksheet.Keyed

namespace Worksheet

/-- What a block says about its exercise. -/
structure Metadata where
  /-- The name of the kind of exercise, not yet checked. -/
  kind : Option String := none
  title : Option String := none
  instructions : Option String := none
  difficulty : Option String := none
  category : Option String := none
  tags : List String := []
  explanation : Option String := none
  hints : List String := []
  /-- Fields with other keys. -/
  extra : Keyed FieldValue := []

namespace Metadata

/-- Keys that are metadata when they stand at the head of a block. -/
def keys : List String :=
  ["type", "title", "instructions", "difficulty", "category", "tags", "explanation", "hints"]

def difficulties : List String :=
  ["easy", "medium", "hard"]

def categories : List String :=
  ["vocabulary", "grammar", "reading", "listening", "spelling", "writing", "general"]

/-- Takes a field in. Lists grow, and other values are replaced. -/
def add (m : Metadata) (f : Field) : Metadata :=
  match f.key with
  | "type" => { m with kind := some (Text.asciiLower f.value.render) }
  | "title" => { m with title := some f.value.render }
  | "instructions" => { m with instructions := some f.value.render }
  | "difficulty" => { m with difficulty := some (Text.asciiLower f.value.render) }
  | "category" => { m with category := some (Text.asciiLower f.value.render) }
  | "tags" => { m with tags := m.tags ++ f.value.toItems }
  | "explanation" => { m with explanation := some f.value.render }
  | "hints" | "hint" => { m with hints := m.hints ++ f.value.toItems }
  | other => { m with extra := m.extra.insert other f.value }

def ofFields (fields : List Field) : Metadata :=
  fields.foldl add {}

/-- A note about a value that is none of the expected ones. -/
def unrecognized (what : String) (expected : List String) (value : Option String) : List String :=
  match value with
  | none => []
  | some v =>
    if expected.contains v then []
    else [s!"unrecognized {what} '{v}' (expected one of: " ++ Text.join ", " expected ++ ")"]

/-- Notes about an unknown difficulty or category, which are kept nevertheless. -/
def notes (m : Metadata) : List String :=
  unrecognized "difficulty" difficulties m.difficulty ++
    unrecognized "category" categories m.category

end Metadata

end Worksheet
