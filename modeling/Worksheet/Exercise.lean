import Worksheet.Eval.Material
import Worksheet.Field.Config
import Worksheet.Field.Metadata
import Worksheet.Kind.Basic

namespace Worksheet

/-- A finished exercise, as it is shown and stored. -/
structure Exercise where
  /-- The tag of the kind. -/
  kind : String
  title : String
  instructions : String
  difficulty : Option String
  category : Option String
  content : Content
  hints : List String
  tags : List String
  explanation : Option String
  published : Bool
  author : String
  /-- The variation that the content was read in. -/
  variation : Option String
  config : Config
  /-- The text of the block. -/
  script : String
  markers : List Marker
  validation : Validation

namespace Exercise

/-- The title of an exercise that is given none: the kind and the number of the block. -/
def defaultTitle (displayName : String) (index : Nat) : String :=
  s!"{displayName} {index + 1}"

/-- The text, unless it is blank. -/
def unlessBlank (text : Option String) : Option String :=
  text.filter fun s => !Text.isBlank s

/-- Instructions from the metadata, or from a marker, or else those of the kind. -/
def chooseInstructions (kind : Kind) (metadata : Metadata) (markers : List Marker) : String :=
  (unlessBlank metadata.instructions).getD
    (((markers.find? (·.kind == .instruction)).map (·.text)).getD kind.instructions)

/-- Puts an exercise together. The hints of the content come after those of the metadata, and an
explanation in the content goes before one in the metadata. -/
def assemble (kind : Kind) (block : Block) (author : String) (metadata : Metadata) (config : Config)
    (material : Material) (content : Content) (validation : Validation) : Exercise where
  kind := kind.tag
  title := (unlessBlank metadata.title).getD (defaultTitle kind.displayName block.index)
  instructions := chooseInstructions kind metadata material.markers
  difficulty := metadata.difficulty
  category := metadata.category
  content := content
  hints := metadata.hints ++ material.hints
  tags := metadata.tags
  explanation := material.explanation.or metadata.explanation
  published := false
  author := author
  variation := content.variation
  config := config
  script := block.text
  markers := material.markers
  validation := validation

end Exercise

end Worksheet
