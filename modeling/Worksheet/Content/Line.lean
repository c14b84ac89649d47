import Worksheet.Marker

namespace Worksheet

/-- A line from which the content of an exercise is read: text without calls, and markers. -/
structure ContentLine where
  /-- Trimmed text without the decorators of markers. -/
  text : String
  markers : List Marker
  /-- Line of the script, or zero. -/
  line : Nat
  deriving DecidableEq, Repr

namespace ContentLine

/-- Takes the decorators out of a text that stands on no line of a script. -/
def ofText (text : String) : Except CallError ContentLine :=
  (Marker.extract text).map fun (rest, markers) => ⟨Text.trim rest, markers, 0⟩

/-- Lines of the texts that are not blank. -/
def ofTexts (texts : List String) : Except CallError (List ContentLine) :=
  (texts.filter fun t => !Text.isBlank t).mapM ofText

/-- Lines with a text, which may have markers as well. -/
def withText (lines : List ContentLine) : List ContentLine :=
  lines.filter (!·.text.isEmpty)

/-- The first marker of a kind. -/
def marker? (l : ContentLine) (kind : MarkerKind) : Option Marker :=
  l.markers.find? (·.kind == kind)

end ContentLine

end Worksheet
