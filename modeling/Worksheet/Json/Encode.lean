import Worksheet.Marker
import Worksheet.Block.Outline
import Worksheet.Field.Config
import Worksheet.Field.Metadata
import Worksheet.Json.Basic

namespace Worksheet

def Span.toJson (s : Span) : Json :=
  .object [("start", .int s.start), ("end", .int s.stop)]

def FieldValue.toJson : FieldValue → Json
  | .bool b => .bool b
  | .number n => .float n
  | .text s => .string s
  | .list items => .strings items

def Keyed.toJson (toJson : α → Json) (entries : Keyed α) : Json :=
  .object (entries.map fun (key, value) => (key, toJson value))

def Metadata.toJson (m : Metadata) : Json :=
  .object [
    ("exerciseType", .option .string m.kind),
    ("title", .option .string m.title),
    ("instructions", .option .string m.instructions),
    ("difficulty", .option .string m.difficulty),
    ("category", .option .string m.category),
    ("tags", .strings m.tags),
    ("explanation", .option .string m.explanation),
    ("hints", .strings m.hints),
    ("extra", m.extra.toJson FieldValue.toJson)]

def Config.toJson (c : Config) : Json :=
  .object [
    ("variation", .option .string c.variation),
    ("style", .option .string c.style),
    ("time", .option .float c.time),
    ("limit", .option .float c.limit),
    ("shuffle", .option .bool c.shuffle),
    ("lives", .option .float c.lives),
    ("extra", c.extra.toJson FieldValue.toJson)]

def Marker.toJson (a : Marker) : Json :=
  .object [("kind", .string a.kind.label), ("text", .string a.text)]

end Worksheet
