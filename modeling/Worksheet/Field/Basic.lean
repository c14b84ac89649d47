import Worksheet.Call.Quoted
import Worksheet.Call.Scanner
import Worksheet.Decimal.Layout
import Worksheet.Decimal.Reader

namespace Worksheet

inductive FieldValue where
  | bool (b : Bool)
  | number (n : Float)
  | text (s : String)
  | list (items : List String)

/-- The items between top-level commas, unquoted where they are quoted, without the empty ones. -/
def listItems (cs : List Char) : List String :=
  ((splitTopLevel ',' cs).map fun piece => (Quoted.decode? piece.text).getD piece.text).filter
    (!·.isEmpty) |>.map String.ofList

namespace FieldValue

/-- The value that a text stands for: a quoted text, a number, a truth value or a list in square
brackets, and otherwise the text itself. -/
def ofChars (cs : List Char) : FieldValue :=
  let raw := Chars.trim cs
  let lower := Text.asciiLower (String.ofList raw)
  match Quoted.decode? raw with
  | some s => .text (String.ofList s)
  | none =>
    match if Decimal.isLiteral raw then Decimal.read? raw else none with
    | some n => .number n
    | none =>
      if lower == "true" then .bool true
      else if lower == "false" then .bool false
      else match raw with
        | '[' :: rest =>
          match Chars.stripLast? ']' rest with
          | some inner => .list (listItems inner)
          | none => .text (String.ofList raw)
        | _ => .text (String.ofList raw)

def coerce (s : String) : FieldValue :=
  ofChars s.toList

def render : FieldValue → String
  | .bool b => if b then "true" else "false"
  | .number n => Decimal.numberText n
  | .text s => s
  | .list items => Text.join ", " items

def number? : FieldValue → Option Float
  | .number n => some n
  | .text s => Decimal.read? (Chars.trim s.toList)
  | _ => none

/-- Truth values may also be given as yes, on, no and off. -/
def bool? : FieldValue → Option Bool
  | .bool b => some b
  | .text s =>
    let lower := Text.asciiLower s
    if lower == "yes" || lower == "on" then some true
    else if lower == "no" || lower == "off" then some false
    else none
  | _ => none

/-- Text counts as a list with commas between its items. -/
def toItems : FieldValue → List String
  | .list items => items
  | .text s => listItems s.toList
  | other => [other.render]

end FieldValue

/-- A field. Its key has no capital letters. -/
structure Field where
  key : String
  value : FieldValue

namespace Field

/-- A piece of a line between top-level commas. -/
inductive Entry where
  | keyed (key : String) (value : List Char)
  /-- A piece that does not begin with a key. -/
  | loose (text : List Char)

def isKey (cs : List Char) : Bool :=
  !cs.isEmpty && cs.all fun c => c.isAlphanum || c == '_' || c == '-'

namespace Entry

def isLoose : Entry → Bool
  | .keyed .. => false
  | .loose _ => true

def ofChars (cs : List Char) : Entry :=
  match findTopLevel? ['=', ':'] cs with
  | none => .loose cs
  | some (before, rest) =>
    let key := (Chars.trim before).map Char.toLower
    if isKey key then .keyed (String.ofList key) (Chars.trim rest.tail) else .loose cs

/-- The fields of a line. A loose piece continues the value of the field before it, and what has no
such field is returned first. -/
def gather : List Entry → List Char × List (String × List Char)
  | [] => ([], [])
  | .loose text :: rest =>
    let (continued, fields) := gather rest
    (", ".toList ++ text ++ continued, fields)
  | .keyed key value :: rest =>
    let (continued, fields) := gather rest
    ([], (key, value ++ continued) :: fields)

end Entry

/-- The pieces of a line that are not empty. -/
def entries (line : List Char) : List Entry :=
  ((splitTopLevel ',' line).filter (!·.text.isEmpty)).map (Entry.ofChars ·.text)

/-- The fields of a line and the loose pieces before the first of them. -/
def ofLine (line : List Char) : List Field × List String :=
  let found := entries line
  let fields := (Entry.gather (found.dropWhile Entry.isLoose)).2
  let loose := (found.takeWhile Entry.isLoose).filterMap fun
    | .loose text => some (String.ofList text)
    | .keyed .. => none
  (fields.map fun (key, value) => ⟨key, .ofChars value⟩, loose)

/-- The fields of a text and the pieces that belong to no field. -/
def parseAll (text : String) : List Field × List String :=
  let found := (Chars.lines text.toList).map ofLine
  (found.flatMap (·.1), found.flatMap (·.2))

end Field

end Worksheet
