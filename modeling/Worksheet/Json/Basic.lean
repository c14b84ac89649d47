import Worksheet.Decimal.Layout
import Worksheet.Text

namespace Worksheet

/-- A JSON value. The members of an object keep their order. -/
inductive Json where
  | null
  | bool (b : Bool)
  | int (n : Int)
  | float (x : Float)
  | string (s : String)
  | array (items : List Json)
  | object (members : List (String × Json))
  deriving Inhabited

namespace Json

def strings (items : List String) : Json :=
  .array (items.map .string)

/-- The value, or null where there is none. -/
def option (toJson : α → Json) : Option α → Json
  | none => .null
  | some a => toJson a

/-- A member that is left out where there is no value. -/
def optionalMember (key : String) (toJson : α → Json) : Option α → List (String × Json)
  | none => []
  | some a => [(key, toJson a)]

/-- A member that is left out where the list is empty. -/
def listMember (key : String) (toJson : α → Json) (items : List α) : List (String × Json) :=
  if items.isEmpty then [] else [(key, .array (items.map toJson))]

def hexDigit (n : Nat) : Char :=
  (Nat.toDigits 16 n).getLastD '0'

/-- A character as it stands in a JSON string. -/
def escapeChar (c : Char) : List Char :=
  if c == '"' then ['\\', '"']
  else if c == '\\' then ['\\', '\\']
  else if c == '\n' then ['\\', 'n']
  else if c == '\r' then ['\\', 'r']
  else if c == '\t' then ['\\', 't']
  else if c == '\x08' then ['\\', 'b']
  else if c == '\x0c' then ['\\', 'f']
  else if c.toNat < 32 then ['\\', 'u', '0', '0', hexDigit (c.toNat / 16), hexDigit (c.toNat % 16)]
  else [c]

def quote (s : String) : String :=
  String.ofList ('"' :: s.toList.flatMap escapeChar ++ ['"'])

/-- Text of a value that has no parts. Numbers that are not finite are null. -/
def scalar? : Json → Option String
  | .null => some "null"
  | .bool b => some (if b then "true" else "false")
  | .int n => some (toString n)
  | .float x => some (if x.isFinite then Decimal.jsonText x else "null")
  | .string s => some (quote s)
  | .array [] => some "[]"
  | .object [] => some "\x7b\x7d"
  | _ => none

mutual

/-- Text without white space. -/
def compact : Json → String
  | .array items => "[" ++ Text.join "," (compactItems items) ++ "]"
  | .object members => "\x7b" ++ Text.join "," (compactMembers members) ++ "\x7d"
  | scalar => scalar.scalar?.getD ""

def compactItems : List Json → List String
  | [] => []
  | j :: rest => j.compact :: compactItems rest

def compactMembers : List (String × Json) → List String
  | [] => []
  | (key, j) :: rest => (quote key ++ ":" ++ j.compact) :: compactMembers rest

end

/-- The parts of a value on lines of their own between two brackets. -/
def spread (left right : String) (indent : String) (parts : List String) : String :=
  left ++ "\n  " ++ indent ++ Text.join (",\n  " ++ indent) parts ++ "\n" ++ indent ++ right

mutual

/-- Text with each part on a line of its own, two more spaces in than the value. -/
def pretty (indent : String) : Json → String
  | .array (item :: items) => spread "[" "]" indent (prettyItems ("  " ++ indent) (item :: items))
  | .object (m :: members) =>
    spread "\x7b" "\x7d" indent (prettyMembers ("  " ++ indent) (m :: members))
  | scalar => scalar.scalar?.getD ""

def prettyItems (indent : String) : List Json → List String
  | [] => []
  | j :: rest => j.pretty indent :: prettyItems indent rest

def prettyMembers (indent : String) : List (String × Json) → List String
  | [] => []
  | (key, j) :: rest => (quote key ++ ": " ++ j.pretty indent) :: prettyMembers indent rest

end

end Json

end Worksheet
