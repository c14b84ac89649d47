import Worksheet.Chars.Alphabetic
import Worksheet.Chars.Blank
import Worksheet.Chars.Lowercase

namespace Worksheet.Text

def trim (s : String) : String :=
  String.ofList (Chars.trim s.toList)

def isBlank (s : String) : Bool :=
  s.toList.all Chars.isBlank

/-- Number of bytes of the UTF-8 form. -/
def size (s : String) : Nat :=
  Chars.size s.toList

/-- Lower case by the full Unicode mapping. -/
def lower (s : String) : String :=
  String.ofList (Chars.lower s.toList)

/-- Lower case of the letters A to Z alone. -/
def asciiLower (s : String) : String :=
  String.ofList (s.toList.map Char.toLower)

/-- Equality up to the case of the letters A to Z. -/
def eqIgnoringCase (s t : String) : Bool :=
  asciiLower s == asciiLower t

def contains (s : String) (c : Char) : Bool :=
  s.toList.contains c

/-- The pieces between the occurrences of a character. -/
def splitOn (sep : Char) (s : String) : List String :=
  (Chars.splitOn sep s.toList).map String.ofList

/-- The texts before and after the first occurrence of a character. -/
def splitOnce (sep : Char) (s : String) : Option (String × String) :=
  (Chars.splitOnce sep s.toList).map fun (before, after) =>
    (String.ofList before, String.ofList after)

/-- The trimmed pieces between the occurrences of a character, without the empty ones. -/
def pieces (sep : Char) (s : String) : List String :=
  (Chars.pieces sep s.toList).map String.ofList

/-- The maximal stretches without white space. -/
def words (s : String) : List String :=
  (Chars.words s.toList).map String.ofList

/-- The words with single spaces between them. -/
def collapse (s : String) : String :=
  String.ofList (Chars.collapse s.toList)

def lines (s : String) : List String :=
  (Chars.lines s.toList).map String.ofList

/-- The given texts with a separator between neighbours. -/
def join (sep : String) (pieces : List String) : String :=
  String.ofList (Chars.join sep.toList (pieces.map String.toList))

/-- Whether the second text occurs in the first. -/
def includes (s needle : String) : Bool :=
  Chars.occursIn needle.toList s.toList

/-- Whether the first text begins with the second. -/
def startsWith (s start : String) : Bool :=
  start.toList.isPrefixOf s.toList

/-- The text after a given beginning. -/
def stripStart? (start s : String) : Option String :=
  (Chars.stripStart? start.toList s.toList).map String.ofList

/-- The text before a given end. -/
def stripEnd? (ending s : String) : Option String :=
  (Chars.stripStart? ending.toList.reverse s.toList.reverse).map fun cs => String.ofList cs.reverse

/-- The stretch of a text between two byte offsets, if both are character boundaries. -/
def slice? (s : String) (span : Span) : Option String :=
  (Chars.slice? s.toList span).map String.ofList

/-- A letter A to Z or an underscore, which may begin an identifier. -/
def isIdentStart (c : Char) : Bool :=
  c.isAlpha || c == '_'

/-- A letter A to Z, a digit or an underscore. -/
def isIdentChar (c : Char) : Bool :=
  c.isAlphanum || c == '_'

/-- Comparison key that ignores case and the extent of white space. -/
def normalized (s : String) : String :=
  String.ofList (Chars.lower (Chars.collapse s.toList))

/-- A script line, already trimmed, that holds a comment. -/
def isComment (s : String) : Bool :=
  match s.toList with
  | '/' :: '/' :: _ => true
  | '#' :: _ => true
  | _ => false

end Worksheet.Text
