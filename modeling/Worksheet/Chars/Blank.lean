import Worksheet.Chars.Basic
import Worksheet.Chars.Ranges

namespace Worksheet.Chars

/-- The code points with the property White_Space. -/
def blankRanges : List (Nat × Nat) :=
  [(0x9, 0xD), (0x20, 0x20), (0x85, 0x85), (0xA0, 0xA0), (0x1680, 0x1680), (0x2000, 0x200A),
   (0x2028, 0x2029), (0x202F, 0x202F), (0x205F, 0x205F), (0x3000, 0x3000)]

def isBlank (c : Char) : Bool :=
  inRanges c.toNat blankRanges

def trimStart (cs : List Char) : List Char :=
  cs.dropWhile isBlank

def trimEnd (cs : List Char) : List Char :=
  (cs.reverse.dropWhile isBlank).reverse

/-- The text without the white space at both ends. -/
def trim (cs : List Char) : List Char :=
  trimEnd (trimStart cs)

/-- The trimmed pieces between the occurrences of a character, without the empty ones. -/
def pieces (sep : Char) (cs : List Char) : List (List Char) :=
  ((splitOn sep cs).map trim).filter (!·.isEmpty)

/-- The maximal stretches without white space. -/
def words (cs : List Char) : List (List Char) :=
  (splitWhere isBlank cs).filter (!·.isEmpty)

/-- The given texts with a separator between neighbours. -/
def join (sep : List Char) : List (List Char) → List Char
  | [] => []
  | [piece] => piece
  | piece :: next :: rest => piece ++ sep ++ join sep (next :: rest)

/-- The words of a text with single spaces between them. -/
def collapse (cs : List Char) : List Char :=
  join [' '] (words cs)

end Worksheet.Chars
