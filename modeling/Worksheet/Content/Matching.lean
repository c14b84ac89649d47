import Worksheet.Content.Error
import Worksheet.Content.Line
import Worksheet.Content.Validation

namespace Worksheet

/-- A pair to be matched: `Apple = Fruit` or `Sun :: Sol`. -/
structure MatchPair where
  left : String
  right : String
  deriving DecidableEq, Repr

namespace Matching

def tag : String := "matching"

def minPairs : Nat := 2
def maxPairs : Nat := 20
def maxItemLength : Nat := 200

/-- The texts around the first separator, which is a double colon or an equals sign. -/
def splitPair : List Char → Option (List Char × List Char)
  | [] => none
  | ':' :: ':' :: rest => some ([], rest)
  | c :: rest =>
    if c == '=' then some ([], rest)
    else (splitPair rest).map fun (left, right) => (c :: left, right)

/-- Whether a line is a pair. With an equals sign alone it has no opening bracket. -/
def qualifies (text : String) : Bool :=
  Text.includes text "::" || (Text.contains text '=' && !Text.contains text '[')

def parsePair (text : String) : Option MatchPair :=
  (splitPair text.toList).map fun (left, right) =>
    ⟨String.ofList (Chars.trim left), String.ofList (Chars.trim right)⟩

def detect (lines : List ContentLine) : Bool :=
  (ContentLine.withText lines).any fun l => qualifies l.text

def pairLine (l : ContentLine) : Except ContentError MatchPair :=
  match if qualifies l.text then parsePair l.text else none with
  | some p => .ok p
  | none => .error (.line l.line (.notPair l.text))

def parse (lines : List ContentLine) : Except ContentError (List MatchPair) := do
  let pairs ← (ContentLine.withText lines).mapM pairLine
  if pairs.isEmpty then .error (.noContent tag) else return pairs

def validatePair (number : Nat) (p : MatchPair) : Validation :=
  .text s!"pair {number} left item" p.left maxItemLength ++
    .text s!"pair {number} right item" p.right maxItemLength

def validate (pairs : List MatchPair) : Validation :=
  .count "matching exercise" pairs.length minPairs maxPairs ++ .each pairs validatePair ++
    .all ((duplicates (pairs.map (·.left))).map fun item =>
      .error s!"left item '{item}' appears more than once") ++
    .all ((duplicates (pairs.map (·.right))).map fun item =>
      .error s!"right item '{item}' appears more than once")

/-- Writes a pair with the separator that its items allow. -/
def renderPair (p : MatchPair) : String :=
  let special (s : String) : Bool := Text.contains s '=' || Text.contains s '['
  p.left ++ (if special p.left || special p.right then " :: " else " = ") ++ p.right

def serialize (pairs : List MatchPair) : List String :=
  pairs.map renderPair

end Matching

end Worksheet
