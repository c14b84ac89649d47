import Worksheet.Decimal.Reader
import Worksheet.Text

namespace Worksheet.Quoted

/-- Reads escapes: a backslash stands for the character after it, and for itself at the end. -/
def unescape : List Char → List Char
  | [] => []
  | ['\\'] => ['\\']
  | '\\' :: c :: cs => c :: unescape cs
  | c :: cs => c :: unescape cs

/-- Writes a backslash before each double quote and backslash. -/
def escape : List Char → List Char
  | [] => []
  | c :: cs => if c == '"' || c == '\\' then '\\' :: c :: escape cs else c :: escape cs

/-- The text between quotes of one kind that stand at both ends of a text, white space aside. -/
def decode? (cs : List Char) : Option (List Char) :=
  match Chars.trim cs with
  | [] => none
  | quote :: rest =>
    if quote == '"' || quote == '\'' then (Chars.stripLast? quote rest).map unescape else none

/-- Characters that bare text of an argument may not have. -/
def isSpecial (c : Char) : Bool :=
  [',', '(', ')', '[', ']', '\x7b', '\x7d', '"', '\'', '=', ':', '@', '|'].contains c

/-- Whether a text would not be read as itself without quotes. -/
def needsQuotes (cs : List Char) : Bool :=
  cs.isEmpty || Chars.trim cs != cs || cs.any isSpecial ||
    cs.map Char.toLower == "true".toList || cs.map Char.toLower == "false".toList ||
    (Decimal.read? cs).isSome

/-- The text as an argument. -/
def encode (cs : List Char) : List Char :=
  if needsQuotes cs then '"' :: escape cs ++ ['"'] else cs

theorem unescape_escape (cs : List Char) : unescape (escape cs) = cs := by
  induction cs with
  | nil => rfl
  | cons c cs ih =>
    rw [escape]
    split
    · simp [unescape, ih]
    · rename_i h
      simp only [Bool.or_eq_true, beq_iff_eq, not_or] at h
      rw [unescape]
      · rw [ih]
      · intro hc; exact absurd hc h.2
      · intro d ds hc; exact absurd hc h.2

/-- The text as an argument. -/
def ofText (s : String) : String :=
  String.ofList (encode s.toList)

/-- The text between quotes, if the text is quoted. -/
def toText? (s : String) : Option String :=
  (decode? s.toList).map String.ofList

end Worksheet.Quoted
