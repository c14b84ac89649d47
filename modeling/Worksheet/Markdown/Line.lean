namespace Worksheet.Markdown

/-- A line ends at a line feed, at a carriage return, or at both in this order. -/
def isLineBreak (c : Char) : Bool :=
  c == '\n' || c == '\r'

/-- White space within a line. -/
def isLineSpace (c : Char) : Bool :=
  c == ' ' || c == '\t' || c == '\x0b' || c == '\x0c'

/-- The text after the line break at the start of a text. The end of the text ends a line too. -/
def lineEnd? : List Char → Option (List Char)
  | [] => some []
  | '\n' :: rest => some rest
  | '\r' :: '\n' :: rest => some rest
  | '\r' :: rest => some rest
  | _ => none

/-- The text after a line of white space. -/
def blankLine? (cs : List Char) : Option (List Char) :=
  lineEnd? (cs.dropWhile isLineSpace)

/-- The text after a line. -/
def afterLine : List Char → List Char
  | [] => []
  | '\n' :: rest => rest
  | '\r' :: '\n' :: rest => rest
  | '\r' :: rest => rest
  | _ :: rest => afterLine rest

/-- The text up to and including the next line feed, and the text after that. -/
def takeLine : List Char → List Char × List Char
  | [] => ([], [])
  | c :: rest =>
    if c == '\n' then ([c], rest)
    else
      let (line, rest) := takeLine rest
      (c :: line, rest)

/-- The column after the white space at the start of a line, seen from the given one, and the text
from there on. A tab reaches to the next multiple of four. -/
def indentation (column : Nat) : List Char → Nat × List Char
  | ' ' :: rest => indentation (column + 1) rest
  | '\t' :: rest => indentation (column + 4 - column % 4) rest
  | cs => (column, cs)

/-- Takes up to the given number of columns of white space from a line that begins at the given
column. What is left of a tab becomes spaces. -/
def unindent (columns column : Nat) : List Char → List Char
  | [] => []
  | c :: cs =>
    if columns == 0 then c :: cs
    else if c == ' ' then unindent (columns - 1) (column + 1) cs
    else if c == '\t' then
      let width := 4 - column % 4
      if width ≤ columns then unindent (columns - width) (column + width) cs
      else List.replicate (width - columns) ' ' ++ cs
    else c :: cs

theorem length_takeLine_le (cs : List Char) : (takeLine cs).2.length ≤ cs.length - 1 := by
  fun_induction takeLine cs with
  | case1 => exact Nat.le_refl _
  | case2 => exact Nat.le_refl _
  | case3 c rest _ line rest' h ih =>
    rw [h] at ih
    exact Nat.le_trans ih (Nat.sub_le ..)

theorem length_afterLine_le (cs : List Char) : (afterLine cs).length ≤ cs.length - 1 := by
  fun_induction afterLine cs with
  | case1 => exact Nat.le_refl _
  | case2 => exact Nat.le_refl _
  | case3 => exact Nat.le_succ _
  | case4 => exact Nat.le_refl _
  | case5 _ rest _ _ _ ih => exact Nat.le_trans ih (Nat.sub_le ..)

theorem length_lineEnd?_le {cs rest : List Char} (h : lineEnd? cs = some rest) :
    rest.length ≤ cs.length - 1 := by
  unfold lineEnd? at h
  split at h <;> cases h <;> simp

theorem length_indentation_le (column : Nat) (cs : List Char) :
    (indentation column cs).2.length ≤ cs.length := by
  fun_induction indentation column cs with
  | case1 _ rest ih => exact Nat.le_succ_of_le ih
  | case2 _ rest ih => exact Nat.le_succ_of_le ih
  | case3 => exact Nat.le_refl _

theorem length_dropWhile_le (p : Char → Bool) (cs : List Char) :
    (cs.dropWhile p).length ≤ cs.length :=
  (List.dropWhile_suffix p).length_le

theorem length_blankLine?_le {cs rest : List Char} (h : blankLine? cs = some rest) :
    rest.length ≤ cs.length - 1 := by
  have := length_lineEnd?_le h
  have := length_dropWhile_le isLineSpace cs
  omega

end Worksheet.Markdown
