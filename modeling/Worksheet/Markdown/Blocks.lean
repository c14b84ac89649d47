import Worksheet.Chars.Blank
import Worksheet.Markdown.Info
import Worksheet.Markdown.Line

namespace Worksheet

/-- A fenced code block. -/
structure CodeBlock where
  /-- The first word after the opening fence, or nothing. -/
  language : String
  text : String
  deriving DecidableEq, Repr

namespace Markdown

def backtick : Char := '\x60'

/-- An opening fence. -/
structure Fence where
  indent : Nat
  mark : Char
  /-- Number of marks. -/
  size : Nat
  info : List Char
  deriving DecidableEq, Repr

/-- The opening fence at the start of a text, indented by the given number of columns, and the text
after its line. After backticks there may be no further ones. -/
def fence? (indent : Nat) (cs : List Char) : Option (Fence × List Char) :=
  match cs with
  | [] => none
  | mark :: _ =>
    let size := (cs.takeWhile (· == mark)).length
    let (info, rest) := takeLine (cs.dropWhile (· == mark))
    if 3 ≤ size && (mark == '~' || (mark == backtick && !info.contains backtick)) then
      some (⟨indent, mark, size, info⟩, rest)
    else none

namespace Fence

def language (f : Fence) : String :=
  String.ofList ((Chars.words (unescape f.info)).headD [])

/-- The text after the closing fence at the start of a text. Besides a line of marks, the end of the
text closes a block, with up to three spaces before it. -/
def closing? (f : Fence) (cs : List Char) : Option (List Char) :=
  let marks := cs.dropWhile (· == ' ')
  if 3 < (cs.takeWhile (· == ' ')).length then none
  else if marks.isEmpty then some []
  else if (marks.takeWhile (· == f.mark)).length < f.size then none
  else lineEnd? ((marks.dropWhile (· == f.mark)).dropWhile (· == ' '))

/-- A line without a carriage return right before its last character, if that takes one byte. -/
def dropReturn : List Char → List Char
  | [] => []
  | ['\r', last] => if last.utf8Size == 1 then [last] else ['\r', last]
  | c :: cs => c :: dropReturn cs

/-- The text of a block from a line of it on, and the text after the block. -/
def content (f : Fence) : List Char → List Char × List Char
  | [] => ([], [])
  | c :: cs =>
    match f.closing? (c :: cs) with
    | some rest => ([], rest)
    | none =>
      let next := takeLine (c :: cs)
      have : (takeLine (c :: cs)).2.length ≤ cs.length := length_takeLine_le (c :: cs)
      let (text, rest) := f.content next.2
      (dropReturn (unindent f.indent 0 next.1) ++ text, rest)
termination_by cs => cs.length

end Fence

/-- Whether a text begins with a line of three or more stars, dashes or low lines. -/
def isThematicBreak (cs : List Char) : Bool :=
  match cs with
  | [] => false
  | mark :: _ =>
    let line := cs.takeWhile (!isLineBreak ·)
    (mark == '*' || mark == '-' || mark == '_') && 3 ≤ line.count mark &&
      line.all fun c => c == mark || c == ' ' || c == '\t'

/-- Whether a text begins with up to six number signs and white space after them. -/
def isHeading (cs : List Char) : Bool :=
  let size := (cs.takeWhile (· == '#')).length
  1 ≤ size && size ≤ 6 &&
    (cs.dropWhile (· == '#')).head?.all fun c => isLineBreak c || isLineSpace c

/-- The text after a line that makes the paragraph before it a heading, and that is indented by the
given number of columns. -/
def underline? (columns : Nat) (cs : List Char) : Option (List Char) :=
  match cs with
  | [] => none
  | mark :: rest =>
    if columns < 4 && (mark == '=' || mark == '-') then blankLine? (rest.dropWhile (· == mark))
    else none

/-- Whether a line that is indented by the given number of columns ends the paragraph before it. -/
def interrupts (columns : Nat) (cs : List Char) : Bool :=
  (lineEnd? cs).isSome ||
    (columns < 4 && (isThematicBreak cs || isHeading cs || (fence? columns cs).isSome))

/-- The text after a paragraph, from a line of it on. -/
def afterParagraph : List Char → List Char
  | [] => []
  | c :: cs =>
    let next := afterLine (c :: cs)
    have : (afterLine (c :: cs)).length ≤ cs.length := length_afterLine_le (c :: cs)
    let (columns, inner) := indentation 0 next
    match underline? columns inner with
    | some rest => rest
    | none => if interrupts columns inner then next else afterParagraph next
termination_by cs => cs.length

/-- The text after indented code, given the text after the last line of code known so far and the
rest of the lines. Blank lines belong to the code if more code follows. -/
def afterIndented (known : List Char) : List Char → List Char
  | [] => known
  | c :: cs =>
    let next := (takeLine (c :: cs)).2
    have : (takeLine (c :: cs)).2.length ≤ cs.length := length_takeLine_le (c :: cs)
    let (columns, inner) := indentation 0 (c :: cs)
    if columns < 4 && !inner.head?.all isLineBreak then known
    else afterIndented (if (blankLine? (c :: cs)).isSome then known else next) next
termination_by cs => cs.length

/-- Reads a paragraph, a heading, a blank line, or code: the block of code, if it is a fenced one,
and the text after what is read. -/
def readBlock (cs : List Char) : Option CodeBlock × List Char :=
  match blankLine? cs with
  | some rest => (none, rest)
  | none =>
    let (columns, inner) := indentation 0 cs
    if 4 ≤ columns then
      let next := (takeLine cs).2
      (none, afterIndented next next)
    else if isThematicBreak inner || isHeading inner then (none, afterLine inner)
    else
      match fence? columns inner with
      | none => (none, afterParagraph inner)
      | some (f, rest) =>
        let (text, rest) := f.content rest
        (some ⟨f.language, String.ofList text⟩, rest)

namespace Fence

theorem length_closing?_le {f : Fence} {cs rest : List Char} (h : f.closing? cs = some rest) :
    rest.length ≤ cs.length := by
  have h₁ := length_dropWhile_le (· == ' ') cs
  have h₂ := length_dropWhile_le (· == f.mark) (cs.dropWhile (· == ' '))
  have h₃ := length_dropWhile_le (· == ' ') ((cs.dropWhile (· == ' ')).dropWhile (· == f.mark))
  simp only [closing?] at h
  split at h
  · contradiction
  split at h
  · simp_all
  split at h
  · contradiction
  · have := length_lineEnd?_le h
    omega

theorem length_content_le (f : Fence) (cs : List Char) : (f.content cs).2.length ≤ cs.length := by
  fun_induction content f cs with
  | case1 => simp
  | case2 c cs rest h => exact length_closing?_le h
  | case3 c cs _ next hn text rest hc ih =>
    rw [hc] at ih
    exact Nat.le_succ_of_le (Nat.le_trans ih hn)

end Fence

theorem length_fence?_le {indent : Nat} {cs rest : List Char} {f : Fence}
    (h : fence? indent cs = some (f, rest)) : rest.length ≤ cs.length - 1 := by
  cases cs with
  | nil => simp [fence?] at h
  | cons mark cs =>
    simp only [fence?, List.dropWhile_cons_of_pos, beq_self_eq_true] at h
    have h₁ := length_takeLine_le (cs.dropWhile (· == mark))
    have h₂ := length_dropWhile_le (· == mark) cs
    split at h
    · simp only [Option.some.injEq, Prod.mk.injEq] at h
      rw [h.2] at h₁
      simp only [List.length_cons]
      omega
    · contradiction

theorem length_underline?_le {columns : Nat} {cs rest : List Char}
    (h : underline? columns cs = some rest) : rest.length ≤ cs.length := by
  cases cs with
  | nil => simp [underline?] at h
  | cons mark cs =>
    rw [underline?] at h
    split at h
    · have h₁ := length_blankLine?_le h
      have h₂ := length_dropWhile_le (· == mark) cs
      simp only [List.length_cons]
      omega
    · contradiction

theorem length_afterParagraph_le (cs : List Char) :
    (afterParagraph cs).length ≤ cs.length - 1 := by
  fun_induction afterParagraph cs with
  | case1 => exact Nat.le_refl _
  | case2 c cs next hn columns inner hi rest hr =>
    have hc := length_indentation_le 0 next
    rw [hi] at hc
    exact Nat.le_trans (length_underline?_le hr) (Nat.le_trans hc hn)
  | case3 c cs next hn => exact hn
  | case4 c cs next hn _ _ _ _ _ ih => exact Nat.le_trans ih (Nat.le_trans (Nat.sub_le ..) hn)

theorem length_afterIndented_le (known cs : List Char) (h : cs.length ≤ known.length) :
    (afterIndented known cs).length ≤ known.length := by
  fun_induction afterIndented known cs with
  | case1 => exact Nat.le_refl _
  | case2 => exact Nat.le_refl _
  | case3 known c cs next hn _ _ _ _ ih =>
    have hk : next.length ≤ known.length := Nat.le_trans hn (Nat.le_of_succ_le h)
    by_cases hb : (blankLine? (c :: cs)).isSome
    · rw [dif_pos hb] at ih
      rw [if_pos hb]
      exact ih hk
    · rw [dif_neg hb] at ih
      rw [if_neg hb]
      exact Nat.le_trans (ih (Nat.le_refl _)) hk

theorem length_readBlock_le (cs : List Char) : (readBlock cs).2.length ≤ cs.length - 1 := by
  have hi := Nat.sub_le_sub_right (length_indentation_le 0 cs) 1
  simp only [readBlock]
  split
  · exact length_blankLine?_le ‹_›
  split
  · exact Nat.le_trans (length_afterIndented_le _ _ (Nat.le_refl _)) (length_takeLine_le cs)
  split
  · exact Nat.le_trans (length_afterLine_le _) hi
  split
  · exact Nat.le_trans (length_afterParagraph_le _) hi
  · exact Nat.le_trans (Nat.le_trans (Fence.length_content_le ..) (length_fence?_le ‹_›)) hi

/-- The fenced code blocks at the lines of a text. -/
def blocksOf : List Char → List CodeBlock
  | [] => []
  | c :: cs =>
    let read := readBlock (c :: cs)
    have : (readBlock (c :: cs)).2.length ≤ cs.length := length_readBlock_le (c :: cs)
    read.1.toList ++ blocksOf read.2
termination_by cs => cs.length

/-- The fenced code blocks of a text. The last one may lack its closing fence. -/
def codeBlocks (text : String) : List CodeBlock :=
  blocksOf text.toList

end Markdown

end Worksheet
