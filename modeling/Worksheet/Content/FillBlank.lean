import Worksheet.Content.Error
import Worksheet.Content.Line
import Worksheet.Content.Validation

namespace Worksheet

structure Blank where
  /-- Place of the placeholder in the displayed text, in characters. -/
  position : Nat
  /-- Accepted answers, the canonical one first. -/
  answers : List String
  deriving DecidableEq, Repr

/-- A sentence with blanks, written with the answers between asterisks: `The *cat|kitty* sat.` -/
structure FillSentence where
  /-- Displayed text, with a placeholder for each blank. -/
  text : String
  blanks : List Blank
  deriving DecidableEq, Repr

namespace FillBlank

def tag : String := "fill-blank"

/-- What stands for a blank in the displayed text. -/
def placeholder : List Char := ['_', '_', '_']

def maxSentences : Nat := 50
def maxBlanks : Nat := 10
def maxAnswers : Nat := 10
def maxSentenceLength : Nat := 500
def maxAnswerLength : Nat := 100

/-- Whether the text between two asterisks marks a blank: it is not empty and has no white space at
its ends. -/
def marksBlank (inner : List Char) : Bool :=
  !inner.isEmpty && !inner.head?.any Chars.isBlank && !inner.getLast?.any Chars.isBlank

/-- The answers between two asterisks. -/
def answers (inner : List Char) : List String :=
  (Chars.splitOn '|' inner).map fun a => String.ofList (Chars.trim a)

/-- The blank at the start of a text and the text after it. -/
def blank? : List Char → Option (List Char × List Char)
  | '*' :: rest =>
    match Chars.splitOnce '*' rest with
    | some (inner, after) => if marksBlank inner then some (inner, after) else none
    | none => none
  | _ => none

theorem blank?_append {cs inner after : List Char} (h : blank? cs = some (inner, after)) :
    '*' :: (inner ++ '*' :: after) = cs := by
  rw [blank?.eq_def] at h
  split at h
  · split at h
    · rename_i hs
      split at h
      · simp only [Option.some.injEq, Prod.mk.injEq] at h
        obtain ⟨rfl, rfl⟩ := h
        rw [Chars.splitOnce_append hs]
      · simp at h
    · simp at h
  · simp at h

/-- The displayed text and the blanks of a text of which the display begins at the given place. -/
def display (start : Nat) (cs : List Char) : List Char × List Blank :=
  match cs with
  | [] => ([], [])
  | c :: rest =>
    match h : blank? (c :: rest) with
    | none =>
      let (text, blanks) := display (start + 1) rest
      (c :: text, blanks)
    | some (inner, after) =>
      have : after.length ≤ rest.length := by
        have := congrArg List.length (blank?_append h)
        simp only [List.length_cons, List.length_append] at this
        omega
      let (text, blanks) := display (start + placeholder.length) after
      (placeholder ++ text, ⟨start, answers inner⟩ :: blanks)
termination_by cs.length

/-- Reads a line that has at least one blank. -/
def parseSentence (line : String) : Option FillSentence :=
  let (text, blanks) := display 0 line.toList
  if blanks.isEmpty then none else some ⟨String.ofList text, blanks⟩

/-- Puts the answers in the place of the placeholders in the text that begins at the given place.
Blanks have to be in order and to point at placeholders; otherwise the position at fault is
returned. -/
def fill (start : Nat) (text : List Char) : List Blank → Except Nat (List Char)
  | [] => .ok text
  | b :: bs =>
    if b.position < start then .error b.position
    else
      match Chars.stripStart? placeholder (text.drop (b.position - start)) with
      | none => .error b.position
      | some rest =>
        (fill (b.position + placeholder.length) rest bs).map fun filled =>
          text.take (b.position - start) ++ '*' :: Chars.join ['|'] (b.answers.map String.toList) ++
            '*' :: filled

/-- Writes a sentence as a line. -/
def renderSentence (s : FillSentence) : Except ContentError String :=
  match fill 0 s.text.toList s.blanks with
  | .ok line => .ok (String.ofList line)
  | .error position => .error (.line 0 (.misplacedBlank position s.text))

def detect (lines : List ContentLine) : Bool :=
  (ContentLine.withText lines).any fun l => (parseSentence l.text).isSome

def sentenceLine (l : ContentLine) : Except ContentError FillSentence :=
  match parseSentence l.text with
  | some s => .ok s
  | none => .error (.line l.line (.noBlank l.text))

def parse (lines : List ContentLine) : Except ContentError (List FillSentence) := do
  let sentences ← (ContentLine.withText lines).mapM sentenceLine
  if sentences.isEmpty then .error (.noContent tag) else return sentences

def validateBlank (label : String) (length : Nat) (b : Blank) : Validation :=
  .require (b.position ≤ length) s!"{label} is positioned outside the sentence" ++
    .count label b.answers.length 1 maxAnswers ++
    .all (b.answers.map fun a => .text s!"{label} answer" a maxAnswerLength)

def validateSentence (number : Nat) (s : FillSentence) : Validation :=
  let label := s!"sentence {number}"
  .text label s.text maxSentenceLength ++ .count label s.blanks.length 1 maxBlanks ++
    .each s.blanks fun i b => validateBlank s!"{label}, blank {i}" s.text.length b

def validate (sentences : List FillSentence) : Validation :=
  .count "fill-blank exercise" sentences.length 1 maxSentences ++
    .each sentences validateSentence

def serialize (sentences : List FillSentence) : Except ContentError (List String) :=
  sentences.mapM renderSentence

end FillBlank

end Worksheet
