import Worksheet.Text

namespace Worksheet

/-- What is known after a part of the text. A double quote always opens a string, a single quote
only where a value starts, so that apostrophes inside words stay plain. -/
structure Scanner where
  /-- The quote that ends the string being read. -/
  quote : Option Char := none
  /-- Whether the next character of the string follows a backslash. -/
  escaped : Bool := false
  /-- Whether a value may start here. -/
  atValue : Bool := true
  /-- Opened less closed brackets. -/
  depth : Int := 0
  deriving DecidableEq, Repr

/-- What a character is at its place. -/
inductive Role where
  | quoted
  | opening
  | closing
  | plain
  deriving DecidableEq, Repr

def isOpening (c : Char) : Bool :=
  c == '(' || c == '[' || c == '\x7b'

def isClosing (c : Char) : Bool :=
  c == ')' || c == ']' || c == '\x7d'

/-- After these characters a value starts. -/
def startsValue (c : Char) : Bool :=
  isOpening c || c == ',' || c == '=' || c == ':'

namespace Scanner

/-- Reads a character within a string, which may end it. -/
def inside (s : Scanner) (quote c : Char) : Scanner :=
  if s.escaped then { s with escaped := false }
  else if c == '\\' then { s with escaped := true }
  else if c == quote then { s with quote := none }
  else s

/-- Reads one character. -/
def step (s : Scanner) (c : Char) : Role × Scanner :=
  match s.quote with
  | some quote => (.quoted, s.inside quote c)
  | none =>
    if c == '"' || (c == '\'' && s.atValue) then
      (.quoted, { s with quote := some c, atValue := false })
    else
      let atValue := if Chars.isBlank c then s.atValue else startsValue c
      if isOpening c then (.opening, { s with atValue, depth := s.depth + 1 })
      else if isClosing c then (.closing, { s with atValue, depth := s.depth - 1 })
      else (.plain, { s with atValue })

/-- Whether the character is a plain one outside all brackets. -/
def atTop (s : Scanner) (c : Char) : Bool :=
  (s.step c).1 == .plain && s.depth ≤ 0

/-- The pieces of a text between the separators outside all brackets. -/
def cut (sep : Char) (s : Scanner) : List Char → List (List Char)
  | [] => [[]]
  | c :: cs =>
    if c == sep && s.atTop c then [] :: cut sep (s.step c).2 cs
    else match cut sep (s.step c).2 cs with
      | [] => [[c]]
      | piece :: pieces => (c :: piece) :: pieces

/-- The texts before and from the first character outside all brackets that is one of `needles`. -/
def find? (needles : List Char) (s : Scanner) : List Char → Option (List Char × List Char)
  | [] => none
  | c :: cs =>
    if needles.contains c && s.atTop c then some ([], c :: cs)
    else (find? needles (s.step c).2 cs).map fun (before, rest) => (c :: before, rest)

/-- The texts before and after the parenthesis that closes what is open. There is none if another
bracket stands in its place. -/
def close? (s : Scanner) : List Char → Option (List Char × List Char)
  | [] => none
  | c :: cs =>
    let (role, next) := s.step c
    if role == .closing && next.depth == 0 then
      if c == ')' then some ([], cs) else none
    else (close? next cs).map fun (inside, rest) => (c :: inside, rest)

theorem cut_ne_nil (sep : Char) (s : Scanner) (cs : List Char) : s.cut sep cs ≠ [] := by
  cases cs with
  | nil => simp [cut]
  | cons c cs => rw [cut]; split <;> try split
                 all_goals simp

theorem find?_append {needles : List Char} {s : Scanner} {cs before rest : List Char}
    (h : s.find? needles cs = some (before, rest)) : before ++ rest = cs := by
  induction cs generalizing s before with
  | nil => simp [find?] at h
  | cons c cs ih =>
    rw [find?] at h
    split at h
    · simp only [Option.some.injEq, Prod.mk.injEq] at h
      simp [← h.1, ← h.2]
    · obtain ⟨⟨b, r⟩, hb, he⟩ := Option.map_eq_some_iff.1 h
      simp only [Prod.mk.injEq] at he
      obtain ⟨rfl, rfl⟩ := he
      simp [ih hb]

theorem close?_append {s : Scanner} {cs inside rest : List Char}
    (h : s.close? cs = some (inside, rest)) : inside ++ ')' :: rest = cs := by
  induction cs generalizing s inside with
  | nil => simp [close?] at h
  | cons c cs ih =>
    simp only [close?] at h
    split at h
    · split at h
      · rename_i hc
        simp only [Option.some.injEq, Prod.mk.injEq] at h
        simp [← h.1, ← h.2, eq_of_beq hc]
      · simp at h
    · obtain ⟨⟨b, r⟩, hb, he⟩ := Option.map_eq_some_iff.1 h
      simp only [Prod.mk.injEq] at he
      obtain ⟨rfl, rfl⟩ := he
      simp [ih hb]

end Scanner

/-- A trimmed piece of a text and where it stands. -/
structure Piece where
  text : List Char
  span : Span
  deriving DecidableEq, Repr

/-- Trims a piece that begins at a byte offset. -/
def Piece.trimmed (start : Nat) (raw : List Char) : Piece :=
  let begin := start + (Chars.size raw - Chars.size (Chars.trimStart raw))
  let text := Chars.trim raw
  ⟨text, ⟨begin, begin + Chars.size text⟩⟩

/-- Trims pieces that stand one after the other with one separator between neighbours. -/
def Piece.located (sep : Char) : Nat → List (List Char) → List Piece
  | _, [] => []
  | start, raw :: rest =>
    Piece.trimmed start raw :: Piece.located sep (start + Chars.size raw + sep.utf8Size) rest

/-- The trimmed pieces of a text between the separators outside strings and brackets. -/
def splitTopLevel (sep : Char) (cs : List Char) : List Piece :=
  Piece.located sep 0 (Scanner.cut sep {} cs)

/-- The texts before and from the first of the needles outside strings and brackets. -/
def findTopLevel? (needles : List Char) (cs : List Char) : Option (List Char × List Char) :=
  Scanner.find? needles {} cs

end Worksheet
