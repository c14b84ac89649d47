import Worksheet.Chars.Digits
import Worksheet.Decimal.Reader
import Worksheet.Json.Reader
import Worksheet.Toml.Table

namespace Worksheet.Toml

/-- A character that may stand in comments and in strings of one line. -/
def isText (c : Char) : Bool :=
  c == '\t' || (32 ≤ c.toNat && c.toNat != 127)

def isSpace (c : Char) : Bool :=
  c == ' ' || c == '\t'

def skipSpace (cs : List Char) : List Char :=
  cs.dropWhile isSpace

/-- The text after a line break at the start of a text. -/
def lineBreak? : List Char → Option (List Char)
  | '\n' :: rest => some rest
  | '\r' :: '\n' :: rest => some rest
  | _ => none

/-- Skips spaces, line breaks and comments, given whether the text begins within a comment. -/
def skipLines (inComment : Bool) : List Char → List Char
  | [] => []
  | '\r' :: '\n' :: rest => skipLines false rest
  | c :: rest =>
    if c == '\n' then skipLines false rest
    else if inComment then if isText c then skipLines true rest else c :: rest
    else if c == '#' then skipLines true rest
    else if isSpace c then skipLines false rest
    else c :: rest

/-- The text after the end of a line, where only a comment may stand before that. -/
def endOfLine? (cs : List Char) : Option (List Char) :=
  let rest := match skipSpace cs with
    | '#' :: comment => comment.dropWhile isText
    | other => other
  if rest.isEmpty then some [] else lineBreak? rest

/-- The character of a code point. -/
def scalar? (digits : List Char) : Option Char := do
  let n ← Chars.number? 16 digits
  if n.isValidChar then some (Char.ofNat n) else none

/-- The character that an escape of one letter stands for. -/
def escaped? : Char → Option Char
  | 'b' => some '\x08'
  | 't' => some '\t'
  | 'n' => some '\n'
  | 'f' => some '\x0c'
  | 'r' => some '\r'
  | '"' => some '"'
  | '\\' => some '\\'
  | _ => none

/-- The rest of a string in double quotes, and the text after it. -/
def basicRest? : List Char → Option (List Char × List Char)
  | [] => none
  | '"' :: rest => some ([], rest)
  | '\\' :: 'u' :: a :: b :: c :: d :: rest => do
    let x ← scalar? [a, b, c, d]
    let (text, rest) ← basicRest? rest
    return (x :: text, rest)
  | '\\' :: 'U' :: a :: b :: c :: d :: e :: f :: g :: h :: rest => do
    let x ← scalar? [a, b, c, d, e, f, g, h]
    let (text, rest) ← basicRest? rest
    return (x :: text, rest)
  | '\\' :: c :: rest => do
    let x ← escaped? c
    let (text, rest) ← basicRest? rest
    return (x :: text, rest)
  | c :: rest =>
    if isText c then (basicRest? rest).map fun (text, rest) => (c :: text, rest) else none

/-- The rest of a string in single quotes, and the text after it. -/
def literalRest? : List Char → Option (List Char × List Char)
  | [] => none
  | c :: rest =>
    if c == '\'' then some ([], rest)
    else if isText c then (literalRest? rest).map fun (text, rest) => (c :: text, rest)
    else none

/-- The end of a string in three quotes at a run of quotes. Up to two quotes before the last three
belong to the string. -/
def closing? (quote : Char) (cs : List Char) : Option (List Char × List Char) :=
  let quotes := min 5 (cs.takeWhile (· == quote)).length
  if 3 ≤ quotes then some (List.replicate (quotes - 3) quote, cs.drop quotes) else none

/-- The rest of a string in three double quotes, and the text after it. White space is skipped after
a backslash at the end of a line. -/
def longBasicRest? (skipping : Bool) : List Char → Option (List Char × List Char)
  | [] => none
  | '\r' :: '\n' :: rest =>
    (longBasicRest? skipping rest).map fun (text, rest) =>
      (if skipping then text else '\n' :: text, rest)
  | '\\' :: 'u' :: a :: b :: c :: d :: rest => do
    let x ← scalar? [a, b, c, d]
    let (text, rest) ← longBasicRest? false rest
    return (x :: text, rest)
  | '\\' :: 'U' :: a :: b :: c :: d :: e :: f :: g :: h :: rest => do
    let x ← scalar? [a, b, c, d, e, f, g, h]
    let (text, rest) ← longBasicRest? false rest
    return (x :: text, rest)
  | '\\' :: c :: rest =>
    if (lineBreak? (skipSpace (c :: rest))).isSome then longBasicRest? true (c :: rest)
    else do
      let x ← escaped? c
      let (text, rest) ← longBasicRest? false rest
      return (x :: text, rest)
  | c :: rest =>
    if skipping && (isSpace c || c == '\n') then longBasicRest? true rest
    else
      match closing? '"' (c :: rest) with
      | some found => some found
      | none =>
        if isText c || c == '\n' then
          (longBasicRest? false rest).map fun (text, rest) => (c :: text, rest)
        else none

/-- The rest of a string in three single quotes, and the text after it. -/
def longLiteralRest? : List Char → Option (List Char × List Char)
  | [] => none
  | '\r' :: '\n' :: rest => (longLiteralRest? rest).map fun (text, rest) => ('\n' :: text, rest)
  | c :: rest =>
    match closing? '\'' (c :: rest) with
    | some found => some found
    | none =>
      if isText c || c == '\n' then
        (longLiteralRest? rest).map fun (text, rest) => (c :: text, rest)
      else none

/-- The string at the start of a text, and the text after it. A line break right after three opening
quotes is dropped. -/
def stringRest? (cs : List Char) : Option (List Char × List Char) :=
  match cs with
  | '"' :: '"' :: '"' :: rest => longBasicRest? false ((lineBreak? rest).getD rest)
  | '\'' :: '\'' :: '\'' :: rest => longLiteralRest? ((lineBreak? rest).getD rest)
  | '"' :: rest => basicRest? rest
  | '\'' :: rest => literalRest? rest
  | _ => none

def isKeyChar (c : Char) : Bool :=
  c.isAlphanum || c == '_' || c == '-'

/-- The part of a key at the start of a text, bare or quoted, and the text after it. -/
def keyPart? (cs : List Char) : Option (String × List Char) :=
  match cs with
  | '"' :: rest => (basicRest? rest).map fun (key, rest) => (String.ofList key, rest)
  | '\'' :: rest => (literalRest? rest).map fun (key, rest) => (String.ofList key, rest)
  | _ =>
    let key := cs.takeWhile isKeyChar
    if key.isEmpty then none else some (String.ofList key, cs.dropWhile isKeyChar)

/-- The parts of a dotted key of no more than the given number of parts at the start of a text, the
last one apart, and the text after the key and the spaces that follow it. -/
def keyPartsRest? : Nat → List Char → Option (List String × String × List Char)
  | 0, _ => none
  | count + 1, cs => do
    let (part, rest) ← keyPart? (skipSpace cs)
    match skipSpace rest with
    | '.' :: rest =>
      let (path, key, rest) ← keyPartsRest? count rest
      return (part :: path, key, rest)
    | rest => return ([], part, rest)

/-- How many tables or arrays may stand within each other in a value, and how many parts a dotted
key may have. -/
def depthLimit : Nat := 79

/-- A dotted key at the start of a text. -/
def dottedKey? (cs : List Char) : Option (List String × String × List Char) :=
  keyPartsRest? depthLimit cs

/-- Digits with single underscores between them. -/
def digits? (isDigit : Char → Bool) (cs : List Char) : Option (List Char) :=
  let groups := Chars.splitOn '_' cs
  if groups.all fun g => !g.isEmpty && g.all isDigit then some groups.flatten else none

/-- Digits that do not begin with a needless zero. -/
def whole? (cs : List Char) : Option (List Char) := do
  let digits ← digits? Char.isDigit cs
  if 1 < digits.length && digits.head? == some '0' then none else some digits

/-- A number of the given sign, if it has 64 bits. -/
def integer? (negative : Bool) (size : Nat) : Option Json :=
  if negative then if size ≤ Nat.pow 2 63 then some (.int (-size)) else none
  else if size < Nat.pow 2 63 then some (.int size) else none

/-- A number with a fraction, an exponent or both, without its sign. -/
def float? (cs : List Char) : Option (List Char) := do
  let isMark (c : Char) : Bool := c == 'e' || c == 'E'
  let mantissa := cs.takeWhile (!isMark ·)
  let power := cs.dropWhile (!isMark ·)
  let number ← match Chars.splitOnce '.' mantissa with
    | none => if power.isEmpty then none else whole? mantissa
    | some (whole, fraction) =>
      pure ((← whole? whole) ++ '.' :: (← digits? Char.isDigit fraction))
  match power with
  | [] => return number
  | _ :: '-' :: rest => return number ++ 'e' :: '-' :: (← digits? Char.isDigit rest)
  | _ :: '+' :: rest => return number ++ 'e' :: (← digits? Char.isDigit rest)
  | _ :: rest => return number ++ 'e' :: (← digits? Char.isDigit rest)

/-- A number without its sign. Positive numbers beyond the greatest float are refused. -/
def unsigned? (negative : Bool) (cs : List Char) : Option Json :=
  if cs == "inf".toList || cs == "nan".toList then
    (Decimal.read? (if negative then '-' :: cs else cs)).map .float
  else
    match whole? cs with
    | some digits => integer? negative (Decimal.ofDigits digits)
    | none => do
      let text ← float? cs
      let x ← Decimal.read? (if negative then '-' :: text else text)
      if x.isInf && !negative then none else some (.float x)

/-- A number with the given base. -/
def basedNumber? (base : Nat) (cs : List Char) : Option Json := do
  let digits ← digits? (fun c => (Chars.digitValue? c).isSome) cs
  integer? false (← Chars.number? base digits)

/-- The number between two bounds in exactly so many digits at the start of a text, and the text
after it. -/
def fixedRest? (count least greatest : Nat) (cs : List Char) : Option (Nat × List Char) :=
  let digits := cs.take count
  let n := Decimal.ofDigits digits
  if digits.length == count && digits.all Char.isDigit && least ≤ n && n ≤ greatest then
    some (n, cs.drop count)
  else none

def daysIn (year month : Nat) : Nat :=
  if month == 2 then
    if year % 4 == 0 && (year % 100 != 0 || year % 400 == 0) then 29 else 28
  else if [4, 6, 9, 11].contains month then 30
  else 31

/-- The text after a date such as `1979-05-27`. -/
def afterDate? (cs : List Char) : Option (List Char) := do
  let (year, rest) ← fixedRest? 4 0 9999 cs
  let (month, rest) ← fixedRest? 2 1 12 (← Chars.stripStart? ['-'] rest)
  let (_, rest) ← fixedRest? 2 1 (daysIn year month) (← Chars.stripStart? ['-'] rest)
  return rest

/-- The text after hours and minutes such as `07:32`. -/
def afterMinutes? (cs : List Char) : Option (List Char) := do
  let (_, rest) ← fixedRest? 2 0 23 cs
  let (_, rest) ← fixedRest? 2 0 59 (← Chars.stripStart? [':'] rest)
  return rest

/-- The text after a time of day such as `07:32:00` or `07:32:00.5`. -/
def afterTime? (cs : List Char) : Option (List Char) := do
  let rest ← afterMinutes? cs
  let (_, rest) ← fixedRest? 2 0 60 (← Chars.stripStart? [':'] rest)
  match rest with
  | '.' :: rest =>
    if (rest.takeWhile Char.isDigit).isEmpty then none else some (rest.dropWhile Char.isDigit)
  | rest => some rest

/-- Whether a text tells how far a time of day is from the universal one. -/
def isOffset : List Char → Bool
  | '+' :: rest => afterMinutes? rest == some []
  | '-' :: rest => afterMinutes? rest == some []
  | [c] => c == 'Z' || c == 'z'
  | _ => false

/-- Whether a text is a time of day that may have an offset behind it. -/
def isZonedTime (cs : List Char) : Bool :=
  match afterTime? cs with
  | none => false
  | some rest => rest.isEmpty || isOffset rest

/-- Whether a text is a date, a time of day, or both with a letter between them. -/
def isMoment (cs : List Char) : Bool :=
  match afterDate? cs with
  | some [] => true
  | some (c :: time) => (c == 'T' || c == 't') && isZonedTime time
  | none => afterTime? cs == some []

/-- Dates and times are read as tables without entries, because nothing asks what they are. -/
def moment : Json :=
  .object []

/-- A truth value, a number, a date or a time that makes up a text. -/
def bare? (cs : List Char) : Option Json :=
  match cs with
  | '0' :: 'x' :: rest => basedNumber? 16 rest
  | '0' :: 'o' :: rest => basedNumber? 8 rest
  | '0' :: 'b' :: rest => basedNumber? 2 rest
  | '-' :: rest => unsigned? true rest
  | '+' :: rest => unsigned? false rest
  | _ =>
    if cs == "true".toList then some (.bool true)
    else if cs == "false".toList then some (.bool false)
    else if isMoment cs then some moment
    else unsigned? false cs

def isBareChar (c : Char) : Bool :=
  isKeyChar c || c == '+' || c == '.' || c == ':'

/-- A value without quotes and brackets at the start of a text, and the text after it. A single
space may stand between a date and a time. -/
def bareRest? (cs : List Char) : Option (Json × List Char) :=
  let word := cs.takeWhile isBareChar
  match afterDate? word == some [], cs.dropWhile isBareChar with
  | true, ' ' :: after =>
    let time := after.takeWhile isBareChar
    if time.isEmpty then some (moment, ' ' :: after)
    else if isZonedTime time then some (moment, after.dropWhile isBareChar)
    else none
  | _, rest => (bare? word).map (·, rest)

mutual

/-- A value at the start of a text and the text after it, in which no more than the given number of
arrays and tables stand within each other. Every step reads at least one character, so that as many
steps as there are characters suffice. -/
def valueRest? (room : Nat) : Nat → List Char → Option (Json × List Char)
  | 0, _ => none
  | steps + 1, cs =>
    match cs with
    | '[' :: rest =>
      if room == 0 then none
      else (itemsRest? (room - 1) steps rest).map fun (items, rest) => (.array items, rest)
    | '\x7b' :: rest =>
      if room == 0 then none
      else
        match skipSpace rest with
        | '\x7d' :: rest => some (.object [], rest)
        | rest => (entriesRest? (room - 1) steps [] rest).map fun (t, rest) => (t.toJson, rest)
    | '"' :: _ => (stringRest? cs).map fun (s, rest) => (.string (String.ofList s), rest)
    | '\'' :: _ => (stringRest? cs).map fun (s, rest) => (.string (String.ofList s), rest)
    | _ => bareRest? cs

/-- The items of an array from the next one on. A comma may follow the last one. -/
def itemsRest? (room : Nat) : Nat → List Char → Option (List Json × List Char)
  | 0, _ => none
  | steps + 1, cs =>
    match skipLines false cs with
    | ']' :: rest => some ([], rest)
    | cs => do
      let (item, rest) ← valueRest? room steps cs
      match skipLines false rest with
      | ']' :: rest => return ([item], rest)
      | ',' :: rest =>
        let (items, rest) ← itemsRest? room steps rest
        return (item :: items, rest)
      | _ => none

/-- The entries of an inline table from the next one on, with those before it. -/
def entriesRest? (room : Nat) : Nat → Table → List Char → Option (Table × List Char)
  | 0, _, _ => none
  | steps + 1, t, cs => do
    let (path, key, rest) ← dottedKey? cs
    match rest with
    | '=' :: rest =>
      let (value, rest) ← valueRest? room steps (skipSpace rest)
      let t ← t.assign? path key value
      match skipSpace rest with
      | '\x7d' :: rest => return (t, rest)
      | ',' :: rest => entriesRest? room steps t rest
      | _ => none
    | _ => none

end

/-- A document read so far, and the header under which it goes on. -/
structure Draft where
  root : Table := []
  path : List String := []

namespace Draft

/-- Reads a header of a table, or of an item of an array of tables, after its brackets. -/
def header? (d : Draft) (isItem : Bool) (cs : List Char) : Option (Draft × List Char) := do
  let (path, key, rest) ← dottedKey? cs
  let root ← d.root.within? path (if isItem then Table.openItem? key else Table.openTable? key)
  let next : Draft := ⟨root, path ++ [key]⟩
  match isItem, rest with
  | false, ']' :: rest => return (next, rest)
  | true, ']' :: ']' :: rest => return (next, rest)
  | _, _ => none

/-- Reads a key and its value. -/
def entry? (d : Draft) (cs : List Char) : Option (Draft × List Char) := do
  let (path, key, rest) ← dottedKey? cs
  match rest with
  | '=' :: rest =>
    let (value, rest) ← valueRest? depthLimit (2 * cs.length + 2) (skipSpace rest)
    return ({ d with root := ← d.root.within? d.path (Table.assign? path key value) }, rest)
  | _ => none

/-- Reads a line with a header or a key. -/
def statement? (d : Draft) (cs : List Char) : Option (Draft × List Char) :=
  match cs with
  | '[' :: '[' :: rest => d.header? true rest
  | '[' :: rest => d.header? false rest
  | _ => d.entry? cs

/-- Reads the rest of a document, which has no more lines than the given number. -/
def finish? (d : Draft) : Nat → List Char → Option Draft
  | 0, _ => none
  | lines + 1, cs =>
    match skipLines false cs with
    | [] => some d
    | cs => do
      let (d, rest) ← d.statement? cs
      finish? d lines (← endOfLine? rest)

end Draft

/-- The value of a document, which may begin with a byte order mark. -/
def parse? (s : String) : Option Json :=
  let cs := match s.toList with
    | '\uFEFF' :: rest => rest
    | cs => cs
  (({} : Draft).finish? (cs.length + 1) cs).map (·.root.toJson)

end Worksheet.Toml
