import Worksheet.Chars.Digits
import Worksheet.Decimal.Reader
import Worksheet.Json.Basic

namespace Worksheet.Json

def isSpace (c : Char) : Bool :=
  c == ' ' || c == '\n' || c == '\r' || c == '\t'

def skipSpace (cs : List Char) : List Char :=
  cs.dropWhile isSpace

/-- The character that an escape of one letter stands for. -/
def escaped? : Char → Option Nat
  | '"' => some 34
  | '\\' => some 92
  | '/' => some 47
  | 'b' => some 8
  | 'f' => some 12
  | 'n' => some 10
  | 'r' => some 13
  | 't' => some 9
  | _ => none

/-- The code points and UTF-16 units of a string up to its closing quote, and the text after
that. -/
def stringUnits : List Char → Option (List Nat × List Char)
  | [] => none
  | '"' :: rest => some ([], rest)
  | '\\' :: 'u' :: a :: b :: c :: d :: rest => do
    let unit ← Chars.number? 16 [a, b, c, d]
    let (units, rest) ← stringUnits rest
    return (unit :: units, rest)
  | '\\' :: c :: rest => do
    let code ← escaped? c
    let (units, rest) ← stringUnits rest
    return (code :: units, rest)
  | c :: rest =>
    if c.toNat < 32 then none
    else (stringUnits rest).map fun (units, rest) => (c.toNat :: units, rest)

/-- Puts pairs of surrogate units together. Surrogates by themselves are refused. -/
def ofUnits : List Nat → Option (List Char)
  | [] => some []
  | unit :: rest =>
    if 0xD800 ≤ unit ∧ unit < 0xDC00 then
      match rest with
      | low :: rest =>
        if 0xDC00 ≤ low ∧ low < 0xE000 then
          (ofUnits rest).map
            (Char.ofNat (0x10000 + (unit - 0xD800) * 0x400 + (low - 0xDC00)) :: ·)
        else none
      | [] => none
    else if 0xDC00 ≤ unit ∧ unit < 0xE000 then none
    else (ofUnits rest).map (Char.ofNat unit :: ·)

/-- The rest of a string after its opening quote. -/
def stringRest? (cs : List Char) : Option (String × List Char) := do
  let (units, rest) ← stringUnits cs
  return (String.ofList (← ofUnits units), rest)

def isNumberChar (c : Char) : Bool :=
  c.isDigit || c == '-' || c == '+' || c == '.' || c == 'e' || c == 'E'

/-- Whether a text is a number without needless zeros, signs and points. -/
def isNumber (cs : List Char) : Bool :=
  let unsigned := if cs.head? == some '-' then cs.tail else cs
  let whole := unsigned.takeWhile Char.isDigit
  let rest := unsigned.dropWhile Char.isDigit
  let fractionOk := match rest with
    | '.' :: tail => tail.head?.any Char.isDigit
    | _ => true
  !whole.isEmpty && (whole.length == 1 || whole.head? != some '0') && fractionOk

/-- Integers of 64 bits stay integers. All other numbers are floats. -/
def ofNumber? (cs : List Char) : Option Json :=
  if !isNumber cs then none
  else
    let negative := cs.head? == some '-'
    let digits := if negative then cs.tail else cs
    let size := Decimal.ofDigits digits
    if digits.all Char.isDigit && !negative && size < Nat.pow 2 64 then some (.int size)
    else if digits.all Char.isDigit && negative && 0 < size && size ≤ Nat.pow 2 63 then
      some (.int (-size))
    else (Decimal.read? cs).map .float

/-- A value that is neither an array nor an object. -/
def scalarRest? (cs : List Char) : Option (Json × List Char) :=
  match cs with
  | 'n' :: 'u' :: 'l' :: 'l' :: rest => some (.null, rest)
  | 't' :: 'r' :: 'u' :: 'e' :: rest => some (.bool true, rest)
  | 'f' :: 'a' :: 'l' :: 's' :: 'e' :: rest => some (.bool false, rest)
  | '"' :: rest => (stringRest? rest).map fun (s, rest) => (.string s, rest)
  | _ => (ofNumber? (cs.takeWhile isNumberChar)).map (·, cs.dropWhile isNumberChar)

mutual

/-- A value at the start of a text and the text after it. Every step reads at least one character,
so that as many steps as there are characters suffice. -/
def valueRest? : Nat → List Char → Option (Json × List Char)
  | 0, _ => none
  | steps + 1, cs =>
    match skipSpace cs with
    | '[' :: rest =>
      match skipSpace rest with
      | ']' :: rest => some (.array [], rest)
      | rest => (itemsRest? steps rest).map fun (items, rest) => (.array items, rest)
    | '\x7b' :: rest =>
      match skipSpace rest with
      | '\x7d' :: rest => some (.object [], rest)
      | rest => (membersRest? steps rest).map fun (members, rest) => (.object members, rest)
    | rest => scalarRest? rest

/-- The items of an array from the next one on. -/
def itemsRest? : Nat → List Char → Option (List Json × List Char)
  | 0, _ => none
  | steps + 1, cs => do
    let (item, rest) ← valueRest? steps cs
    match skipSpace rest with
    | ']' :: rest => return ([item], rest)
    | ',' :: rest =>
      let (items, rest) ← itemsRest? steps rest
      return (item :: items, rest)
    | _ => none

/-- The members of an object from the next one on. -/
def membersRest? : Nat → List Char → Option (List (String × Json) × List Char)
  | 0, _ => none
  | steps + 1, cs => do
    match skipSpace cs with
    | '"' :: rest =>
      let (key, rest) ← stringRest? rest
      match skipSpace rest with
      | ':' :: rest =>
        let (value, rest) ← valueRest? steps rest
        match skipSpace rest with
        | '\x7d' :: rest => return ([(key, value)], rest)
        | ',' :: rest =>
          let (members, rest) ← membersRest? steps rest
          return ((key, value) :: members, rest)
        | _ => none
      | _ => none
    | _ => none

end

/-- The value that makes up a text. -/
def parse? (s : String) : Option Json := do
  let cs := s.toList
  let (value, rest) ← valueRest? (2 * cs.length + 2) cs
  if (skipSpace rest).isEmpty then some value else none

end Worksheet.Json
