namespace Worksheet.Decimal

/-- An unsigned decimal `digits * 10 ^ exponent`. -/
structure Numeral where
  digits : Nat
  exponent : Int
  deriving DecidableEq, Repr

def ofDigits (cs : List Char) : Nat :=
  cs.foldl (fun n c => 10 * n + (c.toNat - '0'.toNat)) 0

/-- The decimal exponent after the mantissa, nothing standing for zero. -/
def readExponent? : List Char → Option Int
  | [] => some 0
  | c :: cs =>
    if c == 'e' || c == 'E' then
      let (negative, digits) := match cs with
        | '-' :: rest => (true, rest)
        | '+' :: rest => (false, rest)
        | rest => (false, rest)
      if digits.isEmpty || !digits.all Char.isDigit then none
      else some (if negative then -(ofDigits digits : Int) else ofDigits digits)
    else none

/-- Digits with at most one point, at least one digit in all, and an optional exponent. -/
def readNumeral? (cs : List Char) : Option Numeral := do
  let whole := cs.takeWhile Char.isDigit
  let rest := cs.dropWhile Char.isDigit
  let (fraction, rest) := match rest with
    | '.' :: tail => (tail.takeWhile Char.isDigit, tail.dropWhile Char.isDigit)
    | other => ([], other)
  if whole.isEmpty && fraction.isEmpty then none else
  let power ← readExponent? rest
  return ⟨ofDigits (whole ++ fraction), power - fraction.length⟩

/-- The nearest binary64 number. Numerals far outside its range need no arithmetic. -/
def Numeral.toFloat (n : Numeral) : Float :=
  let magnitude := (Nat.toDigits 10 n.digits).length + n.exponent
  if n.digits == 0 || magnitude < -400 then 0.0
  else if 400 < magnitude then 1.0 / 0.0
  else Float.ofScientific n.digits (n.exponent < 0) n.exponent.natAbs

/-- Reads an unsigned number. -/
def readMagnitude? (cs : List Char) : Option Float :=
  let name := String.ofList (cs.map Char.toLower)
  if name == "inf" || name == "infinity" then some (1.0 / 0.0)
  else if name == "nan" then some (0.0 / 0.0)
  else (readNumeral? cs).map Numeral.toFloat

/-- Reads a number that makes up the whole text. -/
def read? (cs : List Char) : Option Float :=
  match cs with
  | '-' :: rest => (readMagnitude? rest).map (fun x => -x)
  | '+' :: rest => readMagnitude? rest
  | _ => readMagnitude? cs

/-- An integer or decimal literal, optionally negative: digits, then at most a point and digits. -/
def isLiteral (cs : List Char) : Bool :=
  let unsigned := match cs with
    | '-' :: rest => rest
    | _ => cs
  let whole := unsigned.takeWhile Char.isDigit
  !whole.isEmpty &&
    match unsigned.dropWhile Char.isDigit with
    | [] => true
    | '.' :: fraction => !fraction.isEmpty && fraction.all Char.isDigit
    | _ => false

end Worksheet.Decimal
