import Worksheet.Decimal.Shortest

namespace Worksheet.Decimal

/-- The digits of a number without its sign, and the number of digits before the decimal point. The
count is negative or zero for a number below a tenth. -/
def digitsOf (tie : Tie) (x : Float) : List Char × Int :=
  let d := (Binary.ofBits x.toBits).shortest tie
  let text := Nat.toDigits 10 d.digits
  (text, text.length + d.exponent)

def isNegative (x : Float) : Bool :=
  (x.toBits >>> 63) == 1

def zeros (n : Nat) : List Char :=
  List.replicate n '0'

/-- Positional text of the digits with the point after the first `point` of them. -/
def positional (digits : List Char) (point : Int) : List Char :=
  if point ≤ 0 then ['0', '.'] ++ zeros (-point).toNat ++ digits
  else if digits.length ≤ point.toNat then digits ++ zeros (point.toNat - digits.length)
  else digits.take point.toNat ++ ['.'] ++ digits.drop point.toNat

/-- The shortest text that reads back, never with an exponent and without a fraction of zero. Half a
unit of the last place counts as above. -/
def plain (x : Float) : String :=
  if x.isNaN then "NaN"
  else
    let sign := if isNegative x then "-" else ""
    if x.isInf then sign ++ "inf"
    else if x == 0 then sign ++ "0"
    else
      let (digits, point) := digitsOf .up x
      sign ++ String.ofList (positional digits point)

/-- The text of a number in scripts and messages, where zero has no sign. -/
def numberText (x : Float) : String :=
  if x == 0 then "0" else plain x

/-- A power of ten after the letter that marks it, always with its sign. -/
def power (n : Int) : List Char :=
  'e' :: (if n < 0 then '-' else '+') :: Nat.toDigits 10 n.natAbs

/-- The text of a finite number in JSON. It always has a fraction or an exponent. The exponent
stands from seventeen places before the point and from the sixth zero after it, and a tie goes to
the even digit. -/
def jsonText (x : Float) : String :=
  let sign := if isNegative x then "-" else ""
  if x == 0 then sign ++ "0.0"
  else
    let (digits, point) := digitsOf .toEven x
    let body :=
      if -5 < point ∧ point ≤ 16 then
        positional digits point ++ (if digits.length ≤ point then ['.', '0'] else [])
      else
        match digits with
        | [] => []
        | [d] => d :: power (point - 1)
        | d :: rest => [d, '.'] ++ rest ++ power (point - 1)
    sign ++ String.ofList body

end Worksheet.Decimal
