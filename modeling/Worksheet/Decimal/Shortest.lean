namespace Worksheet.Decimal

/-- The number `mantissa * 2 ^ exponent`. With `narrowBelow`, the gap to the next smaller number is
half the gap to the next larger one. -/
structure Binary where
  mantissa : Nat
  exponent : Int
  narrowBelow : Bool
  deriving DecidableEq, Repr

/-- The magnitude of a finite number, from its bits. -/
def Binary.ofBits (bits : UInt64) : Binary :=
  let biased := (bits >>> 52).toNat % 2048
  let fraction := bits.toNat % Nat.pow 2 52
  if biased == 0 then ⟨fraction, -1074, false⟩
  else ⟨Nat.pow 2 52 + fraction, (biased : Int) - 1075, fraction == 0 && 1 < biased⟩

/-- The number `digits * 10 ^ exponent`. -/
structure Digits where
  digits : Nat
  exponent : Int
  deriving DecidableEq, Repr

/-- Which of two equally near decimals is taken. -/
inductive Tie where
  | up
  | toEven
  deriving DecidableEq

/-- Four of the unit `2 ^ (exponent - 2)` are one unit of the mantissa. The result is the size of
that quarter unit in steps of `10 ^ grid`, as a fraction. -/
def Binary.quarter (x : Binary) (grid : Int) : Nat × Nat :=
  (Nat.pow 2 (x.exponent - 2).toNat * Nat.pow 10 (-grid).toNat,
    Nat.pow 2 (2 - x.exponent).toNat * Nat.pow 10 grid.toNat)

/-- Whether `count` steps of `10 ^ grid` lie among the reals that round to the number. The ends of
that interval belong to it when the mantissa is even. -/
def Binary.readsBack (x : Binary) (grid : Int) (count : Nat) : Bool :=
  let (num, den) := x.quarter grid
  let low := (if x.narrowBelow then 4 * x.mantissa - 1 else 4 * x.mantissa - 2) * num
  let high := (4 * x.mantissa + 2) * num
  let here := count * den
  if x.mantissa % 2 == 0 then low ≤ here && here ≤ high else low < here && here < high

/-- The nearer of the two neighbours of the number on a grid, among those that read back. -/
def Binary.onGrid? (tie : Tie) (x : Binary) (grid : Int) : Option Nat :=
  let (num, den) := x.quarter grid
  let value := 4 * x.mantissa * num
  let below := value / den
  match x.readsBack grid below, x.readsBack grid (below + 1) with
  | false, false => none
  | true, false => some below
  | false, true => some (below + 1)
  | true, true =>
    match compare (2 * value) ((2 * below + 1) * den), tie with
    | .lt, _ => some below
    | .gt, _ => some (below + 1)
    | .eq, .up => some (below + 1)
    | .eq, .toEven => some (if below % 2 == 0 then below else below + 1)

/-- Moves the final zeros of the digits into the exponent. -/
def Digits.strip (d : Digits) : Digits :=
  if h : d.digits ≠ 0 ∧ d.digits % 10 = 0 then
    have : d.digits / 10 < d.digits := Nat.div_lt_self (by omega) (by omega)
    strip ⟨d.digits / 10, d.exponent + 1⟩
  else d
termination_by d.digits

/-- The least power of ten above the number. Every positive number is above `10 ^ (-400)`. -/
def Binary.scale (x : Binary) : Int :=
  let (num, den) := x.quarter (-400)
  ((Nat.toDigits 10 (4 * x.mantissa * num / den)).length : Int) - 400

/-- The number itself, in steps of a power of ten that divides its unit. -/
def Binary.exact (x : Binary) : Digits :=
  ⟨x.mantissa * Nat.pow 2 x.exponent.toNat * Nat.pow 5 (-x.exponent).toNat, min x.exponent 0⟩

/-- The fewest digits that read back, and of those the nearest to the number. -/
def Binary.shortest (tie : Tie) (x : Binary) : Digits :=
  if x.mantissa == 0 then ⟨0, 0⟩
  else
    let top := x.scale
    let found := (List.range 17).findSome? fun (n : Nat) =>
      let grid := top - (n + 1 : Nat)
      (x.onGrid? tie grid).map fun count => (⟨count, grid⟩ : Digits)
    (found.getD x.exact).strip

end Worksheet.Decimal
