/-!
The shortest decimal that reads back as a given binary number. The number is the middle of the
interval of values that round to it, and the coarsest decimal grid with a point in that interval
gives the digits.
-/

namespace StyleBlock.Number

/-- A positive binary number `mantissa * 2 ^ exponent`. When `lowest` holds, the mantissa is the
least one of its exponent, so the number below is only half as far away. -/
structure Binary where
  mantissa : Nat
  exponent : Int
  lowest : Bool
deriving DecidableEq

/-- The decimal `digits * 10 ^ exponent`. -/
structure Decimal where
  digits : Nat
  exponent : Int
deriving DecidableEq

namespace Binary

/-- Four times a multiple of the number's unit, measured on the grid `10 ^ scale`: the value is
`quarters * top / bottom` grid steps. -/
def gridRatio (number : Binary) (scale : Int) : Nat × Nat :=
  let shift := number.exponent - 2
  (Nat.pow 2 shift.toNat * Nat.pow 10 (-scale).toNat,
    Nat.pow 2 (-shift).toNat * Nat.pow 10 scale.toNat)

/-- The point of the grid `10 ^ scale` that rounds to the number, the nearer one of two; of two that
are equally near, the greater one. -/
def pointOn? (number : Binary) (scale : Int) : Option Nat :=
  let (top, bottom) := number.gridRatio scale
  let middle := 4 * number.mantissa * top
  let low := (4 * number.mantissa - (if number.lowest then 1 else 2)) * top
  let high := (4 * number.mantissa + 2) * top
  let inside (point : Nat) : Bool :=
    if number.mantissa % 2 = 0 then low ≤ point * bottom && point * bottom ≤ high
    else low < point * bottom && point * bottom < high
  let below := middle / bottom
  let above := below + 1
  if below != 0 && inside below then
    if inside above && above * bottom - middle ≤ middle - below * bottom then some above
    else some below
  else if inside above then some above
  else none

/-- The first hit on the grids `10 ^ scale`, `10 ^ (scale - 1)`, and so on. -/
def shortestFrom (number : Binary) (scale : Int) : Nat → Option Decimal
  | 0 => none
  | grids + 1 =>
    match number.pointOn? scale with
    | some digits => some ⟨digits, scale⟩
    | none => shortestFrom number (scale - 1) grids

end Binary

/-- What a single-precision number is. -/
inductive Single where
  | notANumber
  | infinite (negative : Bool)
  | zero (negative : Bool)
  | finite (negative : Bool) (number : Binary)
deriving DecidableEq

/-- The number that 32 bits stand for. -/
def Single.ofBits (bits : UInt32) : Single :=
  let negative : Bool := bits.toNat / Nat.pow 2 31 == 1
  let exponent : Nat := bits.toNat / Nat.pow 2 23 % 256
  let fraction : Nat := bits.toNat % Nat.pow 2 23
  if exponent = 255 then if fraction = 0 then .infinite negative else .notANumber
  else if exponent = 0 then
    if fraction = 0 then .zero negative else .finite negative ⟨fraction, -149, false⟩
  else
    .finite negative
      ⟨fraction + Nat.pow 2 23, (exponent : Int) - 150, fraction == 0 && exponent != 1⟩

/-- The shortest decimal that reads back as a single-precision number. -/
def Binary.shortest (number : Binary) : Decimal :=
  (number.shortestFrom 39 100).getD ⟨0, 0⟩

/-- Positional notation, with at least one digit on either side of the point. -/
def Decimal.positional (decimal : Decimal) : String :=
  let digits := Nat.toDigits 10 decimal.digits
  let whole := (digits.length : Int) + decimal.exponent
  String.ofList <|
    if whole ≤ 0 then ['0', '.'] ++ List.replicate (-whole).toNat '0' ++ digits
    else if whole < digits.length then
      digits.take whole.toNat ++ ['.'] ++ digits.drop whole.toNat
    else digits ++ List.replicate (whole.toNat - digits.length) '0' ++ ['.', '0']

/-- Scientific notation: one digit before the point, and no point after a single digit. -/
def Decimal.scientific (decimal : Decimal) : String :=
  let digits := Nat.toDigits 10 decimal.digits
  let power := (digits.length : Int) + decimal.exponent - 1
  let rest := digits.drop 1
  String.ofList (digits.take 1 ++ (if rest.isEmpty then [] else '.' :: rest)) ++ s!"e{power}"

/-- The text of a number: positional from one ten-thousandth up to ten to the sixteenth, and
scientific outside. -/
def Single.shown (number : Single) : String :=
  let sign (negative : Bool) : String := if negative then "-" else ""
  match number with
  | .notANumber => "NaN"
  | .infinite negative => sign negative ++ "inf"
  | .zero negative => sign negative ++ "0.0"
  | .finite negative number =>
    let decimal := number.shortest
    let power := ((Nat.toDigits 10 decimal.digits).length : Int) + decimal.exponent
    sign negative ++
      (if -4 < power && power ≤ 16 then decimal.positional else decimal.scientific)

end StyleBlock.Number
