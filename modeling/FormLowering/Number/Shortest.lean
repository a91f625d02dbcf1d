import FormLowering.Number.Decimal

/-!
The shortest decimal text of a double: the fewest digits that only this double is nearest to, and
of those the nearest, the greater of two that are equally near.
-/

namespace FormLowering

/-- The decimals that round to a finite positive double. The bounds and the number itself are
counted in quarters of the unit; the bounds belong to it when its significand is even. -/
structure RoundingInterval where
  low : Nat
  value : Nat
  high : Nat
  closed : Bool
  deriving DecidableEq, Repr, Inhabited

namespace RoundingInterval

def ofUnits (units : Nat) : RoundingInterval :=
  let step := FloatFormat.double.step units
  let significand := units >>> step
  let below := if significand = 1 <<< 52 ∧ step ≠ 0 then 1 else 2
  ⟨4 * units - below <<< step, 4 * units, 4 * units + 2 <<< step, significand % 2 = 0⟩

/-- A number of quarters, given with a denominator, rounds to the double. -/
def contains (interval : RoundingInterval) (numerator denominator : Nat) : Bool :=
  if interval.closed then
    interval.low * denominator ≤ numerator && numerator ≤ interval.high * denominator
  else interval.low * denominator < numerator && numerator < interval.high * denominator

/-- The least power of ten above the number. -/
def tenPower (interval : RoundingInterval) : Int :=
  let whole := interval.value >>> 1076
  if whole ≠ 0 then decimalLength whole
  else
    let excess : Nat := decimalLength (1 <<< 1076) - decimalLength interval.value
    if interval.value * Nat.pow 10 excess < 1 <<< 1076 then -excess else 1 - excess

/-- The multiple of `10 ^ exponent` nearest to the number among the two around it that round to
it, if there is one. -/
def nearest? (interval : RoundingInterval) (exponent : Int) : Option Nat :=
  let grid := Nat.pow 10 exponent.toNat <<< 1076
  let denominator := Nat.pow 10 (-exponent).toNat
  let scaled := interval.value * denominator
  let below := scaled / grid
  let above := below + 1
  let fromBelow := scaled - below * grid
  let fromAbove := above * grid - scaled
  match interval.contains (below * grid) denominator, interval.contains (above * grid) denominator
  with
  | true, true => some (if fromBelow < fromAbove then below else above)
  | true, false => some below
  | false, true => some above
  | false, false => none

/-- The shortest decimal of the double. Seventeen digits are always enough. -/
def shortest (interval : RoundingInterval) : Decimal :=
  let power := interval.tenPower
  let found := (List.range 17).findSome? fun (length : Nat) =>
    let exponent := power - 1 - length
    (interval.nearest? exponent).map fun digits => (⟨false, digits, exponent⟩ : Decimal)
  found.getD ⟨false, 0, 0⟩

end RoundingInterval

/-- How a double is written: the decimal exponents that are written without an exponent. -/
structure FloatLayout where
  leastPositional : Int
  mostPositional : Int
  deriving DecidableEq, Repr

namespace FloatLayout

/-- The digits with a point among them, at least one digit on each side. -/
def positional (digits : List Char) (exponent : Int) : List Char :=
  if exponent < 0 then
    '0' :: '.' :: List.replicate (-exponent - 1).toNat '0' ++ digits
  else
    let width := exponent.toNat + 1
    let whole := (digits.take width).rightpad width '0'
    let fraction := digits.drop width
    whole ++ '.' :: if fraction.isEmpty then ['0'] else fraction

/-- One digit, the others after a point if there are any, and the exponent. -/
def exponential (digits : List Char) (exponent : Int) : List Char :=
  let fraction := digits.drop 1
  let point := if fraction.isEmpty then [] else '.' :: fraction
  digits.take 1 ++ point ++ 'e' :: (toString exponent).toList

def positive (layout : FloatLayout) (units : Nat) : List Char :=
  let decimal := (RoundingInterval.ofUnits units).shortest
  let all := Nat.toDigits 10 decimal.digits
  let exponent := decimal.exponent + all.length - 1
  let digits := (all.reverse.dropWhile (· == '0')).reverse
  if layout.leastPositional ≤ exponent ∧ exponent ≤ layout.mostPositional then
    positional digits exponent
  else exponential digits exponent

def text (layout : FloatLayout) (x : Binary64) : String :=
  let sign (negative : Bool) := if negative then "-" else ""
  match x.meaning with
  | .nan => "NaN"
  | .infinite negative => sign negative ++ "inf"
  | .finite negative 0 => sign negative ++ "0.0"
  | .finite negative units => sign negative ++ String.ofList (layout.positive units)

end FloatLayout

end FormLowering
