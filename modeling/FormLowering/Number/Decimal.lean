import FormLowering.Number.Integer
import FormLowering.Number.Binary64

/-!
Reading decimal text as a double. The text is a whole number of some power of ten, and the double
is the one nearest to it.
-/

namespace FormLowering

/-- The number `digits * 10 ^ exponent`, with a sign. -/
structure Decimal where
  negative : Bool
  digits : Nat
  exponent : Int
  deriving DecidableEq, Repr, Inhabited

/-- The number of decimal digits of a natural, zero having none. -/
def decimalLength (n : Nat) : Nat := if n = 0 then 0 else (Nat.toDigits 10 n).length

/-- The double nearest to a decimal. The power of ten is not worked out where the number is beyond
all doubles or below half of the least one. -/
def Decimal.toBinary64 (x : Decimal) : Binary64 :=
  let length : Int := decimalLength x.digits
  if x.digits = 0 ∨ length + x.exponent ≤ -324 then .ofMeaning (.finite x.negative 0)
  else if 310 ≤ length + x.exponent then .ofMeaning (.infinite x.negative)
  else
    let up := Nat.pow 10 x.exponent.toNat
    let down := Nat.pow 10 (-x.exponent).toNat
    .ofFraction .double x.negative ((x.digits * up) <<< 1074) down

/-- Reads an exponent: nothing, or its mark with an optional sign and at least one digit. -/
def readExponent? : List Char → Option Int
  | [] => some 0
  | 'e' :: rest | 'E' :: rest => do
    let (negative, digits) := splitSign rest
    let magnitude ← readNatural? 10 digits
    return if negative then -magnitude else magnitude
  | _ => none

/-- Reads digits with an optional point among them, at least one digit in all. -/
def readDecimal? (negative : Bool) (text : List Char) : Option Decimal := do
  let (whole, rest) := text.span Char.isDigit
  let (fraction, rest) := match rest with
    | '.' :: rest => rest.span Char.isDigit
    | rest => ([], rest)
  let digits ← readNatural? 10 (whole ++ fraction)
  let exponent ← readExponent? rest
  return ⟨negative, digits, exponent - fraction.length⟩

/-- Reads a floating-point numeral: a decimal, or the name of an infinity or of a value that is no
number, in any case of letters and with an optional sign. -/
def readFloat? (text : String) : Option Binary64 :=
  let (negative, rest) := splitSign text.toList
  let word := rest.map Char.toLower
  if word = "inf".toList ∨ word = "infinity".toList then some (.ofMeaning (.infinite negative))
  else if word = "nan".toList then some (.ofMeaning .nan)
  else (readDecimal? negative rest).map Decimal.toBinary64

end FormLowering
