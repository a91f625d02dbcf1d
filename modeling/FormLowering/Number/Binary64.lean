/-!
Double-precision numbers by their encoding. A finite number is a whole multiple of the least
positive one, so values and rounding are those of natural numbers of that unit.
-/

namespace FormLowering

/-- The quotient of two naturals, rounded to nearest with ties to even. -/
def roundQuotient (numerator denominator : Nat) : Nat :=
  let quotient := numerator / denominator
  let twice := 2 * (numerator % denominator)
  if twice < denominator then quotient
  else if denominator < twice then quotient + 1
  else quotient + quotient % 2

/-- A floating format: its significant bits, the power of two of its least step and the power of
two that its numbers stay below. Powers count from the least double, `2 ^ -1074`. -/
structure FloatFormat where
  digits : Nat
  least : Nat
  bound : Nat
  deriving DecidableEq, Repr, Inhabited

namespace FloatFormat

def double : FloatFormat := ⟨53, 0, 1074 + 1024⟩
def single : FloatFormat := ⟨24, 1074 - 149, 1074 + 128⟩

/-- The power of two of the step between the numbers of a format around `units`. -/
def step (format : FloatFormat) (units : Nat) : Nat :=
  max format.least (units.log2 + 1 - format.digits)

/-- The number of a format nearest to a fraction of the unit, unless it is beyond the bound. -/
def round? (format : FloatFormat) (numerator denominator : Nat) : Option Nat :=
  let step := format.step (numerator / denominator)
  let units := roundQuotient numerator (denominator <<< step) <<< step
  if units < 1 <<< format.bound then some units else none

end FloatFormat

/-- A double-precision number by its encoding. -/
structure Binary64 where
  bits : UInt64
  deriving DecidableEq, Repr, Inhabited

namespace Binary64

/-- What an encoding stands for; a finite number is a signed count of least doubles. -/
inductive Meaning where
  | nan
  | infinite (negative : Bool)
  | finite (negative : Bool) (units : Nat)
  deriving DecidableEq, Repr

/-- The exponent and significand fields of a count of units that is a double. -/
def magnitude (units : Nat) : Nat :=
  let step := FloatFormat.double.step units
  step <<< 52 + units >>> step

def ofMeaning : Meaning → Binary64
  | .nan => ⟨0x7ff8000000000000⟩
  | .infinite negative => ⟨if negative then 0xfff0000000000000 else 0x7ff0000000000000⟩
  | .finite negative units =>
    ⟨UInt64.ofNat ((if negative then 1 <<< 63 else 0) + magnitude units)⟩

def meaning (x : Binary64) : Meaning :=
  let word := x.bits.toNat
  let negative := 1 <<< 63 ≤ word
  let exponent := (word >>> 52) % (1 <<< 11)
  let fraction := word % (1 <<< 52)
  if exponent = 1 <<< 11 - 1 then
    if fraction = 0 then .infinite negative else .nan
  else if exponent = 0 then .finite negative fraction
  else .finite negative ((1 <<< 52 + fraction) <<< (exponent - 1))

def isNaN (x : Binary64) : Bool := x.meaning == .nan

/-- The nearest number of a format to a fraction of the unit; past the bound it is infinite. -/
def ofFraction (format : FloatFormat) (negative : Bool) (numerator denominator : Nat) : Binary64 :=
  match format.round? numerator denominator with
  | some units => ofMeaning (.finite negative units)
  | none => ofMeaning (.infinite negative)

def toSingle (x : Binary64) : Binary64 :=
  match x.meaning with
  | .finite negative units => ofFraction .single negative units 1
  | _ => x

end Binary64

end FormLowering
