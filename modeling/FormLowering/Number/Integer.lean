/-!
Integer numerals and the range of fixed widths. All integers of the language are 128-bit words in
two's complement.
-/

namespace FormLowering

/-- The value of a character as a digit of a base up to sixteen. -/
def digit? (base : Nat) (c : Char) : Option Nat :=
  let value? :=
    if '0' ≤ c ∧ c ≤ '9' then some (c.toNat - '0'.toNat)
    else if 'a' ≤ c ∧ c ≤ 'f' then some (c.toNat - 'a'.toNat + 10)
    else if 'A' ≤ c ∧ c ≤ 'F' then some (c.toNat - 'A'.toNat + 10)
    else none
  value?.filter (· < base)

/-- The number that a run of digits continues, `high` being the value of the digits before. -/
def readDigits? (base high : Nat) : List Char → Option Nat
  | [] => some high
  | c :: rest => do readDigits? base (high * base + (← digit? base c)) rest

def readNatural? (base : Nat) (digits : List Char) : Option Nat :=
  if digits.isEmpty then none else readDigits? base 0 digits

/-- Splits off an optional sign; the flag is set for a minus. -/
def splitSign : List Char → Bool × List Char
  | '-' :: rest => (true, rest)
  | '+' :: rest => (false, rest)
  | rest => (false, rest)

/-- Splits off the mark of a hexadecimal numeral and gives the base of what follows. -/
def splitBase : List Char → Nat × List Char
  | '0' :: 'x' :: rest | '0' :: 'X' :: rest => (16, rest)
  | rest => (10, rest)

/-- The value is a 128-bit word. -/
def IsWord (value : Int) : Prop := -Int.pow 2 127 ≤ value ∧ value < Int.pow 2 127

instance (value : Int) : Decidable (IsWord value) := inferInstanceAs (Decidable (_ ∧ _))

/-- Reads an integer: an optional sign, then decimal digits, or hexadecimal digits after their
mark. A numeral of no 128-bit word is refused. -/
def readInteger? (text : String) : Option Int := do
  let (negative, rest) := splitSign text.toList
  let (base, digits) := splitBase rest
  let magnitude ← readNatural? base digits
  let value : Int := if negative then -magnitude else magnitude
  if IsWord value then some value else none

/-- The check of an integer against a width. From 128 bits on only the sign matters; below, the
bound of an unsigned width is a word itself, so at 127 bits it is negative and nothing fits. -/
def fits (value : Int) (bits : Nat) (signed : Bool) : Bool :=
  if 128 ≤ bits then signed || 0 ≤ value
  else if signed then -Int.pow 2 (bits - 1) ≤ value && value < Int.pow 2 (bits - 1)
  else 0 ≤ value && value < Int.bmod (Int.pow 2 bits) (Nat.pow 2 128)

end FormLowering
