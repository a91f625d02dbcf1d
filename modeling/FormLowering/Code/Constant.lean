import FormLowering.Number.Shortest

/-!
Constants of a module and their text. The text is built from characters, so that what it spells
can be read back from it.
-/

namespace FormLowering

inductive FloatKind where
  | single
  | double
  | extended
  deriving DecidableEq, Repr, Inhabited

/-- A constant as the target represents it. -/
inductive Constant where
  /-- An integer of `bits` bits; `value` is its mathematical value. -/
  | int (bits : Nat) (value : Int)
  /-- A number that is already rounded to `kind`. -/
  | float (kind : FloatKind) (value : Binary64)
  /-- A run of bytes, such as a string with its final zero. -/
  | bytes (content : List UInt8)
  | struct (fields : List Constant)
  deriving Repr, Inhabited

namespace Constant

/-- Constants are written without an exponent from a ten-thousandth up to sixteen digits. -/
def floatLayout : FloatLayout := ⟨-4, 15⟩

/-- A printable ASCII character other than the quote and the backslash. -/
def isPlain (byte : UInt8) : Bool :=
  32 ≤ byte && byte < 127 && byte != 34 && byte != 92

def hexDigit (n : Nat) : Char := if n < 10 then Char.ofNat (48 + n) else Char.ofNat (55 + n)

/-- A plain byte stands for itself; any other is a backslash and two hexadecimal digits. -/
def byteChars (byte : UInt8) : List Char :=
  if isPlain byte then [Char.ofNat byte.toNat]
  else ['\\', hexDigit (byte.toNat / 16), hexDigit (byte.toNat % 16)]

mutual

def chars : Constant → List Char
  | .int bits value => 'i' :: (toString bits).toList ++ ' ' :: (toString value).toList
  | .float _ value => (floatLayout.text value).toList
  | .bytes content => 'c' :: '"' :: content.flatMap byteChars ++ ['"']
  | .struct fields => '{' :: ' ' :: fieldChars fields ++ [' ', '}']

def fieldChars : List Constant → List Char
  | [] => []
  | [field] => field.chars
  | field :: rest => field.chars ++ ',' :: ' ' :: fieldChars rest

end

def text (constant : Constant) : String := String.ofList constant.chars

end Constant

end FormLowering
