import FormLowering.Ty.Basic

/-!
The platform a unit is compiled for. All widths, sizes and alignments of scalars come from here.
-/

namespace FormLowering

inductive LongDouble where
  /-- Eighty significant bits in a padded slot. -/
  | extended (bytes alignment : Nat)
  | quad
  | double
  deriving DecidableEq, Repr, Inhabited

/-- The native widths of a platform, in bits, and its bound on scalar alignment, in bytes. -/
structure Target where
  name : String
  intBits : Nat
  pointerBits : Nat
  longDouble : LongDouble
  maxAlignment : Nat
  deriving DecidableEq, Repr

namespace Target

def x86_64 : Target := ⟨"x86_64", 32, 64, .extended 16 16, 16⟩

def i686 : Target := ⟨"i686", 32, 32, .extended 12 4, 4⟩

def aarch64 : Target := ⟨"aarch64", 32, 64, .quad, 16⟩

instance : Inhabited Target := ⟨x86_64⟩

def presets : List Target := [x86_64, i686, aarch64]

def preset? (name : String) : Option Target := presets.find? (·.name == name)

def pointerBytes (target : Target) : Nat := target.pointerBits / 8

def pointerAlignment (target : Target) : Nat := min target.pointerBytes target.maxAlignment

def bitWidth? (target : Target) : Primitive → Option Nat
  | .void => none
  | .bool => some 1
  | .char | .int8 | .uint8 => some 8
  | .int16 | .uint16 => some 16
  | .int32 | .uint32 | .float => some 32
  | .int64 | .uint64 | .double => some 64
  | .int128 | .uint128 => some 128
  | .int | .uint => some target.intBits
  | .intptr | .size | .ptrdiff => some target.pointerBits
  | .longDouble =>
    match target.longDouble with
    | .extended .. => some 80
    | .quad => some 128
    | .double => some 64

/-- The width of an integer kind; anything without a width counts as a native integer. -/
def integerBits (target : Target) (kind : Primitive) : Nat :=
  (target.bitWidth? kind).getD target.intBits

/-- The bytes that a width takes up. -/
def bytesOfBits (bits : Nat) : Nat := (bits + 7) / 8

def scalarSize? (target : Target) (kind : Primitive) : Option Nat :=
  match kind, target.longDouble with
  | .longDouble, .extended bytes _ => some bytes
  | kind, _ => (target.bitWidth? kind).map bytesOfBits

/-- The alignment of a scalar: its size up to the bound, or what the target says of its extended
format. -/
def scalarAlignment? (target : Target) (kind : Primitive) : Option Nat :=
  match kind, target.longDouble with
  | .longDouble, .extended _ alignment => some alignment
  | kind, _ => (target.scalarSize? kind).map (min · target.maxAlignment)

end Target

end FormLowering
