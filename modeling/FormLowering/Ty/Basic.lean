/-!
The types of the language. Structs and enums are names into a registry; everything else is
structural, so two types are equal exactly when their shapes and names are.
-/

namespace FormLowering

inductive Primitive where
  | void
  | bool
  | char
  | int
  | uint
  | int8
  | uint8
  | int16
  | uint16
  | int32
  | uint32
  | int64
  | uint64
  | int128
  | uint128
  | intptr
  | size
  | ptrdiff
  | float
  | double
  | longDouble
  deriving DecidableEq, Repr, Inhabited

namespace Primitive

def all : List Primitive :=
  [.void, .bool, .char, .int, .uint, .int8, .uint8, .int16, .uint16, .int32, .uint32, .int64,
    .uint64, .int128, .uint128, .intptr, .size, .ptrdiff, .float, .double, .longDouble]

def name : Primitive → String
  | .void => "void"
  | .bool => "bool"
  | .char => "char"
  | .int => "int"
  | .uint => "uint"
  | .int8 => "int8"
  | .uint8 => "uint8"
  | .int16 => "int16"
  | .uint16 => "uint16"
  | .int32 => "int32"
  | .uint32 => "uint32"
  | .int64 => "int64"
  | .uint64 => "uint64"
  | .int128 => "int128"
  | .uint128 => "uint128"
  | .intptr => "intptr"
  | .size => "size"
  | .ptrdiff => "ptrdiff"
  | .float => "float"
  | .double => "double"
  | .longDouble => "long-double"

def ofName? (name : String) : Option Primitive :=
  all.find? (·.name == name)

/-- A kind that takes integer literals: `char` is one, `bool` is not. -/
def isInteger : Primitive → Bool
  | .void | .bool | .float | .double | .longDouble => false
  | _ => true

def isFloating : Primitive → Bool
  | .float | .double | .longDouble => true
  | _ => false

/-- A kind whose values may be negative integers; `char` is signed. -/
def isSigned : Primitive → Bool
  | .char | .int | .int8 | .int16 | .int32 | .int64 | .int128 | .intptr | .ptrdiff => true
  | _ => false

theorem mem_all (kind : Primitive) : kind ∈ all := by cases kind <;> decide

theorem ofName?_name (kind : Primitive) : ofName? kind.name = some kind := by
  cases kind <;> decide

theorem eq_of_ofName? {name : String} {kind : Primitive} (h : ofName? name = some kind) :
    kind.name = name := by
  simpa using List.find?_some h

end Primitive

inductive Ty where
  | primitive (kind : Primitive)
  /-- The flag `isConst` forbids writing the pointee through this pointer. -/
  | pointer (pointee : Ty) (isConst : Bool)
  | array (length : Nat) (element : Ty)
  | struct (name : String)
  | enum (name : String)
  /-- A generic parameter that nothing has been put in for. -/
  | param (name : String)
  deriving DecidableEq, Repr, Inhabited

namespace Ty

def void : Ty := .primitive .void
def bool : Ty := .primitive .bool
def char : Ty := .primitive .char
def size : Ty := .primitive .size
def float : Ty := .primitive .float
def double : Ty := .primitive .double
def longDouble : Ty := .primitive .longDouble

/-- The type of addresses of a mutable `pointee`. -/
def pointerTo (pointee : Ty) : Ty := .pointer pointee false

/-- The type of addresses of a `pointee` that is only read. -/
def constPointerTo (pointee : Ty) : Ty := .pointer pointee true

def primitive? : Ty → Option Primitive
  | .primitive kind => some kind
  | _ => none

def isInteger (ty : Ty) : Bool := ty.primitive?.any Primitive.isInteger

def isFloating (ty : Ty) : Bool := ty.primitive?.any Primitive.isFloating

def isChar (ty : Ty) : Bool := ty == .char

def pointee? : Ty → Option Ty
  | .pointer pointee _ => some pointee
  | _ => none

def element? : Ty → Option Ty
  | .array _ element => some element
  | _ => none

def structName? : Ty → Option String
  | .struct name => some name
  | _ => none

def enumName? : Ty → Option String
  | .enum name => some name
  | _ => none

def isPointer (ty : Ty) : Bool := ty.pointee?.isSome

def isArray (ty : Ty) : Bool := ty.element?.isSome

def text : Ty → String
  | .primitive kind => kind.name
  | .pointer pointee false => s!"(p {pointee.text})"
  | .pointer pointee true => s!"(p (const {pointee.text}))"
  | .array length element => s!"(array-of {length} {element.text})"
  | .struct name | .enum name | .param name => name

end Ty

end FormLowering
