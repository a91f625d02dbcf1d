/-!
The codes of all reports. A code's first digit is its phase: literals, the shape of forms, names
and types, and faults of the compiler itself.
-/

namespace FormLowering

inductive ErrorCode where
  | literal
  | charLiteral
  | element
  | token
  | form
  | mismatch
  | unknownType
  | unknownName
  | duplicate
  | unsupportedType
  | notStruct
  | noField
  | notAddressable
  | internal
  deriving DecidableEq, Repr, Inhabited

namespace ErrorCode

def all : List ErrorCode :=
  [.literal, .charLiteral, .element, .token, .form, .mismatch, .unknownType, .unknownName,
    .duplicate, .unsupportedType, .notStruct, .noField, .notAddressable, .internal]

def label : ErrorCode → String
  | .literal => "E0003"
  | .charLiteral => "E0005"
  | .element => "E1001"
  | .token => "E1002"
  | .form => "E1003"
  | .mismatch => "E2001"
  | .unknownType => "E2002"
  | .unknownName => "E2003"
  | .duplicate => "E2006"
  | .unsupportedType => "E2019"
  | .notStruct => "E2020"
  | .noField => "E2021"
  | .notAddressable => "E2022"
  | .internal => "E9001"

def ofLabel? (label : String) : Option ErrorCode :=
  all.find? (·.label == label)

def isFormShape : ErrorCode → Bool
  | .element | .token | .form => true
  | _ => false

/-- The few words that stand beside the place of the error. -/
def title : ErrorCode → String
  | .literal => "cannot construct literal"
  | .charLiteral => "invalid character literal"
  | .element => "unexpected element"
  | .token => "unexpected token"
  | .form => "unknown form"
  | .mismatch => "type mismatch"
  | .unknownType => "unknown type"
  | .unknownName => "unknown identifier"
  | .duplicate => "duplicate definition"
  | .unsupportedType => "unsupported type"
  | .notStruct => "not a struct"
  | .noField => "no such field"
  | .notAddressable => "not addressable"
  | .internal => "internal compiler error"

theorem ofLabel?_label (code : ErrorCode) : ofLabel? code.label = some code := by
  cases code <;> decide

end ErrorCode

end FormLowering
