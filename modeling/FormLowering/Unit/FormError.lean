import FormLowering.Report.Diagnostic
import FormLowering.Source.Node
import FormLowering.Ty.Layout

/-!
The ways in which a form fails, with the names and types involved, and the report of each.
-/

namespace FormLowering

inductive FormFault where
  | structural (expected found : String)
  | tokenCategory (expected found : TokenKind)
  | unresolvedName (name : String)
  | invalidEscape (text : String)
  | typeMismatch (expected found : Ty)
  | unsupportedType (error : LayoutError)
  | literalConstruction (ty : Ty) (text : String)
  | notAStruct (ty : Ty)
  | noSuchField (struct field : String)
  | notAPointer (ty : Ty)
  | notAddressable
  | redefinition (name : String)
  | unknownForm (name : String)
  | unknownType (name : String)
  deriving DecidableEq, Repr

namespace FormFault

def message : FormFault → String
  | .structural expected found => s!"expected {expected}, found {found}"
  | .tokenCategory expected found => s!"expected {expected.describe}, found {found.describe}"
  | .unresolvedName name => s!"`{name}` is not in scope"
  | .invalidEscape text => s!"invalid character literal `{text}`"
  | .typeMismatch expected found => s!"expected `{expected.text}`, found `{found.text}`"
  | .unsupportedType error => error.message
  | .literalConstruction ty text => s!"cannot construct a `{ty.text}` literal from `{text}`"
  | .notAStruct ty => s!"`{ty.text}` is not a struct"
  | .noSuchField struct field => s!"struct `{struct}` has no field `{field}`"
  | .notAPointer ty => s!"`{ty.text}` is not a pointer"
  | .notAddressable => "expression does not produce an assignable address"
  | .redefinition name => s!"`{name}` is already defined"
  | .unknownForm name => s!"unknown form `{name}`"
  | .unknownType name => s!"unknown type `{name}`"

def code : FormFault → ErrorCode
  | .structural .. => .element
  | .tokenCategory .. => .token
  | .unknownForm _ => .form
  | .literalConstruction .. => .literal
  | .invalidEscape _ => .charLiteral
  | .typeMismatch .. | .notAPointer _ => .mismatch
  | .unknownType _ => .unknownType
  | .unresolvedName _ => .unknownName
  | .redefinition _ => .duplicate
  | .unsupportedType _ => .unsupportedType
  | .notAStruct _ => .notStruct
  | .noSuchField .. => .noField
  | .notAddressable => .notAddressable

end FormFault

structure FormError where
  fault : FormFault
  span : Span
  deriving DecidableEq, Repr

namespace FormError

/-- The report of a failure: its message, with the title of its code at its place. -/
def diagnostic (error : FormError) : Diagnostic :=
  let code := error.fault.code
  { code, message := error.fault.message, labels := [⟨error.span, code.title, true⟩] }

end FormError

end FormLowering
