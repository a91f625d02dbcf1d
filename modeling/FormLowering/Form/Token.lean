import FormLowering.Form.Literal
import FormLowering.Form.Request

/-!
The evaluation of single tokens. Numbers are constants of the wanted type where it is of their
kind. Any other token is first tried as a member of the wanted enum, which leaves no report if it
fails; then it is a named constant, a character, a variable or a stored string.
-/

namespace FormLowering
namespace Token

/-- The integer kind that a literal takes: the wanted one, else the native one. -/
def integerKind (wanted? : Option Ty) : Primitive :=
  ((wanted?.bind Ty.primitive?).filter Primitive.isInteger).getD .int

/-- The value of an integer token, if its kind can hold it. -/
def integerValue? (target : Target) (kind : Primitive) (text : String) : Option Int :=
  (readInteger? text).filter fun value => fits value (target.integerBits kind) kind.isSigned

def integer (token : Token) (request : Request) : FormM TypedValue := do
  let target := (← get).target
  let kind := integerKind request.wanted?
  match integerValue? target kind token.text with
  | some value => FormM.constant request (.primitive kind) (.int (target.integerBits kind) value)
  | none => FormM.fail (.literalConstruction (.primitive kind) token.text) token.span

/-- The type and precision that a floating literal takes. -/
def floatingKind (wanted? : Option Ty) : Ty × FloatKind :=
  match wanted?.bind Ty.primitive? with
  | some .double => (.double, .double)
  | some .longDouble => (.longDouble, .extended)
  | _ => (.float, .single)

def roundedTo (kind : FloatKind) (value : Binary64) : Binary64 :=
  match kind with
  | .single => value.toSingle
  | _ => value

def floating (token : Token) (request : Request) : FormM TypedValue := do
  let (ty, kind) := floatingKind request.wanted?
  match readFloat? token.text with
  | some value => FormM.constant request ty (.float kind (roundedTo kind value))
  | none => FormM.fail (.literalConstruction ty token.text) token.span

def memberOf (token : Token) (enum : EnumDef) : Except FormError Int :=
  if token.kind = .identifier then
    match enum.member? token.text with
    | some value => .ok value
    | none => .error ⟨.unresolvedName token.text, token.span⟩
  else .error ⟨.tokenCategory .identifier token.kind, token.span⟩

/-- A token as a member of an enum: the one field of its representation. -/
def enumLiteral (token : Token) (enum : EnumDef) (request : Request) : FormM TypedValue := do
  let value ← FormM.check (token.memberOf enum)
  let bits := (← get).target.integerBits enum.underlying
  FormM.constant request (.enum enum.name) (.struct [.int bits value])

def wantedEnum? (types : Registry) (request : Request) : Option EnumDef :=
  (request.wanted?.bind Ty.enumName?).bind types.enum?

/-- A token as a member of the wanted enum, if it is one. -/
def speculate (token : Token) (request : Request) : FormM (Option TypedValue) := do
  match wantedEnum? (← get).types request with
  | none => return none
  | some enum => return (← FormM.attempt (token.enumLiteral enum request)).toOption

/-- The constant that an identifier stands for by itself. -/
def namedConstant? (token : Token) : Except FormError (Option (Ty × Constant)) :=
  if token.text = "true" then .ok (some (.bool, .int 1 1))
  else if token.text = "false" then .ok (some (.bool, .int 1 0))
  else match CharLiteral.read token.text with
    | .byte value => .ok (some (.char, .int 8 value))
    | .invalid => .error ⟨.invalidEscape token.text, token.span⟩
    | .absent => .ok none

def identifier (token : Token) (request : Request) : FormM TypedValue := do
  match ← FormM.check token.namedConstant? with
  | some (ty, constant) => FormM.constant request ty constant
  | none =>
    match (← get).lookup? token.text with
    | some found => FormM.access found.storage found.ty request
    | none => FormM.fail (.unresolvedName token.text) token.span

/-- A context takes a string if it asks for nothing, a pointer to characters or an array of
them. -/
def takesString (wanted? : Option Ty) : Bool :=
  wanted?.all fun wanted => (wanted.pointee?.or wanted.element?).any Ty.isChar

/-- Stores a string as a constant global of a new name, and gives the address of its first
byte. -/
def string (token : Token) (request : Request) : FormM TypedValue := do
  match request.wanted?, takesString request.wanted? with
  | some wanted, false => FormM.fail (.literalConstruction wanted token.text) token.span
  | _, _ =>
    let bytes := stringBytes token.text
    let name ← FormM.unusedName
    let stored ← FormM.registerGlobal name (.array bytes.length .char) .internal true
      (some (.bytes bytes)) token.span
    let ty := Ty.constPointerTo .char
    return { block := request.block, value := ← FormM.build (·.gep stored.storage [0, 0] ty), ty }

/-- The evaluation of a token in the block of the request. -/
def resolve (token : Token) (request : Request) : FormM TypedValue := do
  FormM.position request.block
  match token.kind with
  | .integer => token.integer request
  | .floating => token.floating request
  | .identifier => do
    match ← token.speculate request with
    | some result => return result
    | none => token.identifier request
  | .string => do
    match ← token.speculate request with
    | some result => return result
    | none => token.string request

end Token
end FormLowering
