import FormLowering.Form.Request

/-!
Forms that name places in memory: the address of a value, the object at a pointer, and a field of
a struct.
-/

namespace FormLowering
namespace Form

/-- The form `(# x)` yields the address of what is stored; an address is stored nowhere. -/
def addressOf : Form := fun span args request => do
  match args with
  | [operand] =>
    if request.address then FormM.fail .notAddressable span
    else
      let inner ← operand.resolve (request.nested false)
      match inner.place? with
      | some place => return { block := request.block, value := place.value, ty := place.ty }
      | none => FormM.fail .notAddressable operand.node.span
  | _ => FormM.check (.error (.arity 1 args.length span))

/-- The form `(@ p)` yields the object that a pointer leads to. -/
def dereference : Form := fun span args request => do
  match args with
  | [operand] =>
    let inner ← operand.resolve (request.nested false)
    match inner.ty.pointee? with
    | none => FormM.fail (.notAPointer inner.ty) operand.node.span
    | some stored =>
      if request.address then
        return { block := request.block, value := inner.value, ty := inner.ty }
      else
        FormM.position request.block
        FormM.access inner.value stored request
  | _ => FormM.check (.error (.arity 1 args.length span))

end Form

def Node.fieldName : Node → Except FormError String
  | .atom token =>
    if token.kind = .identifier then .ok token.text
    else .error ⟨.tokenCategory .identifier token.kind, token.span⟩
  | .list _ span => .error ⟨.structural "field name" "list", span⟩

/-- The index and type of a field of what `base` leads to, a struct with a body. -/
def Registry.fieldIn (types : Registry) (ty : Ty) (name : String) (base field : Span) :
    Except FormError (Nat × Ty) :=
  match ty.structName? with
  | none => .error ⟨.notAStruct ty, base⟩
  | some struct =>
    match types.struct? struct with
    | none => .error ⟨.unknownType struct, base⟩
    | some found =>
      if !found.isComplete then .error ⟨.unsupportedType ⟨.incomplete, ty⟩, base⟩
      else match found.field? name with
        | some (index, field) => .ok (index, field.ty)
        | none => .error ⟨.noSuchField struct name, field⟩

/-- Resolves a field of the struct at a base. A base that holds a pointer is followed once. -/
def FormM.resolveField (base field : Operand) (request : Request) : FormM TypedValue := do
  let name ← check field.node.fieldName
  let place ← base.resolve (request.nested true)
  position request.block
  match place.ty.pointee? with
  | none => fail (.notAStruct place.ty) base.node.span
  | some outer =>
    let (address, record) ← match outer.pointee? with
      | some inner => do pure (← build (·.load place.value), inner)
      | none => pure (place.value, outer)
    let (index, ty) ←
      check ((← get).types.fieldIn record name base.node.span field.node.span)
    access (← build (·.gep address [0, index] (.pointerTo ty))) ty request

/-- The form `(: base field)` names a field of a struct. -/
def Form.field : Form := fun span args request => do
  match args with
  | [base, field] => FormM.resolveField base field request
  | _ => FormM.check (.error (.arity 2 args.length span))

end FormLowering
