import FormLowering.Form.Place
import FormLowering.Form.TypeName

/-!
Layout queries as forms. Each yields a constant of the pointer-sized unsigned kind, if the target's
pointers can express it.
-/

namespace FormLowering

def Target.canExpress (target : Target) (n : Nat) : Bool :=
  64 ≤ target.pointerBits || n >>> target.pointerBits == 0

namespace FormM

/-- The answer of a query about a type as a constant; `span` is where the type was named. -/
def measured (request : Request) (ty : Ty) (span : Span)
    (query : Registry → Target → LayoutM Nat) : FormM TypedValue := do
  match ← measure query with
  | .error error => fail (.unsupportedType error) span
  | .ok n =>
    let target := (← get).target
    if target.canExpress n then constant request .size (.int target.pointerBits n)
    else fail (.unsupportedType ⟨.tooLarge, ty⟩) span

end FormM

namespace Form

/-- A form of one argument that measures the type named by it. -/
def measuring (query : Registry → Target → Ty → LayoutM Nat) : Form := fun span args request => do
  match args with
  | [operand] =>
    let ty ← FormM.parseType operand.node
    FormM.measured request ty operand.node.span fun types target => query types target ty
  | _ => FormM.check (.error (.arity 1 args.length span))

/-- The form `(alignmentof T)` yields an alignment in bytes. -/
def alignmentOf : Form := measuring Layout.alignment

/-- The form `(sizeof T)` yields a size in bytes. -/
def sizeOf : Form := measuring Layout.size

end Form

/-- The index of the field that an offset is asked of; `ty` is the struct `name`. -/
def Registry.fieldIndex (types : Registry) (ty : Ty) (name field : String) : Except FormFault Nat :=
  match types.struct? name with
  | none => .error (.unsupportedType ⟨.unknown, ty⟩)
  | some found =>
    if !found.isComplete then .error (.unsupportedType ⟨.incomplete, ty⟩)
    else match found.field? field with
      | some (index, _) => .ok index
      | none => .error (.noSuchField name field)

/-- The form `(offsetof S f)` yields the offset of a field in bytes. -/
def Form.offsetOf : Form := fun span args request => do
  match args with
  | [struct, field] =>
    let place := struct.node.span
    let ty ← FormM.parseType struct.node
    match ty.structName? with
    | none => FormM.fail (.notAStruct ty) place
    | some name =>
      let field ← FormM.check field.node.fieldName
      match (← get).types.fieldIndex ty name field with
      | .error fault => FormM.fail fault span
      | .ok index =>
        FormM.measured request ty place fun types target =>
          Layout.fieldOffset types target ty index
  | _ => FormM.check (.error (.arity 2 args.length span))

end FormLowering
