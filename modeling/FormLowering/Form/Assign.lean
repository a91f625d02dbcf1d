import FormLowering.Form.Request

/-!
Assignment. The target is located, then the value is evaluated with the target's type as its hint,
and one store follows if the types agree.
-/

namespace FormLowering

/-- A value of a type can be assigned to the same type; a pointer may also lose the right to
write. -/
def Ty.isAssignable (source target : Ty) : Bool :=
  source == target ||
    match source, target with
    | .pointer a false, .pointer b true => a == b
    | _, _ => false

/-- Stores a value at the address that a target evaluates to. -/
def FormM.assign (target value : Operand) (request : Request) : FormM TypedValue := do
  let place ← target.resolve (request.nested true)
  match place.ty with
  | .pointer stored false =>
    let source ← value.resolve (request.nested false (some stored))
    if source.ty.isAssignable stored then
      position request.block
      let _ ← build (·.store source.value place.value)
      let block := request.block
      let ty := Ty.pointerTo stored
      if request.address then return { block, value := place.value, ty }
      else return { block, value := source.value, ty := stored, place? := some ⟨place.value, ty⟩ }
    else fail (.typeMismatch stored source.ty) value.node.span
  | _ => fail .notAddressable target.node.span

/-- The form `(setf target value)` assigns. -/
def Form.assign : Form := fun span args request => do
  match args with
  | [target, value] => FormM.assign target value request
  | _ => FormM.check (.error (.arity 2 args.length span))

end FormLowering
