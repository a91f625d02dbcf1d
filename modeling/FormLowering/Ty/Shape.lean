import FormLowering.Ty.Registry
import FormLowering.Ty.Target

/-!
What a type is made of once its name is looked up: a scalar, an array or a record of fields. Only
a registered struct is a record.
-/

namespace FormLowering

inductive LayoutFault where
  | incomplete
  | generic
  | unsized
  | unknown
  | recursive
  | tooLarge
  deriving DecidableEq, Repr

/-- A layout fault and the type that it is a fault of. -/
structure LayoutError where
  fault : LayoutFault
  ty : Ty
  deriving DecidableEq, Repr

def LayoutError.message (error : LayoutError) : String :=
  let name := error.ty.text
  match error.fault with
  | .incomplete => s!"type `{name}` is declared but has no definition"
  | .generic => s!"type `{name}` has unresolved generic parameters"
  | .unsized => s!"type `{name}` has no size"
  | .unknown => s!"type `{name}` is not defined"
  | .recursive => s!"type `{name}` contains itself"
  | .tooLarge => s!"type `{name}` is too large to measure"

/-- What a type is made of, as far as layout is concerned. -/
inductive Shape where
  | scalar (size alignment : Nat)
  | array (length : Nat) (element : Ty)
  | record (fields : List Ty)
  deriving DecidableEq, Repr

/-- The scalar that a kind is stored as; `ty` is the type to blame if there is none. -/
def Target.scalar (target : Target) (ty : Ty) (kind : Primitive) : Except LayoutError Shape :=
  match target.scalarSize? kind, target.scalarAlignment? kind with
  | some size, some alignment => .ok (.scalar size alignment)
  | _, _ => .error ⟨.unsized, ty⟩

/-- The shape of a type. An enum is stored as its underlying kind. -/
def Ty.shape (types : Registry) (target : Target) : Ty → Except LayoutError Shape
  | .primitive kind => target.scalar (.primitive kind) kind
  | .pointer _ _ => .ok (.scalar target.pointerBytes target.pointerAlignment)
  | .array length element => .ok (.array length element)
  | .struct name =>
    match types.struct? name with
    | none => .error ⟨.unknown, .struct name⟩
    | some found =>
      if found.isGeneric then .error ⟨.generic, .struct name⟩
      else match found.fields? with
        | none => .error ⟨.incomplete, .struct name⟩
        | some fields => .ok (.record (fields.map (·.ty)))
  | .enum name =>
    match types.enum? name with
    | none => .error ⟨.unknown, .enum name⟩
    | some found => target.scalar (.enum name) found.underlying
  | .param name => .error ⟨.generic, .param name⟩

theorem Target.scalar_ne_record {target : Target} {ty : Ty} {kind : Primitive} {fields : List Ty} :
    target.scalar ty kind ≠ .ok (.record fields) := by
  unfold Target.scalar; split <;> simp

theorem Target.scalar_ne_array {target : Target} {ty element : Ty} {kind : Primitive}
    {length : Nat} : target.scalar ty kind ≠ .ok (.array length element) := by
  unfold Target.scalar; split <;> simp

/-- Only a registered struct is a record. -/
theorem Ty.exists_struct_of_shape {types : Registry} {target : Target} {ty : Ty} {fields : List Ty}
    (h : ty.shape types target = .ok (.record fields)) :
    ∃ name found, ty = .struct name ∧ types.struct? name = some found := by
  cases ty with
  | primitive kind => exact absurd h Target.scalar_ne_record
  | pointer | array | param => simp [Ty.shape] at h
  | struct name =>
    cases found : types.struct? name with
    | none => simp [Ty.shape, found] at h
    | some struct => exact ⟨name, struct, rfl, found⟩
  | enum name =>
    cases found : types.enum? name with
    | none => simp [Ty.shape, found] at h
    | some enum => simp [Ty.shape, found, Target.scalar_ne_record] at h

/-- Only an array has an element shape, and it is the array's own. -/
theorem Ty.eq_array_of_shape {types : Registry} {target : Target} {ty element : Ty} {length : Nat}
    (h : ty.shape types target = .ok (.array length element)) : ty = .array length element := by
  cases ty with
  | primitive kind => exact absurd h Target.scalar_ne_array
  | pointer | param => simp [Ty.shape] at h
  | array => simpa [Ty.shape] using h
  | struct name =>
    simp only [Ty.shape] at h
    split at h
    · simp at h
    · split at h
      · simp at h
      · split at h <;> simp at h
  | enum name =>
    cases found : types.enum? name with
    | none => simp [Ty.shape, found] at h
    | some enum => simp [Ty.shape, found, Target.scalar_ne_array] at h

end FormLowering
