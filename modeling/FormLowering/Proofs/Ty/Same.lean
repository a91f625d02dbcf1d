import FormLowering.Form.Measure
import FormLowering.Proofs.Ty.Session

/-!
Registries with the same contents. What is read from a registry by name and what is measured by it
depend on the definitions that names lead to, and not on how they came to be there.
-/

namespace FormLowering

namespace Layout

section Fields

variable {ty : Ty} {alignmentOf sizeOf alignmentOf' sizeOf' : Ty → Except LayoutError Nat}
  {fields : List Ty}

theorem greatest_congr (agree : ∀ field ∈ fields, alignmentOf field = alignmentOf' field)
    (least : Nat) : greatest alignmentOf fields least = greatest alignmentOf' fields least := by
  induction fields generalizing least with
  | nil => rfl
  | cons field rest ih =>
    obtain ⟨first, others⟩ := List.forall_mem_cons.mp agree
    simp only [greatest, first, ih others]

theorem extent_congr (alignments : ∀ field ∈ fields, alignmentOf field = alignmentOf' field)
    (sizes : ∀ field ∈ fields, sizeOf field = sizeOf' field) (offset least : Nat) :
    extent ty alignmentOf sizeOf fields offset least =
      extent ty alignmentOf' sizeOf' fields offset least := by
  induction fields generalizing offset least with
  | nil => rfl
  | cons field rest ih =>
    obtain ⟨first, alignments⟩ := List.forall_mem_cons.mp alignments
    obtain ⟨second, sizes⟩ := List.forall_mem_cons.mp sizes
    simp only [extent, first, second, ih alignments sizes]

end Fields
end Layout

namespace Shape

variable {alignmentOf sizeOf alignmentOf' sizeOf' : Ty → Except LayoutError Nat} {shape : Shape}

theorem alignmentBy_congr (agree : ∀ part ∈ shape.parts, alignmentOf part = alignmentOf' part) :
    shape.alignmentBy alignmentOf = shape.alignmentBy alignmentOf' := by
  cases shape with
  | scalar => rfl
  | array length element => exact agree element (List.mem_singleton.mpr rfl)
  | record fields => exact Layout.greatest_congr agree 1

theorem sizeBy_congr {ty : Ty}
    (alignments : ∀ part ∈ shape.parts, alignmentOf part = alignmentOf' part)
    (sizes : ∀ part ∈ shape.parts, sizeOf part = sizeOf' part) :
    shape.sizeBy ty alignmentOf sizeOf = shape.sizeBy ty alignmentOf' sizeOf' := by
  cases shape with
  | scalar => rfl
  | array length element =>
    simp only [sizeBy, sizes element (List.mem_singleton.mpr rfl)]
  | record fields => exact Layout.extent_congr alignments sizes 0 1

end Shape

namespace Registry

/-- Every name leads to the same definition in both. -/
structure Same (types other : Registry) : Prop where
  struct : ∀ name, types.struct? name = other.struct? name
  enum : ∀ name, types.enum? name = other.enum? name

namespace Same

variable {types other : Registry} (same : types.Same other) {target : Target}

theorem refl (types : Registry) : types.Same types := ⟨fun _ => rfl, fun _ => rfl⟩

include same

/-! ## Names -/

theorem named (name : String) : types.named? name = other.named? name := by
  simp only [named?, same.struct, same.enum]

theorem typeName (node : Node) : node.typeName types = node.typeName other := by
  fun_induction Node.typeName types node <;> simp_all [Node.typeName, Token.typeName, same.named]

theorem fieldIn (ty : Ty) (name : String) (base field : Span) :
    types.fieldIn ty name base field = other.fieldIn ty name base field := by
  simp only [Registry.fieldIn, same.struct]

theorem fieldIndex (ty : Ty) (name field : String) :
    types.fieldIndex ty name field = other.fieldIndex ty name field := by
  simp only [Registry.fieldIndex, same.struct]

/-! ## Measurements -/

theorem shape (ty : Ty) : ty.shape types target = ty.shape other target := by
  cases ty with
  | primitive | pointer | array | param => rfl
  | struct name => simp only [Ty.shape, same.struct]
  | enum name => simp only [Ty.shape, same.enum]

theorem directAlignment (busy : List Ty) (ty : Ty) :
    Layout.directAlignment types target busy ty = Layout.directAlignment other target busy ty := by
  induction busy, ty using @Layout.descent types target with
  | step busy ty ih =>
    rw [Layout.directAlignment_eq, Layout.directAlignment_eq, ← same.shape]
    split
    · rfl
    · rename_i fresh
      cases known : ty.shape types target with
      | error error => rfl
      | ok shape =>
        exact Shape.alignmentBy_congr fun part mem => ih fresh part ⟨shape, known, mem⟩

theorem directSize (busy : List Ty) (ty : Ty) :
    Layout.directSize types target busy ty = Layout.directSize other target busy ty := by
  induction busy, ty using @Layout.descent types target with
  | step busy ty ih =>
    rw [Layout.directSize_eq, Layout.directSize_eq, ← same.shape]
    split
    · rfl
    · rename_i fresh
      cases known : ty.shape types target with
      | error error => rfl
      | ok shape =>
        exact Shape.sizeBy_congr (fun part _ => same.directAlignment _ part) fun part mem =>
          ih fresh part ⟨shape, known, mem⟩

theorem direct (query : LayoutQuery) : query.direct types target = query.direct other target := by
  cases query with
  | alignment ty => exact same.directAlignment [] ty
  | size ty => exact same.directSize [] ty
  | fieldOffset ty index =>
    have alignments : Layout.directAlignment types target [] = Layout.directAlignment other target [] :=
      funext (same.directAlignment [])
    have sizes : Layout.directSize types target [] = Layout.directSize other target [] :=
      funext (same.directSize [])
    simp only [LayoutQuery.direct, Layout.directOffset, same.shape, alignments, sizes]

end Same
end Registry
end FormLowering
