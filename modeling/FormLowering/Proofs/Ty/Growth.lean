import FormLowering.Ty.Shape

/-!
Registries only grow. A struct that has a body keeps it, whatever is declared or defined later, and
so does an enum; a type that has a shape keeps its shape.
-/

namespace FormLowering
namespace Registry

/-- Every enum, and every struct with a body, is in the later registry as it was. -/
structure Extends (before after : Registry) : Prop where
  struct : ∀ {name struct fields}, before.struct? name = some struct →
    struct.fields? = some fields → after.struct? name = some struct
  enum : ∀ {name enum}, before.enum? name = some enum → after.enum? name = some enum

theorem Extends.refl (types : Registry) : types.Extends types := ⟨fun h _ => h, id⟩

theorem Extends.trans {a b c : Registry} (hab : a.Extends b) (hbc : b.Extends c) : a.Extends c :=
  ⟨fun h hf => hbc.struct (hab.struct h hf) hf, fun h => hbc.enum (hab.enum h)⟩

/-- Only a struct without a body and an unknown name may get another shape later. -/
theorem Extends.shape {before after : Registry} (grows : before.Extends after) {target : Target}
    {ty : Ty} {shape : Shape} (h : ty.shape before target = .ok shape) :
    ty.shape after target = .ok shape := by
  cases ty with
  | primitive | pointer | array => exact h
  | param => simp [Ty.shape] at h
  | struct name =>
    cases found : before.struct? name with
    | none => simp [Ty.shape, found] at h
    | some struct =>
      cases body : struct.fields? with
      | none => simp [Ty.shape, found, body] at h; split at h <;> cases h
      | some fields => simpa [Ty.shape, found, grows.struct found body] using h
  | enum name =>
    cases found : before.enum? name with
    | none => simp [Ty.shape, found] at h
    | some enum => simpa [Ty.shape, found, grows.enum found] using h

theorem extends_append (types : Registry) (structs : List StructDef) :
    types.Extends { types with structs := types.structs ++ structs } := by
  refine ⟨?_, id⟩
  intro name struct fields h _
  change (types.structs ++ structs).find? (·.name == name) = some struct
  rw [List.find?_append, show types.structs.find? (·.name == name) = some struct from h]
  rfl

theorem extends_declareStruct (types : Registry) (name : String) :
    types.Extends (types.declareStruct name) := by
  simp only [declareStruct]
  split
  · exact .refl types
  · exact types.extends_append _

/-- Replacing the structs of one name by one of that name leaves the other names alone. -/
theorem find?_replaced (structs : List StructDef) (struct : StructDef) {name : String}
    (h : name ≠ struct.name) :
    (structs.map fun other => if other.name = struct.name then struct else other).find?
      (·.name == name) = structs.find? (·.name == name) := by
  induction structs with
  | nil => rfl
  | cons other rest ih =>
    rw [List.map_cons, List.find?_cons, List.find?_cons, ih]
    by_cases same : other.name = struct.name
    · have hne : (struct.name == name) = false := by simpa using Ne.symm h
      simp only [same, if_true, hne]
    · simp only [same, if_false]

theorem extends_defineStruct {types later : Registry} {name : String} {params : List String}
    {fields : List Field} (h : types.defineStruct name params fields = .ok later) :
    types.Extends later := by
  unfold defineStruct at h
  dsimp only at h
  split at h
  · cases h
  · split at h
    · cases h
      exact types.extends_append _
    · rename_i known hknown
      split at h
      · cases h
      · rename_i incomplete
        cases h
        refine ⟨?_, id⟩
        intro other struct body hstruct hbody
        -- the struct under the defined name has no body yet, so it is another one
        have hne : other ≠ name := by
          rintro rfl
          rw [hknown] at hstruct
          cases hstruct
          exact incomplete (by simp [StructDef.isComplete, hbody])
        exact (find?_replaced types.structs ⟨name, some fields, params⟩ hne).trans hstruct

theorem extends_defineEnum {types later : Registry} {name : String} {underlying : Primitive}
    {members : List (String × Int)} (h : types.defineEnum name underlying members = .ok later) :
    types.Extends later := by
  unfold defineEnum at h
  split at h
  · cases h
  · split at h
    · cases h
    · cases h
      refine ⟨fun hstruct _ => hstruct, ?_⟩
      intro other enum found
      change (types.enums ++ _).find? (·.name == other) = some enum
      rw [List.find?_append, show types.enums.find? (·.name == other) = some enum from found]
      rfl

end Registry
end FormLowering
