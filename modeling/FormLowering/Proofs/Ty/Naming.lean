import Mathlib
import FormLowering.Proofs.Ty.Session

/-!
What a type name stands for. Structs and enums are found in two tables, and each way to register a
name looks into them in its own manner; only the declaration of a struct does not look for an enum.
-/

namespace FormLowering

variable {types later : Registry} {name : String}

namespace Registry

/-- An entry under a free name is found under that name, and the others as before. -/
theorem find?_concat {α : Type} (nameOf : α → String) {entries : List α} (entry : α)
    (free : entries.find? (nameOf · == nameOf entry) = none) (other : String) :
    (entries ++ [entry]).find? (nameOf · == other) =
      if other = nameOf entry then some entry else entries.find? (nameOf · == other) := by
  rw [List.find?_append]
  split
  · rename_i same
    simp [same, free]
  · rename_i differ
    simp [Ne.symm differ]

theorem struct?_declareStruct (types : Registry) (name other : String) :
    (types.declareStruct name).struct? other =
      if other = name then some ((types.struct? name).getD ⟨name, none, []⟩)
      else types.struct? other := by
  unfold declareStruct
  cases known : types.struct? name with
  | some struct =>
    rw [if_pos (by rfl)]
    split
    · rename_i same
      rw [same, known]
      rfl
    · rfl
  | none => exact find?_concat StructDef.name ⟨name, none, []⟩ known other

theorem enum?_declareStruct (types : Registry) (name other : String) :
    (types.declareStruct name).enum? other = types.enum? other := by
  unfold declareStruct
  split <;> rfl

/-- Replacing the structs of a name that is found leaves the replacement under that name. -/
theorem find?_replacement {structs : List StructDef} (struct : StructDef)
    (h : (structs.find? (·.name == struct.name)).isSome) :
    (structs.map fun other => if other.name = struct.name then struct else other).find?
      (·.name == struct.name) = some struct := by
  induction structs with
  | nil => cases h
  | cons other rest ih =>
    rw [List.map_cons, List.find?_cons]
    by_cases same : other.name = struct.name
    · simp [same]
    · have differ : (other.name == struct.name) = false := by simpa using same
      rw [List.find?_cons, differ] at h
      simp only [same, if_false, differ]
      exact ih h

/-- What was so when a struct got its body, and what is so after it. -/
structure StructDefined (types later : Registry) (name : String) (params : List String)
    (fields : List Field) : Prop where
  free : types.enum? name = none
  incomplete : ∀ {struct}, types.struct? name = some struct → struct.fields? = none
  struct : ∀ other, later.struct? other =
    if other = name then some ⟨name, some fields, params⟩ else types.struct? other
  enum : ∀ other, later.enum? other = types.enum? other

theorem defineStruct_eq_ok {params : List String} {fields : List Field}
    (h : types.defineStruct name params fields = .ok later) :
    StructDefined types later name params fields := by
  unfold defineStruct at h
  dsimp only at h
  split at h
  · cases h
  · rename_i free
    have free : types.enum? name = none := by simpa using free
    split at h
    · rename_i unknown
      cases h
      refine ⟨free, fun found => ?_,
        find?_concat StructDef.name ⟨name, some fields, params⟩ unknown, fun _ => rfl⟩
      cases unknown.symm.trans found
    · rename_i known found
      split at h
      · cases h
      · rename_i incomplete
        cases h
        refine ⟨free, fun again => ?_, fun other => ?_, fun _ => rfl⟩
        · rw [found] at again
          cases again
          simpa [StructDef.isComplete] using incomplete
        · split
          · rename_i same
            subst same
            exact find?_replacement ⟨other, some fields, params⟩ (Option.isSome_of_mem found)
          · rename_i differ
            exact find?_replaced types.structs ⟨name, some fields, params⟩ differ

/-- A struct is given its body wherever the name has no enum and no struct with a body. -/
theorem defineStruct_accepted (params : List String) (fields : List Field)
    (free : types.enum? name = none)
    (incomplete : ∀ {struct}, types.struct? name = some struct → struct.fields? = none) :
    ∃ later, types.defineStruct name params fields = .ok later := by
  unfold defineStruct
  cases known : types.struct? name with
  | none => simp [free]
  | some struct => simp [free, StructDef.isComplete, incomplete known]

/-- What was so when an enum was defined, and what is so after it. -/
structure EnumDefined (types later : Registry) (enum : EnumDef) : Prop where
  noStruct : types.struct? enum.name = none
  noEnum : types.enum? enum.name = none
  struct : ∀ other, later.struct? other = types.struct? other
  enum : ∀ other, later.enum? other =
    if other = enum.name then some enum else types.enum? other

theorem defineEnum_eq_ok {underlying : Primitive} {members : List (String × Int)}
    (h : types.defineEnum name underlying members = .ok later) :
    EnumDefined types later ⟨name, underlying, members⟩ := by
  unfold defineEnum at h
  split at h
  · cases h
  · split at h
    · cases h
    · rename_i free
      obtain ⟨noEnum, noStruct⟩ : types.enum? name = none ∧ types.struct? name = none := by
        simpa using free
      cases h
      exact ⟨noStruct, noEnum, fun _ => rfl,
        find?_concat EnumDef.name ⟨name, underlying, members⟩ noEnum⟩

/-- The registry after a registration; a refused one changes nothing. -/
def performed (types : Registry) (registration : Registration) : Registry :=
  match registration.register types with
  | .ok later => later
  | .error _ => types

def after (types : Registry) (registrations : List Registration) : Registry :=
  registrations.foldl performed types

/-- The name is both a struct and an enum. -/
def Ambiguous (types : Registry) (name : String) : Prop :=
  (types.struct? name).isSome ∧ (types.enum? name).isSome

/-- A name gets its second meaning only from the declaration of a struct over an enum. -/
theorem ambiguous_performed (types : Registry) (registration : Registration) (name : String) :
    (types.performed registration).Ambiguous name ↔ types.Ambiguous name ∨
      registration = .declareStruct name ∧ (types.enum? name).isSome := by
  cases registration with
  | declareStruct declared =>
    simp only [performed, Registration.register, Ambiguous, struct?_declareStruct,
      enum?_declareStruct, Registration.declareStruct.injEq]
    split
    · rename_i same
      simp [same]
    · rename_i differ
      simp [Ne.symm differ]
  | defineStruct defined params fields =>
    simp only [performed, Registration.register, reduceCtorEq, false_and, or_false]
    split
    · rename_i later accepted
      have change := defineStruct_eq_ok accepted
      rw [Ambiguous, change.struct, change.enum]
      split
      · rename_i same
        simp [Ambiguous, same, change.free]
      · rfl
    · rfl
  | defineEnum defined underlying members =>
    simp only [performed, Registration.register, reduceCtorEq, false_and, or_false]
    split
    · rename_i later accepted
      have change := defineEnum_eq_ok accepted
      rw [Ambiguous, change.struct, change.enum]
      split
      · rename_i same
        simp only [] at same
        simp [Ambiguous, same, change.noStruct]
      · rfl
    · rfl

/-- A struct beside an enum of its name has no body. -/
def Barren (types : Registry) (name : String) : Prop :=
  types.Ambiguous name → types.struct? name = some ⟨name, none, []⟩

theorem Barren.performed (h : types.Barren name) (registration : Registration) :
    (types.performed registration).Barren name := by
  intro clash
  cases registration with
  | declareStruct declared =>
    obtain ⟨isStruct, isEnum⟩ := clash
    simp only [Registry.performed, Registration.register] at isStruct isEnum ⊢
    rw [enum?_declareStruct] at isEnum
    rw [struct?_declareStruct] at isStruct ⊢
    by_cases same : name = declared
    · subst same
      rw [if_pos rfl]
      cases known : types.struct? name with
      | none => rfl
      | some struct => rw [← known, h ⟨Option.isSome_of_mem known, isEnum⟩]; rfl
    · rw [if_neg same] at isStruct ⊢
      exact h ⟨isStruct, isEnum⟩
  | defineStruct defined params fields =>
    have before := (ambiguous_performed types _ name).mp clash
    simp only [reduceCtorEq, false_and, or_false] at before
    simp only [Registry.performed, Registration.register]
    split
    · rename_i later accepted
      have change := defineStruct_eq_ok accepted
      -- an ambiguous name has an enum, so the body went to another one
      have differ : name ≠ defined := by
        rintro rfl
        simp [Ambiguous, change.free] at before
      rw [change.struct, if_neg differ]
      exact h before
    · exact h before
  | defineEnum defined underlying members =>
    have before := (ambiguous_performed types _ name).mp clash
    simp only [reduceCtorEq, false_and, or_false] at before
    simp only [Registry.performed, Registration.register]
    split
    · rename_i later accepted
      rw [(defineEnum_eq_ok accepted).struct]
      exact h before
    · exact h before

theorem after_snoc (types : Registry) (registrations : List Registration)
    (registration : Registration) :
    types.after (registrations ++ [registration]) =
      (types.after registrations).performed registration := by
  simp [after]

theorem Barren.after (h : types.Barren name) (registrations : List Registration) :
    (types.after registrations).Barren name := by
  induction registrations using List.reverseRecOn with
  | nil => exact h
  | append_singleton registrations registration ih =>
    rw [after_snoc]
    exact ih.performed registration

/-- Among the registrations a struct is declared under a name that is an enum at that point. -/
def DeclaredOverEnum (registrations : List Registration) (name : String) : Prop :=
  ∃ before rest, registrations = before ++ .declareStruct name :: rest ∧
    ((({} : Registry).after before).enum? name).isSome

theorem declaredOverEnum_snoc (registrations : List Registration) (registration : Registration)
    (name : String) :
    DeclaredOverEnum (registrations ++ [registration]) name ↔
      DeclaredOverEnum registrations name ∨
        registration = .declareStruct name ∧
          ((({} : Registry).after registrations).enum? name).isSome := by
  constructor
  · rintro ⟨before, rest, split, isEnum⟩
    obtain rfl | ⟨rest, last, rfl⟩ := rest.eq_nil_or_concat
    · obtain ⟨rfl, last⟩ := List.append_inj' split rfl
      exact .inr ⟨by simpa using last, isEnum⟩
    · rw [List.concat_eq_append, ← List.cons_append, ← List.append_assoc] at split
      exact .inl ⟨before, rest, (List.append_inj' split rfl).1, isEnum⟩
  · rintro (⟨before, rest, rfl, isEnum⟩ | ⟨rfl, isEnum⟩)
    · exact ⟨before, rest ++ [registration], by simp, isEnum⟩
    · exact ⟨registrations, [], rfl, isEnum⟩

theorem ambiguous_after (registrations : List Registration) (name : String) :
    (({} : Registry).after registrations).Ambiguous name ↔
      DeclaredOverEnum registrations name := by
  induction registrations using List.reverseRecOn with
  | nil => simp [after, Ambiguous, struct?, DeclaredOverEnum]
  | append_singleton registrations registration ih =>
    rw [after_snoc, ambiguous_performed, declaredOverEnum_snoc, ih]

/-- The name is a struct or an enum and not both, a bare mention of it finds the one that it is, and
a struct that has no body can get one. -/
structure Denotes (types : Registry) (name : String) : Prop where
  single : ¬types.Ambiguous name
  struct : types.named? name = some (.struct name) ↔ (types.struct? name).isSome
  enum : types.named? name = some (.enum name) ↔ (types.enum? name).isSome
  completes : ∀ struct, types.struct? name = some struct → struct.fields? = none →
    ∀ params fields, ∃ later, types.defineStruct name params fields = .ok later ∧
      later.struct? name = some ⟨name, some fields, params⟩

theorem denotes_of_single (single : ¬types.Ambiguous name) : types.Denotes name := by
  refine ⟨single, ?_, ?_, fun struct found body params fields => ?_⟩
  · unfold named?
    by_cases isEnum : (types.enum? name).isSome
    · have noStruct : ¬(types.struct? name).isSome := fun isStruct => single ⟨isStruct, isEnum⟩
      simp [isEnum, noStruct]
    · simp [isEnum, Option.isSome_iff_ne_none]
  · unfold named?
    by_cases isEnum : (types.enum? name).isSome
    · simp [isEnum]
    · by_cases isStruct : (types.struct? name).isSome <;> simp [isEnum, isStruct]
  · have free : types.enum? name = none := by
      by_contra taken
      exact single ⟨Option.isSome_of_mem found, Option.isSome_iff_ne_none.mpr taken⟩
    have incomplete {other} (again : types.struct? name = some other) : other.fields? = none := by
      rw [found] at again
      cases again
      exact body
    obtain ⟨later, accepted⟩ := defineStruct_accepted params fields free incomplete
    refine ⟨later, accepted, ?_⟩
    rw [(defineStruct_eq_ok accepted).struct, if_pos rfl]

/-- A type name denotes one thing, unless a struct was declared under the name of an enum. After any
registrations exactly the names of which that happened are both; such a name is found as the enum,
and its struct has no body and can get none. -/
theorem names_denote (registrations : List Registration) (name : String) :
    let types := ({} : Registry).after registrations
    (types.Ambiguous name ↔ DeclaredOverEnum registrations name) ∧
      (¬DeclaredOverEnum registrations name → types.Denotes name) ∧
      (DeclaredOverEnum registrations name →
        types.named? name = some (.enum name) ∧ types.struct? name = some ⟨name, none, []⟩ ∧
          ∀ params fields,
            types.defineStruct name params fields = .error (.duplicate name)) := by
  intro types
  have ambiguous : types.Ambiguous name ↔ DeclaredOverEnum registrations name :=
    ambiguous_after registrations name
  refine ⟨ambiguous, fun none => denotes_of_single (mt ambiguous.mp none), fun declared => ?_⟩
  have clash := ambiguous.mpr declared
  have start : ({} : Registry).Barren name := fun clash => by simp [Ambiguous, struct?] at clash
  have barren : types.Barren name := start.after registrations
  refine ⟨?_, barren clash, fun params fields => ?_⟩
  · rw [named?, if_pos clash.2]
  · rw [defineStruct]
    exact if_pos clash.2

/-- A struct that was declared keeps its name when an enum asks for it. -/
theorem refused_enum_denotes :
    (({} : Registry).after [.declareStruct "s", .defineEnum "s" .int []]).Denotes "s" := by
  refine (names_denote [.declareStruct "s", .defineEnum "s" .int []] "s").2.1 ?_
  rw [← (names_denote _ _).1]
  simp only [Ambiguous]
  decide

/-- The declaration of a struct over an enum is accepted. The name is then both; it is found as the
enum, and the struct cannot be completed. -/
theorem enum_redeclared :
    ¬∀ registrations name, (({} : Registry).after registrations).Denotes name := by
  intro denotes
  have denoted := denotes [.defineEnum "e" .uint8 [], .declareStruct "e"] "e"
  refine denoted.single ?_
  simp only [Ambiguous]
  decide

end Registry
end FormLowering
