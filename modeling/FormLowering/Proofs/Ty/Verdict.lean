import FormLowering.Proofs.Ty.Bound
import FormLowering.Proofs.Ty.Naming

/-!
When a type has a layout. A query walks the types that are stored in a type, and fails only for a
fault of one of them: it is void or open, it has no definition, it holds itself, or it is too large.
The reports of a failure are true, and every such fault makes the query fail.
-/

namespace FormLowering

open Placement

/-- The type has the fault. A record is already too large if its leading fields are. -/
inductive LayoutFault.Holds (types : Registry) (target : Target) : LayoutFault → Ty → Prop
  | incomplete {name : String} {struct : StructDef} : types.struct? name = some struct →
      struct.fields? = none → Holds types target .incomplete (.struct name)
  | generic {name : String} {struct : StructDef} : types.struct? name = some struct →
      struct.isGeneric = true → Holds types target .generic (.struct name)
  | param (name : String) : Holds types target .generic (.param name)
  | noStruct {name : String} : types.struct? name = none →
      Holds types target .unknown (.struct name)
  | noEnum {name : String} : types.enum? name = none → Holds types target .unknown (.enum name)
  | unsized : Holds types target .unsized .void
  | recursive {ty : Ty} : Relation.TransGen (Ty.Stores types target) ty ty →
      Holds types target .recursive ty
  | tooLarge {ty : Ty} {size alignment : Nat} : ty.Occupies types target size alignment →
      2 ^ 64 ≤ size → Holds types target .tooLarge ty
  | leading {ty : Ty} {fields rest : List Ty} {places : List Placement} {finish : Nat} :
      ty.shape types target = .ok (.record (fields ++ rest)) →
      List.Forall₂ (fun field place =>
        field.Occupies types target place.size place.alignment) fields places →
      Packed 0 places finish → 2 ^ 64 ≤ finish → Holds types target .tooLarge ty

/-- Nothing that the type stores, at any depth, has a fault other than its size. -/
def Ty.Measurable (types : Registry) (target : Target) (ty : Ty) : Prop :=
  ∀ part, ty.Reaches types target part → ∀ fault : LayoutFault, fault.Holds types target part →
    fault = .tooLarge

/-- The alignment of every scalar is at least one, and the size is a 64-bit word. -/
structure Target.Aligned (target : Target) : Prop where
  scalar : ∀ {kind : Primitive} {size alignment : Nat}, target.scalarSize? kind = some size →
    target.scalarAlignment? kind = some alignment → 0 < alignment ∧ size < 2 ^ 64
  pointer : 0 < target.pointerAlignment ∧ target.pointerBytes < 2 ^ 64

/-- So it is on the known platforms. -/
theorem Target.aligned_of_mem_presets {target : Target} (mem : target ∈ Target.presets) :
    target.Aligned := by
  have scalars : ∀ target ∈ Target.presets, ∀ kind ∈ Primitive.all,
      ∀ size ∈ target.scalarSize? kind, ∀ alignment ∈ target.scalarAlignment? kind,
        0 < alignment ∧ size < 2 ^ 64 := by decide
  have pointers : ∀ target ∈ Target.presets,
      0 < target.pointerAlignment ∧ target.pointerBytes < 2 ^ 64 := by decide
  exact ⟨fun {kind size alignment} hsize halignment =>
    scalars target mem kind (Primitive.mem_all kind) size hsize alignment halignment,
    pointers target mem⟩

/-! ## Shapes -/

/-- Every enum is over an integer kind. -/
def Registry.Integral (types : Registry) : Prop :=
  ∀ name enum, types.enum? name = some enum → enum.underlying.isInteger = true

namespace Registry

variable {types : Registry}

theorem Integral.performed (h : types.Integral) (registration : Registration) :
    (types.performed registration).Integral := by
  unfold Registry.performed
  split
  · rename_i later accepted
    intro other enum found
    cases registration with
    | declareStruct name =>
      cases accepted
      exact h other enum ((enum?_declareStruct types name other).symm.trans found)
    | defineStruct name params fields =>
      exact h other enum (((defineStruct_eq_ok accepted).enum other).symm.trans found)
    | defineEnum name underlying members =>
      rw [(defineEnum_eq_ok accepted).enum] at found
      split at found
      · cases found
        change types.defineEnum name underlying members = .ok later at accepted
        unfold Registry.defineEnum at accepted
        split at accepted
        · cases accepted
        · rename_i integer
          simpa using integer
      · exact h other enum found
  · exact h

theorem integral_after (registrations : List Registration) :
    (Registry.after {} registrations).Integral := by
  induction registrations using List.reverseRecOn with
  | nil => exact nofun
  | append_singleton registrations registration ih =>
    rw [after_snoc]
    exact ih.performed registration

end Registry

section Shapes

variable {types : Registry} {target : Target} {ty : Ty} {error : LayoutError}

/-- Only void has no width. -/
theorem Target.void_of_scalar {kind : Primitive} (h : target.scalar ty kind = .error error) :
    kind = .void ∧ error = ⟨.unsized, ty⟩ := by
  have measured (other : kind ≠ .void) : ∃ size alignment, target.scalarSize? kind = some size ∧
      target.scalarAlignment? kind = some alignment := by
    obtain ⟨bits, width⟩ : ∃ bits, target.bitWidth? kind = some bits := by
      apply Option.isSome_iff_exists.mp
      cases kind with
      | void => exact absurd rfl other
      | longDouble =>
        unfold bitWidth?
        dsimp only
        split <;> rfl
      | _ => rfl
    obtain ⟨size, hsize⟩ : ∃ size, target.scalarSize? kind = some size := by
      unfold scalarSize?
      split
      · exact ⟨_, rfl⟩
      · exact ⟨_, by rw [width]; rfl⟩
    refine ⟨size, ?_⟩
    unfold scalarAlignment?
    split
    · exact ⟨_, hsize, rfl⟩
    · exact ⟨_, hsize, by rw [hsize]; rfl⟩
  unfold Target.scalar at h
  split at h
  · cases h
  · rename_i unsized
    cases h
    refine ⟨?_, rfl⟩
    by_contra other
    obtain ⟨size, alignment, hsize, halignment⟩ := measured other
    exact unsized size alignment hsize halignment

/-- A type without a shape has a fault of its own. -/
theorem Ty.holds_of_shape (integral : types.Integral) (h : ty.shape types target = .error error) :
    error.ty = ty ∧ error.fault.Holds types target ty ∧ error.fault ≠ .tooLarge := by
  cases ty with
  | primitive kind =>
    obtain ⟨rfl, rfl⟩ := Target.void_of_scalar h
    exact ⟨rfl, .unsized, by simp⟩
  | pointer | array => cases h
  | struct name =>
    simp only [Ty.shape] at h
    split at h
    · rename_i missing
      cases h
      exact ⟨rfl, .noStruct missing, by simp⟩
    · rename_i struct found
      split at h
      · rename_i generic
        cases h
        exact ⟨rfl, .generic found generic, by simp⟩
      · split at h
        · rename_i bare
          cases h
          exact ⟨rfl, .incomplete found bare, by simp⟩
        · cases h
  | enum name =>
    simp only [Ty.shape] at h
    split at h
    · rename_i missing
      cases h
      exact ⟨rfl, .noEnum missing, by simp⟩
    · rename_i enum found
      obtain ⟨void, -⟩ := Target.void_of_scalar h
      have integer := integral name enum found
      rw [void] at integer
      cases integer
  | param name =>
    cases h
    exact ⟨rfl, .param name, by simp⟩

/-- A type whose parts all have shapes has no fault but its size. -/
theorem Ty.Grounded.tooLarge (grounded : ty.Grounded types target) {fault : LayoutFault}
    (h : fault.Holds types target ty) : fault = .tooLarge := by
  have shaped : ∃ shape, ty.shape types target = .ok shape := by
    cases grounded with
    | intro known => exact ⟨_, known⟩
  obtain ⟨shape, known⟩ := shaped
  cases h with
  | incomplete found bare =>
    simp only [Ty.shape, found, bare] at known
    split at known <;> cases known
  | generic found generic => simp [Ty.shape, found, generic] at known
  | param => cases known
  | noStruct missing => simp [Ty.shape, missing] at known
  | noEnum missing => simp [Ty.shape, missing] at known
  | unsized => cases known
  | recursive cycle => exact absurd cycle grounded.acyclic
  | tooLarge | leading => rfl

theorem Ty.Grounded.measurable (grounded : ty.Grounded types target) : ty.Measurable types target :=
  fun _ reaches _ holds => (grounded.reaches reaches).tooLarge holds

theorem Target.Aligned.of_shape (aligned : target.Aligned) {size alignment : Nat}
    (known : ty.shape types target = .ok (.scalar size alignment)) :
    0 < alignment ∧ size < 2 ^ 64 := by
  rcases Ty.scalar_of_shape known with ⟨kind, hsize, halignment⟩ | ⟨rfl, rfl⟩
  · exact aligned.scalar hsize halignment
  · exact aligned.pointer

end Shapes

/-! ## Failures -/

theorem Except.bind_eq_error {ε α β : Type} {x : Except ε α} {f : α → Except ε β} {e : ε} :
    (x >>= f) = .error e ↔ x = .error e ∨ ∃ a, x = .ok a ∧ f a = .error e := by
  cases x with
  | error => simp [bind, Except.bind]
  | ok a => simp [bind, Except.bind]

namespace Layout

section Fields

variable {ty : Ty} {alignmentOf sizeOf : Ty → Except LayoutError Nat} {fields : List Ty}
  {offset least n : Nat} {error : LayoutError}

theorem checked_eq_error (h : checked ty n = .error error) :
    error = ⟨.tooLarge, ty⟩ ∧ 2 ^ 64 ≤ n := by
  unfold checked at h
  split at h
  · cases h
  · rename_i large
    cases h
    exact ⟨rfl, Nat.le_of_not_lt large⟩

theorem aligned_eq_error {alignment : Nat} (pos : 0 < alignment)
    (h : aligned ty offset alignment = .error error) :
    error = ⟨.tooLarge, ty⟩ ∧ LeastMultiple alignment offset (roundUp offset alignment) ∧
      2 ^ 64 ≤ roundUp offset alignment := by
  have least : LeastMultiple alignment offset (roundUp offset alignment) := roundUp_isLeast pos
  rw [aligned_of_least pos least] at h
  exact ⟨(checked_eq_error h).1, least, (checked_eq_error h).2⟩

theorem greatest_eq_error (h : greatest alignmentOf fields least = .error error) :
    ∃ field ∈ fields, alignmentOf field = .error error := by
  induction fields generalizing least with
  | nil => cases h
  | cons field rest ih =>
    rcases Except.bind_eq_error.mp h with here | ⟨_, _, later⟩
    · exact ⟨field, List.mem_cons_self, here⟩
    · obtain ⟨other, mem, failed⟩ := ih later
      exact ⟨other, List.mem_cons_of_mem _ mem, failed⟩

theorem le_greatest (h : greatest alignmentOf fields least = .ok n) : least ≤ n := by
  induction fields generalizing least with
  | nil =>
    cases h
    exact le_rfl
  | cons field rest ih =>
    obtain ⟨alignment, -, h⟩ := Except.bind_eq_ok.mp h
    exact (le_max_left _ _).trans (ih h)

/-- Where the fields are too large: up to some field, or with the padding at the end. -/
inductive Overflows (alignmentOf sizeOf : Ty → Except LayoutError Nat) (fields : List Ty)
    (offset least : Nat) : Prop
  | leading {front rest : List Ty} {places : List Placement} {finish : Nat} :
      fields = front ++ rest → List.Forall₂ (Measures alignmentOf sizeOf) front places →
      Packed offset places finish → 2 ^ 64 ≤ finish → Overflows alignmentOf sizeOf fields offset least
  | padding {places : List Placement} {finish n : Nat} :
      List.Forall₂ (Measures alignmentOf sizeOf) fields places → Packed offset places finish →
      LeastMultiple (places.foldl (fun greatest place => max greatest place.alignment) least)
        finish n → 2 ^ 64 ≤ n → Overflows alignmentOf sizeOf fields offset least

theorem Overflows.cons {field : Ty} {place : Placement}
    (measures : Measures alignmentOf sizeOf field place)
    (here : LeastMultiple place.alignment offset place.offset)
    (h : Overflows alignmentOf sizeOf fields place.finish (max least place.alignment)) :
    Overflows alignmentOf sizeOf (field :: fields) offset least := by
  cases h with
  | leading split measured packed large =>
    subst split
    exact .leading rfl (.cons measures measured) (.cons here packed) large
  | padding measured packed padded large =>
    exact .padding (.cons measures measured) (.cons here packed) padded large

/-- A record fails for a failure of a field, or because it is too large itself. -/
theorem extent_eq_error (positive : ∀ field ∈ fields, ∀ n, alignmentOf field = .ok n → 0 < n)
    (pos : 0 < least) (h : extent ty alignmentOf sizeOf fields offset least = .error error) :
    (∃ field ∈ fields, alignmentOf field = .error error ∨ sizeOf field = .error error) ∨
      error = ⟨.tooLarge, ty⟩ ∧ Overflows alignmentOf sizeOf fields offset least := by
  induction fields generalizing offset least with
  | nil =>
    obtain ⟨rfl, padded, large⟩ := aligned_eq_error pos h
    exact .inr ⟨rfl, .padding .nil .nil padded large⟩
  | cons field rest ih =>
    have split : field :: rest = [field] ++ rest := rfl
    obtain ⟨first, positive⟩ := List.forall_mem_cons.mp positive
    rcases Except.bind_eq_error.mp h with failed | ⟨alignment, halignment, h⟩
    · exact .inl ⟨field, List.mem_cons_self, .inl failed⟩
    rcases Except.bind_eq_error.mp h with failed | ⟨size, hsize, h⟩
    · exact .inl ⟨field, List.mem_cons_self, .inr failed⟩
    have measures (start : Nat) : Measures alignmentOf sizeOf field ⟨start, size, alignment⟩ :=
      ⟨halignment, first alignment halignment, hsize⟩
    rcases Except.bind_eq_error.mp h with failed | ⟨start, placed, h⟩
    · obtain ⟨rfl, here, large⟩ := aligned_eq_error (first alignment halignment) failed
      refine .inr ⟨rfl, .leading split (.cons (measures _) .nil) (.cons here .nil) ?_⟩
      exact large.trans (Nat.le_add_right _ _)
    obtain ⟨-, -, here⟩ := aligned_eq_ok.mp placed
    rcases Except.bind_eq_error.mp h with failed | ⟨finish, fits, h⟩
    · obtain ⟨rfl, large⟩ := checked_eq_error failed
      exact .inr ⟨rfl, .leading split (.cons (measures start) .nil) (.cons here .nil) large⟩
    obtain ⟨-, rfl⟩ := checked_eq_ok.mp fits
    rcases ih positive (pos.trans_le (le_max_left _ _)) h with ⟨other, mem, failed⟩ | ⟨rfl, large⟩
    · exact .inl ⟨other, List.mem_cons_of_mem _ mem, failed⟩
    · exact .inr ⟨rfl, large.cons (measures start) here⟩

end Fields

section Queries

variable {types : Registry} {target : Target} {busy : List Ty} {ty : Ty} {n : Nat}
  {error : LayoutError}

/-- What a failed query names is stored in the type, or is the type, and has the fault. -/
def Blames (types : Registry) (target : Target) (ty : Ty) (error : LayoutError) : Prop :=
  ty.Reaches types target error.ty ∧ error.fault.Holds types target error.ty

theorem Blames.stores {part : Ty} (h : Blames types target part error)
    (stores : ty.Stores types target part) : Blames types target ty error :=
  ⟨h.1.head stores, h.2⟩

theorem Blames.of_eq (h : error.ty = ty ∧ error.fault.Holds types target ty) :
    Blames types target ty error :=
  ⟨h.1 ▸ .refl, h.1 ▸ h.2⟩

theorem directAlignment_pos (aligned : target.Aligned)
    (h : directAlignment types target busy ty = .ok n) : 0 < n := by
  induction busy, ty using @descent types target generalizing n with
  | step busy ty ih =>
    obtain ⟨fresh, shape, known, measured⟩ := directAlignment_eq_ok.mp h
    cases shape with
    | scalar size alignment =>
      cases measured
      exact (aligned.of_shape known).1
    | array length element => exact ih fresh element ⟨_, known, List.mem_singleton.mpr rfl⟩ measured
    | record fields => exact le_greatest measured

theorem blames_of_alignment (integral : types.Integral) (below : ty.Below types target busy)
    (h : directAlignment types target busy ty = .error error) :
    Blames types target ty error ∧ error.fault ≠ .tooLarge := by
  induction busy, ty using @descent types target with
  | step busy ty ih =>
    rw [directAlignment_eq] at h
    split at h
    · rename_i met
      cases h
      exact ⟨.of_eq ⟨rfl, .recursive (below ty met)⟩, nofun⟩
    rename_i fresh
    have failed {part : Ty} (stores : ty.Stores types target part)
        (h : directAlignment types target (ty :: busy) part = .error error) :
        Blames types target ty error ∧ error.fault ≠ .tooLarge :=
      have part := ih fresh part stores (below.stores stores) h
      ⟨part.1.stores stores, part.2⟩
    rcases Except.bind_eq_error.mp h with shapeless | ⟨shape, known, h⟩
    · obtain ⟨named, holds, other⟩ := Ty.holds_of_shape integral shapeless
      exact ⟨.of_eq ⟨named, holds⟩, other⟩
    cases shape with
    | scalar => cases h
    | array length element => exact failed ⟨_, known, List.mem_singleton.mpr rfl⟩ h
    | record fields =>
      obtain ⟨field, mem, h⟩ := greatest_eq_error h
      exact failed ⟨_, known, mem⟩ h

/-- What is measured of a field is exact. -/
theorem Measures.occupies {field : Ty} {place : Placement}
    (h : Measures (directAlignment types target busy) (directSize types target busy) field place) :
    field.Occupies types target place.size place.alignment := by
  obtain ⟨halignment, _, hsize⟩ := h
  obtain ⟨alignment, halignment', occupies⟩ := occupies_of_size hsize
  cases halignment.symm.trans halignment'
  exact occupies

/-- A record whose fields overflow is too large. -/
theorem Overflows.holds {fields : List Ty} (known : ty.shape types target = .ok (.record fields))
    (h : Overflows (directAlignment types target busy) (directSize types target busy) fields 0 1) :
    LayoutFault.Holds types target .tooLarge ty := by
  cases h with
  | leading split measured packed large =>
    subst split
    exact .leading known (measured.imp fun _ _ measures => measures.occupies) packed large
  | @padding places finish n measured packed padded large =>
    have positive := Measures.positive measured
    obtain ⟨count, measured⟩ := List.forall₂_iff_zip.mp measured
    refine .tooLarge (.record known count (fun field place mem => ?_) packed ?_ padded) large
    · exact (measured mem).occupies
    · exact (greatest_iff positive).mpr (foldl_max_isGreatest 1)

theorem blames_of_size (aligned : target.Aligned) (integral : types.Integral)
    (below : ty.Below types target busy)
    (h : directSize types target busy ty = .error error) : Blames types target ty error := by
  induction busy, ty using @descent types target with
  | step busy ty ih =>
    rw [directSize_eq] at h
    split at h
    · rename_i met
      cases h
      exact .of_eq ⟨rfl, .recursive (below ty met)⟩
    rename_i fresh
    have failed {part : Ty} (stores : ty.Stores types target part)
        (h : directSize types target (ty :: busy) part = .error error) :
        Blames types target ty error :=
      (ih fresh part stores (below.stores stores) h).stores stores
    rcases Except.bind_eq_error.mp h with shapeless | ⟨shape, known, h⟩
    · obtain ⟨named, holds, -⟩ := Ty.holds_of_shape integral shapeless
      exact .of_eq ⟨named, holds⟩
    cases shape with
    | scalar => cases h
    | array length element =>
      have stores : ty.Stores types target element := ⟨_, known, List.mem_singleton.mpr rfl⟩
      rcases Except.bind_eq_error.mp h with h | ⟨size, measured, unfit⟩
      · exact failed stores h
      · obtain ⟨rfl, large⟩ := checked_eq_error unfit
        obtain ⟨alignment, -, occupies⟩ := occupies_of_size measured
        rw [Nat.mul_comm] at large
        exact .of_eq ⟨rfl, .tooLarge (.array known occupies) large⟩
    | record fields =>
      have positive (field : Ty) (_ : field ∈ fields) (n : Nat)
          (h : directAlignment types target (ty :: busy) field = .ok n) : 0 < n :=
        directAlignment_pos aligned h
      rcases extent_eq_error positive Nat.one_pos h with ⟨field, mem, h | h⟩ | ⟨rfl, overflows⟩
      · have stores : ty.Stores types target field := ⟨_, known, mem⟩
        exact (blames_of_alignment integral (below.stores stores) h).1.stores stores
      · exact failed ⟨_, known, mem⟩ h
      · exact .of_eq ⟨rfl, overflows.holds known⟩

end Queries

end Layout

/-! ## Exact layouts -/

theorem Placement.Packed.append {offset middle finish : Nat} {places more : List Placement}
    (h : Packed offset places middle) (rest : Packed middle more finish) :
    Packed offset (places ++ more) finish := by
  induction h with
  | nil => exact rest
  | cons least _ ih => exact .cons least (ih rest)

namespace Ty

variable {types : Registry} {target : Target} {ty : Ty}

/-- Fields of exact layouts can be placed from any offset on. -/
theorem exists_packed (aligned : target.Aligned) {fields : List Ty}
    (each : ∀ field ∈ fields, ∃ size alignment, field.Occupies types target size alignment)
    (offset : Nat) : ∃ places finish, List.Forall₂ (fun field place =>
      field.Occupies types target place.size place.alignment) fields places ∧
      Packed offset places finish := by
  induction fields generalizing offset with
  | nil => exact ⟨[], offset, .nil, .nil⟩
  | cons field rest ih =>
    obtain ⟨⟨size, alignment, occupies⟩, each⟩ := List.forall_mem_cons.mp each
    have pos := occupies.positive fun known => (aligned.of_shape known).1
    let place : Placement := ⟨Layout.roundUp offset alignment, size, alignment⟩
    obtain ⟨places, finish, measured, packed⟩ := ih each place.finish
    exact ⟨place :: places, finish, .cons occupies measured,
      .cons (Layout.roundUp_isLeast pos) packed⟩

/-- A record takes up at least the space of its leading fields. -/
theorem exists_occupies_of_leading (aligned : target.Aligned) {fields rest : List Ty}
    {places : List Placement} {finish : Nat}
    (known : ty.shape types target = .ok (.record (fields ++ rest)))
    (leading : List.Forall₂ (fun field place =>
      field.Occupies types target place.size place.alignment) fields places)
    (packed : Packed 0 places finish)
    (each : ∀ field ∈ rest, ∃ size alignment, field.Occupies types target size alignment) :
    ∃ size alignment, ty.Occupies types target size alignment ∧ finish ≤ size := by
  obtain ⟨more, last, following, packed'⟩ := exists_packed aligned each finish
  have whole := packed.append packed'
  have measured := List.rel_append leading following
  have positive (place : Placement) (mem : place ∈ places ++ more) : 0 < place.alignment := by
    obtain ⟨field, occupies⟩ := measured.exists_left place mem
    exact occupies.positive fun known => (aligned.of_shape known).1
  have greatest := (greatest_iff positive).mpr (foldl_max_isGreatest 1)
  have pos : 0 < (places ++ more).foldl (fun greatest place => max greatest place.alignment) 1 :=
    (foldl_max_isGreatest 1).2 (.inl rfl)
  obtain ⟨count, each⟩ := List.forall₂_iff_zip.mp measured
  exact ⟨_, _, .record known count (fun _ _ => each) whole greatest (Layout.roundUp_isLeast pos),
    packed'.le.trans Layout.roundUp_le⟩

/-- A grounded type has an exact layout. -/
theorem Grounded.exists_occupies (aligned : target.Aligned) (h : ty.Grounded types target) :
    ∃ size alignment, ty.Occupies types target size alignment := by
  induction h with
  | @intro ty shape known _ ih =>
    cases shape with
    | scalar size alignment => exact ⟨size, alignment, .scalar known⟩
    | array length element =>
      obtain ⟨size, alignment, occupies⟩ := ih element (List.mem_singleton.mpr rfl)
      exact ⟨_, _, .array known occupies⟩
    | record fields =>
      have split : ty.shape types target = .ok (.record ([] ++ fields)) := known
      obtain ⟨size, alignment, occupies, -⟩ := exists_occupies_of_leading aligned split .nil .nil ih
      exact ⟨size, alignment, occupies⟩

end Ty

namespace Layout

variable {types : Registry} {target : Target} {ty : Ty}

theorem size_of_reaches {part : Ty} {n : Nat} (h : directSize types target [] ty = .ok n)
    (reaches : ty.Reaches types target part) : ∃ m, directSize types target [] part = .ok m := by
  induction reaches with
  | refl => exact ⟨n, h⟩
  | tail _ stores ih =>
    obtain ⟨m, answer⟩ := ih
    obtain ⟨-, shape, known, measured⟩ := directSize_eq_ok.mp answer
    obtain ⟨shape', known', mem⟩ := stores
    cases known.symm.trans known'
    obtain ⟨size, answer⟩ := Shape.sizeBy_parts measured _ mem
    exact ⟨size, directSize_transfer (.refl types) answer .nil⟩

/-- No size that is answered exceeds 64 bits. -/
theorem directSize_fits (aligned : target.Aligned) {n : Nat}
    (h : directSize types target [] ty = .ok n) : n < 2 ^ 64 := by
  by_cases scalar : ∃ size alignment, ty.shape types target = .ok (.scalar size alignment)
  · obtain ⟨size, alignment, known⟩ := scalar
    obtain ⟨-, shape, known', measured⟩ := directSize_eq_ok.mp h
    cases known.symm.trans known'
    cases measured
    exact (aligned.of_shape known).2
  · exact directSize_lt h fun size alignment known => scalar ⟨size, alignment, known⟩

theorem alignment_answered_iff (integral : types.Integral) :
    (∃ n, directAlignment types target [] ty = .ok n) ↔ ty.Measurable types target := by
  constructor
  · rintro ⟨n, h⟩
    exact (grounded_of_alignment h).measurable
  · intro measurable
    cases h : directAlignment types target [] ty with
    | ok n => exact ⟨n, rfl⟩
    | error error =>
      obtain ⟨⟨reaches, holds⟩, other⟩ := blames_of_alignment integral .nil h
      exact absurd (measurable _ reaches _ holds) other

theorem size_answered_iff (aligned : target.Aligned) (integral : types.Integral) :
    (∃ n, directSize types target [] ty = .ok n) ↔ ty.Measurable types target ∧
      ∀ part, ty.Reaches types target part → ∀ size alignment,
        part.Occupies types target size alignment → size < 2 ^ 64 := by
  constructor
  · rintro ⟨n, h⟩
    refine ⟨(grounded_of_size h).measurable, fun part reaches size alignment occupies => ?_⟩
    obtain ⟨m, answer⟩ := size_of_reaches h reaches
    rcases (exact_of_positive (fun known => (aligned.of_shape known).1) occupies .nil).2 with
      exact' | ⟨blamed, refused⟩
    · exact directSize_fits aligned exact'
    · cases answer.symm.trans refused
  · rintro ⟨measurable, fit⟩
    obtain ⟨_, answered⟩ := (alignment_answered_iff integral).mpr measurable
    have grounded := grounded_of_alignment answered
    cases h : directSize types target [] ty with
    | ok n => exact ⟨n, rfl⟩
    | error error =>
      obtain ⟨reaches, holds⟩ := blames_of_size aligned integral .nil h
      have small := fit _ reaches
      have known := measurable _ reaches _ holds
      rw [known] at holds
      cases holds with
      | tooLarge occupies large => exact absurd (small _ _ occupies) (Nat.not_lt.mpr large)
      | leading shape measured packed large =>
        obtain ⟨size, alignment, occupies, le⟩ :=
          Ty.exists_occupies_of_leading aligned shape measured packed fun field mem =>
            ((grounded.reaches reaches).stores ⟨_, shape, List.mem_append_right _ mem⟩).exists_occupies
              aligned
        exact absurd (small _ _ occupies) (Nat.not_lt.mpr (large.trans le))

end Layout

/-- The verdict on a type, for any registry. Every query ends from an empty memo with nothing in
progress. An alignment is answered exactly where nothing that is stored in the type has a fault but
its size, and a size where it has no fault at all. A failure names something stored in the type, or
the type itself, that has the fault. -/
theorem LayoutQuery.verdict_exact {target : Target} (aligned : target.Aligned)
    (registrations : List Registration) :
    let types := Registry.after {} registrations
    let answer := LayoutSession.answer target { types }
    (∀ query, (LayoutSession.consult target { types } query).2.inProgress = []) ∧ ∀ ty : Ty,
      ((∃ n, answer (.alignment ty) = .ok n) ↔ ty.Measurable types target) ∧
      ((∃ n, answer (.size ty) = .ok n) ↔ ty.Measurable types target ∧
        ∀ part, ty.Reaches types target part → ∀ size alignment,
          part.Occupies types target size alignment → size < 2 ^ 64) ∧
      (∀ error, answer (.alignment ty) = .error error →
        Layout.Blames types target ty error ∧ error.fault ≠ .tooLarge) ∧
      ∀ error, answer (.size ty) = .error error → Layout.Blames types target ty error := by
  intro types answer
  have integral : types.Integral := Registry.integral_after registrations
  have settled := LayoutSession.settled_new target types
  have direct : answer = fun query => query.direct types target := funext settled.answer
  rw [direct]
  refine ⟨fun query => ?_, fun ty => ⟨Layout.alignment_answered_iff integral,
    Layout.size_answered_iff aligned integral, fun error => Layout.blames_of_alignment integral .nil,
    fun error => Layout.blames_of_size aligned integral .nil⟩⟩
  exact (settled.step (.ask query)).idle

/-- Two structs that hold each other through an array, and a struct that is one byte too large. -/
theorem mutual_structs_verdict :
    let types := Registry.after {} [.declareStruct "b",
      .defineStruct "a" [] [⟨"first", .char⟩, ⟨"parts", .array 3 (.struct "b")⟩],
      .defineStruct "b" [] [⟨"whole", .struct "a"⟩],
      .defineStruct "wide" [] [⟨"low", .array (2 ^ 63) .char⟩, ⟨"high", .array (2 ^ 63) .char⟩]]
    let answer := LayoutSession.answer .x86_64 { types }
    Target.x86_64.Aligned ∧
    answer (.size (.struct "b")) = .error ⟨.recursive, .struct "b"⟩ ∧
    Layout.Blames types .x86_64 (.struct "b") ⟨.recursive, .struct "b"⟩ ∧
    answer (.alignment (.struct "wide")) = .ok 1 ∧
    (Ty.struct "wide").Measurable types .x86_64 ∧
    answer (.size (.struct "wide")) = .error ⟨.tooLarge, .struct "wide"⟩ ∧
    Layout.Blames types .x86_64 (.struct "wide") ⟨.tooLarge, .struct "wide"⟩ := by
  intro types answer
  have aligned : Target.x86_64.Aligned := Target.aligned_of_mem_presets (by decide)
  obtain ⟨-, verdict⟩ := LayoutQuery.verdict_exact aligned [.declareStruct "b",
    .defineStruct "a" [] [⟨"first", .char⟩, ⟨"parts", .array 3 (.struct "b")⟩],
    .defineStruct "b" [] [⟨"whole", .struct "a"⟩],
    .defineStruct "wide" [] [⟨"low", .array (2 ^ 63) .char⟩, ⟨"high", .array (2 ^ 63) .char⟩]]
  have cyclic : answer (.size (.struct "b")) = .error ⟨.recursive, .struct "b"⟩ := by
    simp only [answer, types]
    cbv
  have one : answer (.alignment (.struct "wide")) = .ok 1 := by
    simp only [answer, types]
    cbv
  have wide : answer (.size (.struct "wide")) = .error ⟨.tooLarge, .struct "wide"⟩ := by
    simp only [answer, types]
    cbv
  exact ⟨aligned, cyclic, (verdict _).2.2.2 _ cyclic, one, (verdict _).1.mp ⟨1, one⟩, wide,
    (verdict _).2.2.2 _ wide⟩

end FormLowering
