import Mathlib
import FormLowering.Proofs.Ty.Struct

/-!
Bounds of measurements. Sizes and offsets are checked to be 64-bit words, except for the sizes of
scalars, which the target gives, like all alignments.
-/

namespace FormLowering

theorem Ty.scalar_of_shape {types : Registry} {target : Target} {ty : Ty} {size alignment : Nat}
    (h : ty.shape types target = .ok (.scalar size alignment)) :
    (∃ kind, target.scalarSize? kind = some size ∧ target.scalarAlignment? kind = some alignment) ∨
      size = target.pointerBytes ∧ alignment = target.pointerAlignment := by
  have scalar {kind : Primitive} (known : target.scalar ty kind = .ok (.scalar size alignment)) :
      ∃ kind, target.scalarSize? kind = some size ∧
        target.scalarAlignment? kind = some alignment := by
    unfold Target.scalar at known
    split at known
    · rename_i hsize halignment
      cases known
      exact ⟨kind, hsize, halignment⟩
    · cases known
  cases ty with
  | primitive kind => exact .inl (scalar h)
  | pointer => cases h; exact .inr ⟨rfl, rfl⟩
  | array | param => cases h
  | struct name =>
    simp only [Ty.shape] at h
    split at h
    · cases h
    · split at h
      · cases h
      · split at h <;> cases h
  | enum name =>
    simp only [Ty.shape] at h
    split at h
    · cases h
    · exact .inl (scalar h)

/-- No scalar of a known platform is larger than sixteen bytes. -/
theorem Target.scalar_le {types : Registry} {target : Target} (preset : target ∈ Target.presets)
    {ty : Ty} {size alignment : Nat} (h : ty.shape types target = .ok (.scalar size alignment)) :
    size ≤ 16 ∧ alignment ≤ 16 := by
  have scalars : ∀ target ∈ Target.presets, ∀ kind ∈ Primitive.all,
      ∀ size ∈ target.scalarSize? kind, ∀ alignment ∈ target.scalarAlignment? kind,
        size ≤ 16 ∧ alignment ≤ 16 := by decide
  have pointers : ∀ target ∈ Target.presets,
      target.pointerBytes ≤ 16 ∧ target.pointerAlignment ≤ 16 := by decide
  rcases Ty.scalar_of_shape h with ⟨kind, hsize, halignment⟩ | ⟨rfl, rfl⟩
  · exact scalars target preset kind (Primitive.mem_all kind) size hsize alignment halignment
  · exact pointers target preset

namespace Layout

variable {types : Registry} {target : Target} {bound n : Nat}

theorem greatest_le {alignmentOf : Ty → Except LayoutError Nat} {fields : List Ty} {least : Nat}
    (each : ∀ field ∈ fields, ∀ n, alignmentOf field = .ok n → n ≤ bound) (start : least ≤ bound)
    (h : greatest alignmentOf fields least = .ok n) : n ≤ bound := by
  induction fields generalizing least with
  | nil =>
    cases h
    exact start
  | cons field rest ih =>
    obtain ⟨first, each⟩ := List.forall_mem_cons.mp each
    obtain ⟨alignment, measured, h⟩ := Except.bind_eq_ok.mp h
    exact ih each (max_le start (first alignment measured)) h

/-- An alignment is that of some scalar, or one. -/
theorem directAlignment_le (one : 1 ≤ bound)
    (scalars : ∀ {ty : Ty} {size alignment : Nat},
      ty.shape types target = .ok (.scalar size alignment) → alignment ≤ bound)
    {busy : List Ty} {ty : Ty} (h : directAlignment types target busy ty = .ok n) : n ≤ bound := by
  induction busy, ty using @descent types target generalizing n with
  | step busy ty ih =>
    obtain ⟨fresh, shape, known, measured⟩ := directAlignment_eq_ok.mp h
    cases shape with
    | scalar size alignment =>
      cases measured
      exact scalars known
    | array length element => exact ih fresh element ⟨_, known, List.mem_singleton.mpr rfl⟩ measured
    | record fields =>
      exact greatest_le (fun field mem _ answer => ih fresh field ⟨_, known, mem⟩ answer) one
        measured

end Layout

/-- On a known platform every measurement is a 64-bit word. -/
theorem LayoutQuery.direct_lt {types : Registry} {target : Target}
    (preset : target ∈ Target.presets) {query : LayoutQuery} {n : Nat}
    (h : query.direct types target = .ok n) : n < 2 ^ 64 := by
  cases query with
  | alignment ty =>
    have := Layout.directAlignment_le (by decide) (fun known => (Target.scalar_le preset known).2) h
    omega
  | size ty =>
    by_cases scalar : ∃ n m, ty.shape types target = .ok (.scalar n m)
    · obtain ⟨size, alignment, known⟩ := scalar
      obtain ⟨-, shape, known', measured⟩ := Layout.directSize_eq_ok.mp h
      cases known.symm.trans known'
      cases measured
      have := (Target.scalar_le preset known).1
      omega
    · exact Layout.directSize_lt h fun n m known => scalar ⟨n, m, known⟩
  | fieldOffset ty index =>
    obtain ⟨shape, known, h⟩ := Except.bind_eq_ok.mp h
    cases shape with
    | scalar | array => cases h
    | record fields => exact Layout.offsetIn_lt h

end FormLowering
