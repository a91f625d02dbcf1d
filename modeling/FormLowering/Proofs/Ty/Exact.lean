import Mathlib.Data.List.Forall2
import FormLowering.Proofs.Ty.Placement
import FormLowering.Proofs.Ty.Session

/-!
The layout of C, on numbers without a bound, and the queries that compute it on 64-bit words. A
number that a query answers is the exact one; where an exact number does not fit, the answer says so.
-/

section Forall₂

variable {α β : Type} {R : α → β → Prop} {xs : List α} {ys : List β}

theorem List.Forall₂.exists_right (h : List.Forall₂ R xs ys) : ∀ x ∈ xs, ∃ y, R x y := by
  induction h with
  | nil => exact nofun
  | cons first _ ih => exact List.forall_mem_cons.mpr ⟨⟨_, first⟩, ih⟩

theorem List.Forall₂.exists_left (h : List.Forall₂ R xs ys) : ∀ y ∈ ys, ∃ x, R x y := by
  induction h with
  | nil => exact nofun
  | cons first _ ih => exact List.forall_mem_cons.mpr ⟨⟨_, first⟩, ih⟩

end Forall₂

namespace FormLowering

open Placement

/-- A value of a type takes up `size` bytes and is `alignment` bytes aligned. -/
inductive Ty.Occupies (types : Registry) (target : Target) : Ty → (size alignment : Nat) → Prop
  | scalar {ty : Ty} {size alignment : Nat}
    (known : ty.shape types target = .ok (.scalar size alignment)) :
    Occupies types target ty size alignment
  | array {ty element : Ty} {length size alignment : Nat}
    (known : ty.shape types target = .ok (.array length element))
    (each : Occupies types target element size alignment) :
    Occupies types target ty (length * size) alignment
  | record {ty : Ty} {fields : List Ty} {places : List Placement} {finish size alignment : Nat}
    (known : ty.shape types target = .ok (.record fields))
    (count : fields.length = places.length)
    (each : ∀ field place, (field, place) ∈ fields.zip places →
      Occupies types target field place.size place.alignment)
    (packed : Packed 0 places finish) (greatest : Greatest places alignment)
    (padded : LeastMultiple alignment finish size) : Occupies types target ty size alignment

/-- The alignment of every scalar is a power of two and divides the scalar's size. -/
structure Target.Proportioned (target : Target) : Prop where
  scalar : ∀ {kind : Primitive} {size alignment : Nat}, target.scalarSize? kind = some size →
    target.scalarAlignment? kind = some alignment → alignment.isPowerOfTwo ∧ alignment ∣ size
  pointer : target.pointerAlignment.isPowerOfTwo ∧ target.pointerAlignment ∣ target.pointerBytes

namespace Target.Proportioned

variable {types : Registry} {target : Target} {ty : Ty} {kind : Primitive} {size alignment : Nat}

theorem of_scalar (h : target.Proportioned)
    (known : target.scalar ty kind = .ok (.scalar size alignment)) :
    alignment.isPowerOfTwo ∧ alignment ∣ size := by
  unfold Target.scalar at known
  split at known
  · rename_i hsize halignment
    cases known
    exact h.scalar hsize halignment
  · cases known

theorem of_shape (h : target.Proportioned)
    (known : ty.shape types target = .ok (.scalar size alignment)) :
    alignment.isPowerOfTwo ∧ alignment ∣ size := by
  cases ty with
  | primitive kind => exact h.of_scalar known
  | pointer => cases known; exact h.pointer
  | array | param => cases known
  | struct name =>
    simp only [Ty.shape] at known
    split at known
    · cases known
    · split at known
      · cases known
      · split at known <;> cases known
  | enum name =>
    simp only [Ty.shape] at known
    split at known
    · cases known
    · exact h.of_scalar known

end Target.Proportioned

theorem isPowerOfTwo_of_mem {n : Nat} (h : n ∈ [1, 2, 4, 8, 16]) : n.isPowerOfTwo := by
  simp only [List.mem_cons, List.not_mem_nil, or_false] at h
  rcases h with rfl | rfl | rfl | rfl | rfl
  exacts [⟨0, rfl⟩, ⟨1, rfl⟩, ⟨2, rfl⟩, ⟨3, rfl⟩, ⟨4, rfl⟩]

/-- The known platforms are of the kind that the layout of C is about. -/
theorem Target.proportioned_of_mem_presets {target : Target} (mem : target ∈ Target.presets) :
    target.Proportioned := by
  have scalars : ∀ target ∈ Target.presets, ∀ kind ∈ Primitive.all,
      ∀ size ∈ target.scalarSize? kind, ∀ alignment ∈ target.scalarAlignment? kind,
        alignment ∈ [1, 2, 4, 8, 16] ∧ alignment ∣ size := by decide
  have pointers : ∀ target ∈ Target.presets, target.pointerAlignment ∈ [1, 2, 4, 8, 16] ∧
      target.pointerAlignment ∣ target.pointerBytes := by decide
  refine ⟨fun {kind size alignment} hsize halignment => ?_, ?_⟩
  · obtain ⟨power, divides⟩ := scalars target mem kind (Primitive.mem_all kind) size hsize alignment
      halignment
    exact ⟨isPowerOfTwo_of_mem power, divides⟩
  · obtain ⟨power, divides⟩ := pointers target mem
    exact ⟨isPowerOfTwo_of_mem power, divides⟩

namespace Ty.Occupies

variable {types : Registry} {target : Target} {ty : Ty} {size alignment : Nat}

theorem grounded (h : ty.Occupies types target size alignment) : ty.Grounded types target := by
  induction h with
  | scalar known => exact .intro known nofun
  | array known _ ih =>
    refine .intro known fun part mem => ?_
    exact List.mem_singleton.mp mem ▸ ih
  | record known count _ _ _ _ ih =>
    refine .intro known fun part mem => ?_
    have fields := List.forall₂_iff_zip.mpr ⟨count, fun {field place} => ih field place⟩
    exact (fields.exists_right part mem).choose_spec

/-- The alignment of a type is a power of two and divides the size, as it is with scalars. -/
theorem proportioned (regular : target.Proportioned)
    (h : ty.Occupies types target size alignment) : alignment.isPowerOfTwo ∧ alignment ∣ size := by
  induction h with
  | scalar known => exact regular.of_shape known
  | array known _ ih => exact ⟨ih.1, Nat.dvd_mul_left_of_dvd ih.2 _⟩
  | record known count _ _ greatest padded ih =>
    have fields := List.forall₂_iff_zip.mpr ⟨count, fun {field place} => ih field place⟩
    refine ⟨greatest.isPowerOfTwo fun place mem => ?_, padded.1.1⟩
    obtain ⟨field, power, _⟩ := fields.exists_left place mem
    exact power

/-- No alignment is zero if no scalar's is. -/
theorem positive (scalars : ∀ {ty : Ty} {size alignment : Nat},
      ty.shape types target = .ok (.scalar size alignment) → 0 < alignment)
    (h : ty.Occupies types target size alignment) : 0 < alignment := by
  induction h with
  | scalar known => exact scalars known
  | array _ _ ih => exact ih
  | record _ count _ _ greatest _ ih =>
    have fields := List.forall₂_iff_zip.mpr ⟨count, fun {field place} => ih field place⟩
    cases greatest with
    | none => exact Nat.one_pos
    | some greatest =>
      obtain ⟨place, mem, rfl⟩ := greatest.1
      obtain ⟨field, pos⟩ := fields.exists_left place mem
      exact pos

end Ty.Occupies

namespace Layout

section Fields

variable {ty : Ty} {alignmentOf sizeOf : Ty → Except LayoutError Nat} {fields : List Ty}
  {places : List Placement} {offset finish least n : Nat}

/-- A field is measured, and its placement says so. -/
def Measures (alignmentOf sizeOf : Ty → Except LayoutError Nat) (field : Ty) (place : Placement) :
    Prop :=
  alignmentOf field = .ok place.alignment ∧ 0 < place.alignment ∧ sizeOf field = .ok place.size

theorem greatest_eq_foldl
    (measured : List.Forall₂ (fun field place => alignmentOf field = .ok place.alignment) fields
      places) : greatest alignmentOf fields least =
        .ok (places.foldl (fun greatest place => max greatest place.alignment) least) := by
  induction measured generalizing least with
  | nil => rfl
  | cons first _ ih =>
    rw [greatest, first]
    exact ih

/-- The fields of a record that was measured have their places. -/
theorem exists_places_of_extent
    (h : extent ty alignmentOf sizeOf fields offset least = .ok n) :
    ∃ places finish, List.Forall₂ (Measures alignmentOf sizeOf) fields places ∧
      Packed offset places finish ∧
      aligned ty finish (places.foldl (fun greatest place => max greatest place.alignment) least) =
        .ok n := by
  induction fields generalizing offset least with
  | nil => exact ⟨[], offset, .nil, .nil, h⟩
  | cons field rest ih =>
    obtain ⟨alignment, size, start, finish, first, second, placed, fits, h⟩ := extent_cons.mp h
    obtain ⟨pos, _, least'⟩ := aligned_eq_ok.mp placed
    obtain ⟨_, rfl⟩ := checked_eq_ok.mp fits
    obtain ⟨places, finish, measured, packed, padded⟩ := ih h
    exact ⟨⟨start, size, alignment⟩ :: places, finish, .cons ⟨first, pos, second⟩ measured,
      .cons least' packed, padded⟩

theorem Measures.positive (measured : List.Forall₂ (Measures alignmentOf sizeOf) fields places) :
    ∀ place ∈ places, 0 < place.alignment := by
  intro place mem
  obtain ⟨field, _, pos, _⟩ := measured.exists_left place mem
  exact pos

/-- A record that was measured is packed, and padded to the alignment that is answered for it. -/
theorem exists_places_of_record (h : extent ty alignmentOf sizeOf fields 0 1 = .ok n) :
    ∃ places finish alignment, List.Forall₂ (Measures alignmentOf sizeOf) fields places ∧
      Packed 0 places finish ∧ greatest alignmentOf fields 1 = .ok alignment ∧
      Greatest places alignment ∧ LeastMultiple alignment finish n ∧ n < 2 ^ 64 := by
  obtain ⟨places, finish, measured, packed, padded⟩ := exists_places_of_extent h
  obtain ⟨_, fits, padded⟩ := aligned_eq_ok.mp padded
  exact ⟨places, finish, _, measured, packed,
    greatest_eq_foldl (measured.imp fun _ _ answers => answers.1),
    (greatest_iff (Measures.positive measured)).mpr (foldl_max_isGreatest 1), padded, fits⟩

/-- The loop of an offset query stops at the same places. -/
theorem offsetIn_eq_ok (measured : List.Forall₂ (Measures alignmentOf sizeOf) fields places)
    (packed : Packed offset places finish) (fits : finish < 2 ^ 64) {index : Nat} {place : Placement}
    (found : places[index]? = some place) :
    offsetIn ty alignmentOf sizeOf fields index offset = .ok place.offset := by
  induction measured generalizing offset index with
  | nil => cases found
  | @cons field first rest others answers measured ih =>
    obtain ⟨halignment, pos, hsize⟩ := answers
    have within := packed.within List.mem_cons_self
    cases packed with
    | cons least packed =>
      have start : aligned ty offset first.alignment = .ok first.offset :=
        aligned_eq_ok.mpr ⟨pos, (Nat.le_add_right _ _).trans_lt (within.2.trans_lt fits), least⟩
      have stop : checked ty (first.offset + first.size) = .ok first.finish :=
        checked_eq_ok.mpr ⟨within.2.trans_lt fits, rfl⟩
      refine Except.bind_eq_ok.mpr ⟨_, halignment, Except.bind_eq_ok.mpr ⟨_, start, ?_⟩⟩
      cases index with
      | zero => cases found; rfl
      | succ index =>
        refine Except.bind_eq_ok.mpr ⟨_, hsize, Except.bind_eq_ok.mpr ⟨_, stop, ?_⟩⟩
        exact ih packed found

end Fields

/-- An answer is an exact number, or it says that a number is too large. -/
def Exact (answer : Except LayoutError Nat) (n : Nat) : Prop :=
  answer = .ok n ∨ ∃ blamed, answer = .error ⟨.tooLarge, blamed⟩

namespace Exact

variable {answer : Except LayoutError Nat} {next : Nat → Except LayoutError Nat} {n m : Nat}

theorem bind (first : Exact answer n) (second : Exact (next n) m) : Exact (answer >>= next) m := by
  rcases first with rfl | ⟨blamed, rfl⟩
  · exact second
  · exact .inr ⟨blamed, rfl⟩

theorem checked (ty : Ty) (n : Nat) : Exact (checked ty n) n := by
  unfold Layout.checked
  split
  · exact .inl rfl
  · exact .inr ⟨ty, rfl⟩

theorem aligned (ty : Ty) {offset alignment : Nat} (pos : 0 < alignment)
    (least : LeastMultiple alignment offset n) : Exact (aligned ty offset alignment) n := by
  rw [aligned_of_least pos least]
  exact .checked ty n

/-- Where an exact number does not fit, there is no number. -/
theorem tooLarge (h : Exact answer n) (bounded : ∀ m, answer = .ok m → m < 2 ^ 64)
    (large : 2 ^ 64 ≤ n) : ∃ blamed, answer = .error ⟨.tooLarge, blamed⟩ :=
  h.resolve_left fun found => absurd (bounded n found) (by omega)

end Exact

section Fields

variable {ty : Ty} {alignmentOf sizeOf : Ty → Except LayoutError Nat} {fields : List Ty}
  {places : List Placement} {offset finish least n : Nat}

/-- A field's alignment is known, and its size is known or too large. -/
def MeasuresExactly (alignmentOf sizeOf : Ty → Except LayoutError Nat) (field : Ty)
    (place : Placement) : Prop :=
  alignmentOf field = .ok place.alignment ∧ 0 < place.alignment ∧ Exact (sizeOf field) place.size

theorem extent_exact (measured : List.Forall₂ (MeasuresExactly alignmentOf sizeOf) fields places)
    (packed : Packed offset places finish) (pos : 0 < least)
    (padded : LeastMultiple
      (places.foldl (fun greatest place => max greatest place.alignment) least) finish n) :
    Exact (extent ty alignmentOf sizeOf fields offset least) n := by
  induction measured generalizing offset least with
  | nil =>
    cases packed
    exact .aligned ty pos padded
  | @cons field place _ _ answers _ ih =>
    obtain ⟨halignment, positive, hsize⟩ := answers
    cases packed with
    | cons least packed =>
      rw [extent, halignment]
      refine hsize.bind ((Exact.aligned ty positive least).bind ?_)
      exact (Exact.checked ty _).bind (ih packed (pos.trans_le (le_max_left _ _)) padded)

theorem offsetIn_exact (measured : List.Forall₂ (MeasuresExactly alignmentOf sizeOf) fields places)
    (rest : List Ty) (packed : Packed offset places finish) {index : Nat} {place : Placement}
    (found : places[index]? = some place) :
    Exact (offsetIn ty alignmentOf sizeOf (fields ++ rest) index offset) place.offset := by
  induction measured generalizing offset index with
  | nil => cases found
  | @cons field first _ _ answers _ ih =>
    obtain ⟨halignment, positive, hsize⟩ := answers
    cases packed with
    | cons least packed =>
      rw [List.cons_append, offsetIn, halignment]
      refine (Exact.aligned ty positive least).bind ?_
      cases index with
      | zero => cases found; exact .inl rfl
      | succ index => exact hsize.bind ((Exact.checked ty _).bind (ih packed found))

theorem offsetIn_lt {index : Nat}
    (h : offsetIn ty alignmentOf sizeOf fields index offset = .ok n) : n < 2 ^ 64 := by
  induction fields generalizing index offset with
  | nil => cases h
  | cons field rest ih =>
    obtain ⟨_, _, h⟩ := Except.bind_eq_ok.mp h
    obtain ⟨start, placed, h⟩ := Except.bind_eq_ok.mp h
    cases index with
    | zero =>
      cases h
      exact (aligned_eq_ok.mp placed).2.1
    | succ index =>
      obtain ⟨_, _, h⟩ := Except.bind_eq_ok.mp h
      obtain ⟨_, _, h⟩ := Except.bind_eq_ok.mp h
      exact ih h

end Fields

/-! ## The answers for a type -/

variable {types : Registry} {target : Target} {busy : List Ty} {ty : Ty} {size alignment : Nat}

/-- A size that is answered is the exact one. -/
theorem occupies_of_size (h : directSize types target busy ty = .ok size) :
    ∃ alignment, directAlignment types target busy ty = .ok alignment ∧
      ty.Occupies types target size alignment := by
  induction busy, ty using @descent types target generalizing size with
  | step busy ty ih =>
    obtain ⟨fresh, shape, known, measured⟩ := directSize_eq_ok.mp h
    cases shape with
    | scalar _ alignment =>
      cases measured
      exact ⟨alignment, directAlignment_eq_ok.mpr ⟨fresh, _, known, rfl⟩, .scalar known⟩
    | array length element =>
      obtain ⟨each, answer, fits⟩ := Except.bind_eq_ok.mp measured
      obtain ⟨_, rfl⟩ := checked_eq_ok.mp fits
      have stores : ty.Stores types target element := ⟨_, known, List.mem_singleton.mpr rfl⟩
      obtain ⟨alignment, answer', occupies⟩ := ih fresh element stores answer
      refine ⟨alignment, directAlignment_eq_ok.mpr ⟨fresh, _, known, answer'⟩, ?_⟩
      rw [Nat.mul_comm]
      exact .array known occupies
    | record fields =>
      obtain ⟨places, finish, alignment, measured, packed, halignment, greatest, padded, _⟩ :=
        exists_places_of_record measured
      refine ⟨alignment, directAlignment_eq_ok.mpr ⟨fresh, _, known, halignment⟩, ?_⟩
      obtain ⟨count, measured⟩ := List.forall₂_iff_zip.mp measured
      refine .record known count (fun field place mem => ?_) packed greatest padded
      have stores : ty.Stores types target field := ⟨_, known, (List.of_mem_zip mem).1⟩
      obtain ⟨hfield, _, answer⟩ := measured mem
      obtain ⟨alignment, answer', occupies⟩ := ih fresh field stores answer
      cases hfield.symm.trans answer'
      exact occupies

/-- Where no scalar has alignment zero, the alignment of an exact layout is answered, and the size is
answered or too large. -/
theorem exact_of_positive (scalars : ∀ {ty : Ty} {size alignment : Nat},
      ty.shape types target = .ok (.scalar size alignment) → 0 < alignment)
    (h : ty.Occupies types target size alignment) (avoids : ty.Avoids types target busy) :
    directAlignment types target busy ty = .ok alignment ∧
      Exact (directSize types target busy ty) size := by
  induction h generalizing busy with
  | scalar known =>
    exact ⟨directAlignment_eq_ok.mpr ⟨avoids.fresh, _, known, rfl⟩,
      .inl (directSize_eq_ok.mpr ⟨avoids.fresh, _, known, rfl⟩)⟩
  | @array ty element length each alignment known occupies ih =>
    have stores : ty.Stores types target element := ⟨_, known, List.mem_singleton.mpr rfl⟩
    obtain ⟨halignment, hsize⟩ := ih (avoids.stores (occupies.array known).grounded stores)
    refine ⟨directAlignment_eq_ok.mpr ⟨avoids.fresh, _, known, halignment⟩, ?_⟩
    rw [directSize_eq, if_neg avoids.fresh, known, Nat.mul_comm]
    exact hsize.bind (.checked ty _)
  | @record ty fields places finish size alignment known count each packed greatest padded ih =>
    have occupies := Ty.Occupies.record known count each packed greatest padded
    have measured : List.Forall₂ (MeasuresExactly (directAlignment types target (ty :: busy))
        (directSize types target (ty :: busy))) fields places := by
      refine List.forall₂_iff_zip.mpr ⟨count, fun {field place} mem => ?_⟩
      have stores : ty.Stores types target field := ⟨_, known, (List.of_mem_zip mem).1⟩
      obtain ⟨halignment, hsize⟩ := ih field place mem (avoids.stores occupies.grounded stores)
      exact ⟨halignment, (each field place mem).positive scalars, hsize⟩
    have positive (place : Placement) (mem : place ∈ places) : 0 < place.alignment := by
      obtain ⟨field, _, pos, _⟩ := measured.exists_left place mem
      exact pos
    have maximum := ((greatest_iff positive).mp greatest).unique (foldl_max_isGreatest 1)
    refine ⟨directAlignment_eq_ok.mpr ⟨avoids.fresh, _, known, ?_⟩, ?_⟩
    · rw [maximum]
      exact greatest_eq_foldl (measured.imp fun _ _ answers => answers.1)
    · rw [directSize_eq, if_neg avoids.fresh, known]
      exact extent_exact measured packed Nat.one_pos (maximum ▸ padded)

theorem exact_of_occupies (regular : target.Proportioned)
    (h : ty.Occupies types target size alignment) (avoids : ty.Avoids types target busy) :
    directAlignment types target busy ty = .ok alignment ∧
      Exact (directSize types target busy ty) size :=
  exact_of_positive (fun known => Nat.pos_of_isPowerOfTwo (regular.of_shape known).1) h avoids

end Layout
end FormLowering
