import FormLowering.Proofs.Ty.Containment

/-!
Layout without a memo: the same walk from a type to its parts, with the types in progress as a
parameter. A number that it answers depends neither on what is in progress nor on what is
registered later.
-/

namespace FormLowering

theorem Except.bind_eq_ok {ε α β : Type} {x : Except ε α} {f : α → Except ε β} {b : β} :
    (x >>= f) = .ok b ↔ ∃ a, x = .ok a ∧ f a = .ok b := by
  cases x with
  | error => simp [bind, Except.bind]
  | ok a => simp [bind, Except.bind]

namespace Layout

section Fields

/-! The loops over the fields of a record, for given measurements of a field. -/

variable (ty : Ty) (alignmentOf sizeOf : Ty → Except LayoutError Nat)

/-- The greatest of `least` and the alignments of the fields. -/
def greatest : List Ty → (least : Nat) → Except LayoutError Nat
  | [], least => .ok least
  | field :: rest, least => do greatest rest (max least (← alignmentOf field))

/-- The size of the record `ty`, whose fields are still to be placed from `offset` on. -/
def extent : List Ty → (offset greatest : Nat) → Except LayoutError Nat
  | [], offset, greatest => aligned ty offset greatest
  | field :: rest, offset, greatest => do
    let alignment ← alignmentOf field
    let size ← sizeOf field
    let start ← aligned ty offset alignment
    extent rest (← checked ty (start + size)) (max greatest alignment)

/-- The offset of the field at `index` among the fields from `offset` on. -/
def offsetIn : List Ty → (index offset : Nat) → Except LayoutError Nat
  | [], _, _ => .error ⟨.unknown, ty⟩
  | field :: rest, index, offset => do
    let alignment ← alignmentOf field
    let start ← aligned ty offset alignment
    match index with
    | 0 => return start
    | index + 1 =>
      let size ← sizeOf field
      offsetIn rest index (← checked ty (start + size))

end Fields

variable (types : Registry) (target : Target)

def directAlignment (busy : List Ty) (ty : Ty) : Except LayoutError Nat :=
  if _fresh : ty ∈ busy then .error ⟨.recursive, ty⟩
  else match _shape : ty.shape types target with
    | .error error => .error error
    | .ok (.scalar _ alignment) => .ok alignment
    | .ok (.array _ element) => directAlignment (ty :: busy) element
    | .ok (.record fields) => greatest (fun field => directAlignment (ty :: busy) field) fields 1
termination_by (pending types busy, sizeOf ty)
decreasing_by
  · exact busy_lt_of_array _shape
  · exact .left _ _ (pending_cons_lt _fresh _shape)

def directSize (busy : List Ty) (ty : Ty) : Except LayoutError Nat :=
  if _fresh : ty ∈ busy then .error ⟨.recursive, ty⟩
  else match _shape : ty.shape types target with
    | .error error => .error error
    | .ok (.scalar size _) => .ok size
    | .ok (.array length element) => do
      checked ty ((← directSize (ty :: busy) element) * length)
    | .ok (.record fields) =>
      extent ty (directAlignment types target (ty :: busy))
        (fun field => directSize (ty :: busy) field) fields 0 1
termination_by (pending types busy, sizeOf ty)
decreasing_by
  · exact busy_lt_of_array _shape
  · exact .left _ _ (pending_cons_lt _fresh _shape)

def directOffset (ty : Ty) (index : Nat) : Except LayoutError Nat := do
  match ← ty.shape types target with
  | .record fields =>
    offsetIn ty (directAlignment types target []) (directSize types target []) fields index 0
  | _ => .error ⟨.unknown, ty⟩

end Layout

/-! ## One level of the walk -/

namespace Shape

/-- The alignment of a shape, for a given alignment of its parts. -/
def alignmentBy (alignmentOf : Ty → Except LayoutError Nat) : Shape → Except LayoutError Nat
  | .scalar _ alignment => .ok alignment
  | .array _ element => alignmentOf element
  | .record fields => Layout.greatest alignmentOf fields 1

/-- The size of the shape of `ty`, for given measurements of its parts. -/
def sizeBy (ty : Ty) (alignmentOf sizeOf : Ty → Except LayoutError Nat) :
    Shape → Except LayoutError Nat
  | .scalar size _ => .ok size
  | .array length element => do Layout.checked ty ((← sizeOf element) * length)
  | .record fields => Layout.extent ty alignmentOf sizeOf fields 0 1

end Shape

namespace Layout

variable {types later : Registry} {target : Target} {busy : List Ty} {ty : Ty} {n : Nat}

theorem directAlignment_eq : directAlignment types target busy ty =
    if ty ∈ busy then .error ⟨.recursive, ty⟩
    else ty.shape types target >>=
      Shape.alignmentBy (directAlignment types target (ty :: busy)) := by
  rw [directAlignment]
  split
  · rfl
  · split <;> rename_i known <;> rw [known] <;> rfl

theorem directSize_eq : directSize types target busy ty =
    if ty ∈ busy then .error ⟨.recursive, ty⟩
    else ty.shape types target >>= Shape.sizeBy ty (directAlignment types target (ty :: busy))
      (directSize types target (ty :: busy)) := by
  rw [directSize]
  split
  · rfl
  · split <;> rename_i known <;> rw [known] <;> rfl

theorem directAlignment_eq_ok : directAlignment types target busy ty = .ok n ↔
    ty ∉ busy ∧ ∃ shape, ty.shape types target = .ok shape ∧
      shape.alignmentBy (directAlignment types target (ty :: busy)) = .ok n := by
  rw [directAlignment_eq, ← Except.bind_eq_ok]
  split <;> simp_all

theorem directSize_eq_ok : directSize types target busy ty = .ok n ↔
    ty ∉ busy ∧ ∃ shape, ty.shape types target = .ok shape ∧
      shape.sizeBy ty (directAlignment types target (ty :: busy))
        (directSize types target (ty :: busy)) = .ok n := by
  rw [directSize_eq, ← Except.bind_eq_ok]
  split <;> simp_all

/-! ## What is measured on the way -/

section Fields

variable {alignmentOf sizeOf alignmentOf' sizeOf' : Ty → Except LayoutError Nat} {fields : List Ty}

theorem greatest_parts {least : Nat} (h : greatest alignmentOf fields least = .ok n) :
    ∀ field ∈ fields, ∃ alignment, alignmentOf field = .ok alignment := by
  induction fields generalizing least with
  | nil => simp
  | cons field rest ih =>
    obtain ⟨alignment, first, others⟩ := Except.bind_eq_ok.mp h
    exact List.forall_mem_cons.mpr ⟨⟨alignment, first⟩, ih others⟩

theorem extent_cons {field : Ty} {rest : List Ty} {offset least : Nat} :
    extent ty alignmentOf sizeOf (field :: rest) offset least = .ok n ↔
      ∃ alignment size start finish, alignmentOf field = .ok alignment ∧ sizeOf field = .ok size ∧
        aligned ty offset alignment = .ok start ∧ checked ty (start + size) = .ok finish ∧
          extent ty alignmentOf sizeOf rest finish (max least alignment) = .ok n := by
  simp only [extent, Except.bind_eq_ok]
  constructor
  · rintro ⟨alignment, h₁, size, h₂, start, h₃, finish, h₄, h₅⟩
    exact ⟨alignment, size, start, finish, h₁, h₂, h₃, h₄, h₅⟩
  · rintro ⟨alignment, size, start, finish, h₁, h₂, h₃, h₄, h₅⟩
    exact ⟨alignment, h₁, size, h₂, start, h₃, finish, h₄, h₅⟩

theorem extent_parts {offset least : Nat}
    (h : extent ty alignmentOf sizeOf fields offset least = .ok n) :
    ∀ field ∈ fields, (∃ alignment, alignmentOf field = .ok alignment) ∧
      ∃ size, sizeOf field = .ok size := by
  induction fields generalizing offset least with
  | nil => simp
  | cons field rest ih =>
    obtain ⟨alignment, size, _, _, first, second, _, _, others⟩ := extent_cons.mp h
    exact List.forall_mem_cons.mpr ⟨⟨⟨alignment, first⟩, ⟨size, second⟩⟩, ih others⟩

theorem greatest_mono {least : Nat}
    (agree : ∀ field ∈ fields, ∀ n, alignmentOf field = .ok n → alignmentOf' field = .ok n)
    (h : greatest alignmentOf fields least = .ok n) :
    greatest alignmentOf' fields least = .ok n := by
  induction fields generalizing least with
  | nil => exact h
  | cons field rest ih =>
    obtain ⟨first, others⟩ := List.forall_mem_cons.mp agree
    obtain ⟨alignment, measured, h⟩ := Except.bind_eq_ok.mp h
    exact Except.bind_eq_ok.mpr ⟨alignment, first alignment measured, ih others h⟩

theorem extent_mono {offset least : Nat}
    (alignments : ∀ field ∈ fields, ∀ n, alignmentOf field = .ok n → alignmentOf' field = .ok n)
    (sizes : ∀ field ∈ fields, ∀ n, sizeOf field = .ok n → sizeOf' field = .ok n)
    (h : extent ty alignmentOf sizeOf fields offset least = .ok n) :
    extent ty alignmentOf' sizeOf' fields offset least = .ok n := by
  induction fields generalizing offset least with
  | nil => exact h
  | cons field rest ih =>
    obtain ⟨alignment, size, start, finish, h₁, h₂, placed, fits, h⟩ := extent_cons.mp h
    obtain ⟨first, alignments⟩ := List.forall_mem_cons.mp alignments
    obtain ⟨second, sizes⟩ := List.forall_mem_cons.mp sizes
    exact extent_cons.mpr ⟨alignment, size, start, finish, first alignment h₁, second size h₂,
      placed, fits, ih alignments sizes h⟩

theorem offsetIn_mono {index offset : Nat}
    (alignments : ∀ field ∈ fields, ∀ n, alignmentOf field = .ok n → alignmentOf' field = .ok n)
    (sizes : ∀ field ∈ fields, ∀ n, sizeOf field = .ok n → sizeOf' field = .ok n)
    (h : offsetIn ty alignmentOf sizeOf fields index offset = .ok n) :
    offsetIn ty alignmentOf' sizeOf' fields index offset = .ok n := by
  induction fields generalizing index offset with
  | nil => cases h
  | cons field rest ih =>
    obtain ⟨first, alignments⟩ := List.forall_mem_cons.mp alignments
    obtain ⟨second, sizes⟩ := List.forall_mem_cons.mp sizes
    obtain ⟨alignment, measured, h⟩ := Except.bind_eq_ok.mp h
    obtain ⟨start, placed, h⟩ := Except.bind_eq_ok.mp h
    refine Except.bind_eq_ok.mpr ⟨alignment, first alignment measured, ?_⟩
    refine Except.bind_eq_ok.mpr ⟨start, placed, ?_⟩
    cases index with
    | zero => exact h
    | succ index =>
      obtain ⟨size, measured, h⟩ := Except.bind_eq_ok.mp h
      obtain ⟨finish, fits, h⟩ := Except.bind_eq_ok.mp h
      refine Except.bind_eq_ok.mpr ⟨size, second size measured, ?_⟩
      exact Except.bind_eq_ok.mpr ⟨finish, fits, ih alignments sizes h⟩

end Fields

end Layout

namespace Shape

variable {alignmentOf sizeOf alignmentOf' sizeOf' : Ty → Except LayoutError Nat} {shape : Shape}
  {ty : Ty} {n : Nat}

theorem alignmentBy_parts (h : shape.alignmentBy alignmentOf = .ok n) :
    ∀ part ∈ shape.parts, ∃ alignment, alignmentOf part = .ok alignment := by
  cases shape with
  | scalar => simp [parts]
  | array length element => simpa [parts] using ⟨n, h⟩
  | record fields => exact Layout.greatest_parts h

theorem sizeBy_parts (h : shape.sizeBy ty alignmentOf sizeOf = .ok n) :
    ∀ part ∈ shape.parts, ∃ size, sizeOf part = .ok size := by
  cases shape with
  | scalar => simp [parts]
  | array length element =>
    obtain ⟨size, measured, _⟩ := Except.bind_eq_ok.mp h
    simpa [parts] using ⟨size, measured⟩
  | record fields => exact fun part mem => (Layout.extent_parts h part mem).2

theorem alignmentBy_mono
    (agree : ∀ part ∈ shape.parts, ∀ n, alignmentOf part = .ok n → alignmentOf' part = .ok n)
    (h : shape.alignmentBy alignmentOf = .ok n) : shape.alignmentBy alignmentOf' = .ok n := by
  cases shape with
  | scalar => exact h
  | array length element => exact agree element (List.mem_singleton.mpr rfl) n h
  | record fields => exact Layout.greatest_mono agree h

theorem sizeBy_mono
    (alignments : ∀ part ∈ shape.parts, ∀ n, alignmentOf part = .ok n → alignmentOf' part = .ok n)
    (sizes : ∀ part ∈ shape.parts, ∀ n, sizeOf part = .ok n → sizeOf' part = .ok n)
    (h : shape.sizeBy ty alignmentOf sizeOf = .ok n) :
    shape.sizeBy ty alignmentOf' sizeOf' = .ok n := by
  cases shape with
  | scalar => exact h
  | array length element =>
    obtain ⟨size, measured, fits⟩ := Except.bind_eq_ok.mp h
    exact Except.bind_eq_ok.mpr ⟨size, sizes element (List.mem_singleton.mpr rfl) size measured,
      fits⟩
  | record fields => exact Layout.extent_mono alignments sizes h

end Shape

/-! ## What a number depends on -/

namespace Layout

variable {types later : Registry} {target : Target} {busy : List Ty} {ty : Ty} {n : Nat}

theorem grounded_of_alignment (h : directAlignment types target busy ty = .ok n) :
    ty.Grounded types target := by
  induction busy, ty using @descent types target generalizing n with
  | step busy ty ih =>
    obtain ⟨fresh, shape, known, measured⟩ := directAlignment_eq_ok.mp h
    refine .intro known fun part mem => ?_
    obtain ⟨alignment, answer⟩ := Shape.alignmentBy_parts measured part mem
    exact ih fresh part ⟨shape, known, mem⟩ answer

theorem grounded_of_size (h : directSize types target busy ty = .ok n) :
    ty.Grounded types target := by
  induction busy, ty using @descent types target generalizing n with
  | step busy ty ih =>
    obtain ⟨fresh, shape, known, measured⟩ := directSize_eq_ok.mp h
    refine .intro known fun part mem => ?_
    obtain ⟨size, answer⟩ := Shape.sizeBy_parts measured part mem
    exact ih fresh part ⟨shape, known, mem⟩ answer

/-- A known alignment stays, whatever is registered later and whatever else is in progress. -/
theorem directAlignment_transfer (grows : types.Extends later) {busy' : List Ty}
    (h : directAlignment types target busy ty = .ok n) (avoids : ty.Avoids types target busy') :
    directAlignment later target busy' ty = .ok n := by
  induction busy, ty using @descent types target generalizing busy' n with
  | step busy ty ih =>
    obtain ⟨fresh, shape, known, measured⟩ := directAlignment_eq_ok.mp h
    refine directAlignment_eq_ok.mpr ⟨avoids.fresh, shape, grows.shape known, ?_⟩
    refine Shape.alignmentBy_mono (fun part mem n answer => ?_) measured
    exact ih fresh part ⟨shape, known, mem⟩ answer
      (avoids.stores (grounded_of_alignment h) ⟨shape, known, mem⟩)

/-- A known size stays, whatever is registered later and whatever else is in progress. -/
theorem directSize_transfer (grows : types.Extends later) {busy' : List Ty}
    (h : directSize types target busy ty = .ok n) (avoids : ty.Avoids types target busy') :
    directSize later target busy' ty = .ok n := by
  induction busy, ty using @descent types target generalizing busy' n with
  | step busy ty ih =>
    obtain ⟨fresh, shape, known, measured⟩ := directSize_eq_ok.mp h
    have below {part : Ty} (mem : part ∈ shape.parts) : part.Avoids types target (ty :: busy') :=
      avoids.stores (grounded_of_size h) ⟨shape, known, mem⟩
    refine directSize_eq_ok.mpr ⟨avoids.fresh, shape, grows.shape known, ?_⟩
    refine Shape.sizeBy_mono (fun part mem n answer => ?_) (fun part mem n answer => ?_) measured
    · exact directAlignment_transfer grows answer (below mem)
    · exact ih fresh part ⟨shape, known, mem⟩ answer (below mem)

theorem directOffset_transfer (grows : types.Extends later) {index : Nat}
    (h : directOffset types target ty index = .ok n) :
    directOffset later target ty index = .ok n := by
  obtain ⟨shape, known, h⟩ := Except.bind_eq_ok.mp h
  refine Except.bind_eq_ok.mpr ⟨shape, grows.shape known, ?_⟩
  cases shape with
  | scalar | array => cases h
  | record fields =>
    exact offsetIn_mono (fun _ _ _ answer => directAlignment_transfer grows answer .nil)
      (fun _ _ _ answer => directSize_transfer grows answer .nil) h

end Layout
end FormLowering
