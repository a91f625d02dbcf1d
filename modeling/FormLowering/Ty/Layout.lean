import FormLowering.Ty.Shape

/-!
Alignment, size and field offsets. A query follows arrays and struct fields down to scalars and
remembers every answer by type; a failure is not remembered. The memo also knows which types are in
progress, so a type that holds itself is found and every query ends.
-/

namespace FormLowering

structure LayoutMemo where
  alignments : List (Ty × Nat) := []
  sizes : List (Ty × Nat) := []
  /-- The types that are being measured, the innermost first. -/
  inProgress : List Ty := []
  deriving DecidableEq, Repr, Inhabited

/-- A memo while exactly the types `busy` are being measured. -/
abbrev LayoutMemo.During (busy : List Ty) := { memo : LayoutMemo // memo.inProgress = busy }

/-- A layout query: it may fail, and keeps the answers found on the way in either case. -/
abbrev LayoutM := ExceptT LayoutError (StateM LayoutMemo)

/-- A part of a query. Whether it fails or not, it leaves the types in progress as they were. -/
abbrev LayoutM.During (busy : List Ty) := ExceptT LayoutError (StateM (LayoutMemo.During busy))

namespace LayoutM

variable {α : Type}

/-- The part for whatever types are in progress. -/
def ofPart (part : (busy : List Ty) → During busy α) : LayoutM α := ExceptT.mk fun memo =>
  let (answer, after) := (part memo.inProgress).run.run ⟨memo, rfl⟩
  (answer, after.val)

namespace During

variable {busy : List Ty}

/-- Puts a type in progress for a part of a query, and takes it out when the part ends or fails. -/
def entering (ty : Ty) (part : During (ty :: busy) α) : During busy α := ExceptT.mk fun memo =>
  let entered := { memo.val with inProgress := ty :: memo.val.inProgress }
  let (answer, after) := part.run.run ⟨entered, congrArg (ty :: ·) memo.property⟩
  let left := { after.val with inProgress := after.val.inProgress.erase ty }
  (answer, ⟨left, by simp [left, after.property]⟩)

def rememberAlignment (ty : Ty) (alignment : Nat) : During busy Nat := do
  modify fun memo =>
    ⟨{ memo.val with alignments := (ty, alignment) :: memo.val.alignments }, memo.property⟩
  return alignment

def rememberSize (ty : Ty) (size : Nat) : During busy Nat := do
  modify fun memo => ⟨{ memo.val with sizes := (ty, size) :: memo.val.sizes }, memo.property⟩
  return size

end During
end LayoutM

namespace Layout

/-- Sizes and offsets are 64-bit words. -/
def checked (ty : Ty) (n : Nat) : Except LayoutError Nat :=
  if n < UInt64.size then .ok n else .error ⟨.tooLarge, ty⟩

/-- The least multiple of an alignment that is not below an offset. -/
def roundUp (offset alignment : Nat) : Nat :=
  offset + (alignment - offset % alignment) % alignment

/-- The offset rounded up to an alignment; zero is no alignment. -/
def aligned (ty : Ty) (offset alignment : Nat) : Except LayoutError Nat :=
  if alignment = 0 then .error ⟨.tooLarge, ty⟩ else checked ty (roundUp offset alignment)

/-- How many of the registered structs are not in progress. -/
def pending (types : Registry) (busy : List Ty) : Nat :=
  types.structs.countP fun struct => !busy.contains (.struct struct.name)

theorem pending_cons_le (types : Registry) (busy : List Ty) (ty : Ty) :
    pending types (ty :: busy) ≤ pending types busy := by
  unfold pending
  apply List.countP_mono_left
  intro struct _
  simp

/-- Counting by a narrower test that a member fails gives less. -/
theorem countP_lt_countP {α : Type} {p q : α → Bool} {xs : List α} {x : α}
    (narrower : ∀ y, p y = true → q y = true) (mem : x ∈ xs) (fails : p x = false)
    (holds : q x = true) : xs.countP p < xs.countP q := by
  obtain ⟨before, after, rfl⟩ := List.append_of_mem mem
  have left : before.countP p ≤ before.countP q := List.countP_mono_left fun y _ => narrower y
  have right : after.countP p ≤ after.countP q := List.countP_mono_left fun y _ => narrower y
  simp only [List.countP_append, List.countP_cons, fails, holds]
  simp
  omega

/-- A struct that was not in progress leaves the pending ones when it is entered. -/
theorem pending_cons_lt {types : Registry} {target : Target} {busy : List Ty} {ty : Ty}
    {fields : List Ty} (fresh : ty ∉ busy) (h : ty.shape types target = .ok (.record fields)) :
    pending types (ty :: busy) < pending types busy := by
  obtain ⟨name, struct, rfl, found⟩ := Ty.exists_struct_of_shape h
  have named : struct.name = name := by simpa using List.find?_some found
  subst named
  exact countP_lt_countP (fun y => by simp) (List.mem_of_find?_eq_some found) (by simp)
    (by simpa using fresh)

theorem busy_lt_of_array {types : Registry} {target : Target} {busy : List Ty} {ty element : Ty}
    {length : Nat} (h : ty.shape types target = .ok (.array length element)) :
    Prod.Lex (· < ·) (· < ·) (pending types (ty :: busy), sizeOf element)
      (pending types busy, sizeOf ty) := by
  have smaller : sizeOf element < sizeOf ty := by
    rw [Ty.eq_array_of_shape h, Ty.array.sizeOf_spec]
    omega
  rcases Nat.lt_or_eq_of_le (pending_cons_le types busy ty) with less | same
  · exact .left _ _ less
  · exact same ▸ .right _ smaller

open LayoutM (During ofPart)
open LayoutM.During (entering rememberAlignment rememberSize)

variable (types : Registry) (target : Target)

mutual

/-- The alignment of a type while the types `busy` are being measured. -/
def alignmentWithin (busy : List Ty) (ty : Ty) : During busy Nat := do
  let memo ← get
  match memo.val.alignments.lookup ty with
  | some alignment => return alignment
  | none =>
    if _fresh : ty ∈ memo.val.inProgress then throw ⟨.recursive, ty⟩
    else
      let alignment ← entering ty <|
        match _shape : ty.shape types target with
        | .error error => throw error
        | .ok (.scalar _ alignment) => return alignment
        | .ok (.array _ element) => alignmentWithin (ty :: busy) element
        | .ok (.record fields) => greatestAlignment (ty :: busy) fields 1
      rememberAlignment ty alignment
termination_by (pending types busy, sizeOf ty)
decreasing_by
  · exact busy_lt_of_array _shape
  · exact .left _ _ (pending_cons_lt (memo.property ▸ _fresh) _shape)

/-- The greatest of `least` and the alignments of the fields. -/
def greatestAlignment (busy : List Ty) (fields : List Ty) (least : Nat) : During busy Nat := do
  match fields with
  | [] => return least
  | field :: rest =>
    greatestAlignment busy rest (max least (← alignmentWithin busy field))
termination_by (pending types busy, sizeOf fields)

end

mutual

/-- The size of a type while the types `busy` are being measured. -/
def sizeWithin (busy : List Ty) (ty : Ty) : During busy Nat := do
  let memo ← get
  match memo.val.sizes.lookup ty with
  | some size => return size
  | none =>
    if _fresh : ty ∈ memo.val.inProgress then throw ⟨.recursive, ty⟩
    else
      let size ← entering ty <|
        match _shape : ty.shape types target with
        | .error error => throw error
        | .ok (.scalar size _) => return size
        | .ok (.array length element) => do
          checked ty ((← sizeWithin (ty :: busy) element) * length)
        | .ok (.record fields) => recordSize (ty :: busy) ty fields 0 1
      rememberSize ty size
termination_by (pending types busy, sizeOf ty)
decreasing_by
  · exact busy_lt_of_array _shape
  · exact .left _ _ (pending_cons_lt (memo.property ▸ _fresh) _shape)

/-- The size of the record `ty`, whose `fields` are still to be placed from `offset` on. -/
def recordSize (busy : List Ty) (ty : Ty) (fields : List Ty) (offset greatest : Nat) :
    During busy Nat := do
  match fields with
  | [] => aligned ty offset greatest
  | field :: rest =>
    let alignment ← alignmentWithin types target busy field
    let size ← sizeWithin busy field
    let start ← aligned ty offset alignment
    recordSize busy ty rest (← checked ty (start + size)) (max greatest alignment)
termination_by (pending types busy, sizeOf fields)

end

def alignment (ty : Ty) : LayoutM Nat := ofPart fun busy => alignmentWithin types target busy ty

/-- The size of a type in bytes, with the padding at its end. -/
def size (ty : Ty) : LayoutM Nat := ofPart fun busy => sizeWithin types target busy ty

/-- The offset of the field at `index` among the fields from `offset` on. -/
def offsetAmong (ty : Ty) : List Ty → (index offset : Nat) → LayoutM Nat
  | [], _, _ => throw ⟨.unknown, ty⟩
  | field :: rest, index, offset => do
    let alignment ← alignment types target field
    let start ← aligned ty offset alignment
    match index with
    | 0 => return start
    | index + 1 =>
      let size ← size types target field
      offsetAmong ty rest index (← checked ty (start + size))

def fieldOffset (ty : Ty) (index : Nat) : LayoutM Nat := do
  match ← ty.shape types target with
  | .record fields => offsetAmong types target ty fields index 0
  | _ => throw ⟨.unknown, ty⟩

end Layout

end FormLowering
