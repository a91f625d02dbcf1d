import Mathlib.Logic.Relation
import FormLowering.Proofs.Ty.Growth
import FormLowering.Ty.Layout

/-!
What a type holds in its own storage. A layout query follows this relation, and it can be answered
only for a type that is grounded: every type below has a shape, and none holds itself.
-/

namespace FormLowering

/-- The types whose values are stored in a value of a shape. -/
def Shape.parts : Shape → List Ty
  | .scalar .. => []
  | .array _ element => [element]
  | .record fields => fields

namespace Ty

variable (types : Registry) (target : Target)

/-- A value of the type `whole` stores a value of the type `part`. -/
def Stores (whole part : Ty) : Prop :=
  ∃ shape, whole.shape types target = .ok shape ∧ part ∈ shape.parts

/-- The type `part` is the type `whole`, or is stored in it at some depth. -/
abbrev Reaches : Ty → Ty → Prop := Relation.ReflTransGen (Stores types target)

inductive Grounded : Ty → Prop
  | intro {ty : Ty} {shape : Shape} (known : ty.shape types target = .ok shape)
    (parts : ∀ part ∈ shape.parts, Grounded part) : Grounded ty

variable {types target}

theorem Grounded.stores {ty part : Ty} (h : ty.Grounded types target)
    (stores : ty.Stores types target part) : part.Grounded types target := by
  obtain ⟨shape, known, mem⟩ := stores
  cases h with
  | intro known' parts =>
    cases known.symm.trans known'
    exact parts part mem

theorem Grounded.reaches {ty part : Ty} (h : ty.Grounded types target)
    (reaches : ty.Reaches types target part) : part.Grounded types target := by
  induction reaches with
  | refl => exact h
  | tail _ stores ih => exact ih.stores stores

/-- A type that holds itself has no end. -/
theorem Grounded.acyclic {ty : Ty} (h : ty.Grounded types target) :
    ¬ Relation.TransGen (Stores types target) ty ty := by
  induction h with
  | @intro ty shape known _ ih =>
    intro cycle
    -- the first step of the cycle leads to a part, and the part is on the same cycle
    obtain ⟨part, stores, back⟩ := Relation.TransGen.head'_iff.mp cycle
    have mem : part ∈ shape.parts := by
      obtain ⟨shape', known', mem⟩ := stores
      cases known.symm.trans known'
      exact mem
    exact ih part mem (Relation.TransGen.tail' back stores)

/-- Nothing that a type reaches is in progress. -/
def Avoids (types : Registry) (target : Target) (busy : List Ty) (ty : Ty) : Prop :=
  ∀ other, ty.Reaches types target other → other ∉ busy

theorem Avoids.nil {ty : Ty} : ty.Avoids types target [] := fun _ _ => List.not_mem_nil

theorem Avoids.fresh {ty : Ty} {busy : List Ty} (h : ty.Avoids types target busy) : ty ∉ busy :=
  h ty .refl

/-- A grounded type may be put in progress for its parts: they do not lead back to it. -/
theorem Avoids.stores {ty part : Ty} {busy : List Ty} (h : ty.Avoids types target busy)
    (grounded : ty.Grounded types target) (stores : ty.Stores types target part) :
    part.Avoids types target (ty :: busy) := by
  intro other reaches mem
  rcases List.mem_cons.mp mem with rfl | mem
  · exact grounded.acyclic (.head' stores reaches)
  · exact h other (reaches.head stores) mem

/-- A type is below the types in progress: each of them holds it. -/
def Below (types : Registry) (target : Target) (busy : List Ty) (ty : Ty) : Prop :=
  ∀ other ∈ busy, Relation.TransGen (Stores types target) other ty

theorem Below.nil {ty : Ty} : ty.Below types target [] := nofun

theorem Below.stores {ty part : Ty} {busy : List Ty} (h : ty.Below types target busy)
    (stores : ty.Stores types target part) : part.Below types target (ty :: busy) := by
  intro other mem
  rcases List.mem_cons.mp mem with rfl | mem
  · exact .single stores
  · exact (h other mem).tail stores

/-- A type that holds a grounded one is not met again below it. -/
theorem Grounded.avoids {ty : Ty} {busy : List Ty} (h : ty.Grounded types target)
    (below : ty.Below types target busy) : ty.Avoids types target busy :=
  fun _ reaches mem => (h.reaches reaches).acyclic ((below _ mem).trans_left reaches)

end Ty

/-- Induction along a layout query: whatever holds of a type while some are in progress if it holds
of the type's parts while the type is in progress too. -/
theorem Layout.descent {types : Registry} {target : Target} {motive : List Ty → Ty → Prop}
    (step : ∀ busy ty, (ty ∉ busy → ∀ part, ty.Stores types target part →
      motive (ty :: busy) part) → motive busy ty) (busy : List Ty) (ty : Ty) : motive busy ty :=
  step busy ty fun _fresh part _stores => descent step (ty :: busy) part
termination_by (pending types busy, sizeOf ty)
decreasing_by
  obtain ⟨shape, known, mem⟩ := _stores
  cases shape with
  | scalar => cases mem
  | array length element =>
    cases List.mem_singleton.mp mem
    exact busy_lt_of_array known
  | record fields => exact .left _ _ (pending_cons_lt _fresh known)

end FormLowering
