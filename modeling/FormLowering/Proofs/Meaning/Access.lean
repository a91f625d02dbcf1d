import FormLowering.Proofs.Meaning.Step

/-!
Answers and their meaning. An answer of the translation stands for an answer of direct evaluation:
its value is computed to the datum, and its place to the pointer.
-/

namespace FormLowering

/-- The machine has computed what the answer says, for its value and for its place. -/
structure TypedValue.Means (result : TypedValue) (program : Program) (module : Module)
    (machine : Machine) (meant : Evaluated) : Prop where
  defined : module.Defines result.value
  value : program.value machine result.value = .ok meant.datum
  ty : result.ty = meant.ty
  place : match result.place?, meant.place? with
    | none, none => True
    | some place, some (pointer, ty) => module.Defines place.value ∧
        program.value machine place.value = .ok pointer ∧ place.ty = ty
    | _, _ => False

theorem TypedValue.Means.keep {result : TypedValue} {program : Program} {module later : Module}
    {machine after : Machine} {meant : Evaluated} (h : result.Means program module machine meant)
    (grows : module.Extends later) (kept : program.Kept module machine after) :
    result.Means program later after meant where
  defined := grows.defines h.defined
  value := (kept _ h.defined).trans h.value
  ty := h.ty
  place := by
    have hplace := h.place
    revert hplace
    cases result.place? with
    | none =>
      cases meant.place? with
      | none => exact id
      | some pointer => exact id
    | some place =>
      cases meant.place? with
      | none => exact id
      | some pointer =>
        rintro ⟨defined, value, ty⟩
        exact ⟨grows.defines defined, (kept _ defined).trans value, ty⟩

/-- The code between two units does what direct evaluation does, and the answer means that of
direct evaluation. -/
def Realizes (block : BlockId) (unit later : CompilationUnit) (result : TypedValue)
    (direct : Direct Evaluated) : Prop :=
  ∃ code, unit.Emits later block code ∧
    ∀ {program : Program} {machine : Machine} {store : Store},
      later.module.Extends program.module → Related program unit machine store →
      Simulated program unit later machine code (direct store) fun meant after =>
        result.Means program later.module after meant

theorem Realizes.congr {block : BlockId} {unit later : CompilationUnit} {result : TypedValue}
    {direct other : Direct Evaluated} (h : Realizes block unit later result direct)
    (same : ∀ {program machine store}, Related program unit machine store →
      other store = direct store) : Realizes block unit later result other := by
  obtain ⟨code, emits, simulated⟩ := h
  refine ⟨code, emits, ?_⟩
  intro program machine store hm related
  rw [same related]
  exact simulated hm related

variable {unit later : CompilationUnit} {request : Request} {result : TypedValue}

theorem CompilationUnit.Open.positioned {block : BlockId} (isOpen : unit.Open block) :
    { unit with builder := unit.builder.position block } = unit := by
  rw [isOpen.here.positioned]

end FormLowering
