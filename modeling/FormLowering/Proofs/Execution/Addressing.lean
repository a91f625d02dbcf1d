import FormLowering.Proofs.Execution.Memory

/-!
Addresses into fresh objects. A slot right after its allocation, and a global without an initializer
that nothing was written to, are blank memory of their type. A write goes through exactly at the
components of the type. A read does so too, and also where a path goes on below a scalar: there it
answers that the value is undefined.
-/

namespace FormLowering

namespace Ty

variable (types : Registry)

/-- The path leads to a component: each step is an index below the length of an array or the number
of fields of a struct, or the first one into an enum. -/
def HasComponent : Ty → List Nat → Prop
  | _, [] => True
  | .array length element, index :: path => index < length ∧ element.HasComponent path
  | .struct name, index :: path => ∃ struct fields field, types.struct? name = some struct ∧
      struct.fields? = some fields ∧ fields[index]? = some field ∧ field.ty.HasComponent path
  | .enum _, index :: path => index = 0 ∧ path = []
  | _, _ :: _ => False

/-- The path leads to a scalar or a pointer and goes on below it. -/
def EntersScalar : Ty → List Nat → Prop
  | _, [] => False
  | .array length element, index :: path => index < length ∧ element.EntersScalar path
  | .struct name, index :: path => ∃ struct fields field, types.struct? name = some struct ∧
      struct.fields? = some fields ∧ fields[index]? = some field ∧ field.ty.EntersScalar path
  | .enum _, index :: path => index = 0 ∧ path ≠ []
  | _, _ :: _ => True

variable {types}

/-- What is below a scalar is no component. -/
theorem EntersScalar.not_hasComponent {ty : Ty} {path : List Nat} (h : ty.EntersScalar types path) :
    ¬ty.HasComponent types path := by
  induction path generalizing ty with
  | nil => simp [EntersScalar] at h
  | cons index path ih =>
    cases ty with
    | primitive | pointer | param => simp [HasComponent]
    | enum name => exact fun has => h.2 has.2
    | array length element => exact fun has => ih h.2 has.2
    | struct name =>
      obtain ⟨struct, fields, field, hstruct, hfields, hfield, enters⟩ := h
      rintro ⟨_, _, _, hstruct', hfields', hfield', has⟩
      cases hstruct.symm.trans hstruct'
      cases hfields.symm.trans hfields'
      cases hfield.symm.trans hfield'
      exact ih enters has

end Ty

namespace Datum

/-- Nothing in the datum has a value. -/
inductive Unset : Datum → Prop
  | undefined : Unset .undefined
  | aggregate {items : List Datum} : (∀ item ∈ items, Unset item) → Unset (.aggregate items)

end Datum

theorem Ty.unset_blankWithin {types : Registry} {depth : Nat} {ty : Ty} {datum : Datum}
    (h : ty.blankWithin types depth = .ok datum) : datum.Unset := by
  induction depth generalizing ty datum with
  | zero => cases h
  | succ depth ih =>
    cases ty with
    | primitive | pointer | param =>
      cases h
      exact .undefined
    | enum name =>
      cases h
      exact .aggregate (by simpa using .undefined)
    | array length element =>
      unfold blankWithin at h
      split at h
      · cases h
      · cases hblank : element.blankWithin types depth with
        | error trap =>
          rw [hblank] at h
          cases h
        | ok item =>
          rw [hblank] at h
          cases h
          refine .aggregate fun other mem => ?_
          cases List.eq_of_mem_replicate mem
          exact ih hblank
    | struct name =>
      unfold blankWithin at h
      split at h
      · rename_i fields _
        cases hblank : fields.mapM fun field => field.ty.blankWithin types depth with
        | error trap =>
          rw [hblank] at h
          cases h
        | ok items =>
          rw [hblank] at h
          cases h
          obtain ⟨hlength, hget⟩ := List.getElem?_of_mapM_ok hblank
          refine .aggregate fun item mem => ?_
          obtain ⟨index, hindex⟩ := List.mem_iff_getElem?.mp mem
          have hlt : index < fields.length := hlength ▸ (List.getElem?_eq_some_iff.mp hindex).1
          exact ih (hget index item fields[index] hindex (List.getElem?_eq_getElem hlt))
      · cases h

namespace Datum

/-- What a path does in a datum of a type that holds no values. -/
inductive Access (types : Registry) (datum : Datum) (ty : Ty) (path : List Nat) : Prop
  | component {found : Datum} : ty.HasComponent types path → datum.get path = .ok found →
      (∀ value, ∃ changed, Datum.set value datum path = .ok changed) → Access types datum ty path
  | scalar : ty.EntersScalar types path → datum.get path = .ok .undefined →
      (∀ value, Datum.set value datum path = .error .outOfObject) → Access types datum ty path
  | outside : ¬ty.HasComponent types path → ¬ty.EntersScalar types path →
      datum.get path = .error .outOfObject →
      (∀ value, Datum.set value datum path = .error .outOfObject) → Access types datum ty path

namespace Access

variable {types : Registry} {items : List Datum} {item : Datum} {ty inner : Ty} {index : Nat}
  {path : List Nat}

/-- A step to an item leaves to the item what the rest of the path does. -/
theorem step (hitem : items[index]? = some item)
    (component : ty.HasComponent types (index :: path) ↔ inner.HasComponent types path)
    (scalar : ty.EntersScalar types (index :: path) ↔ inner.EntersScalar types path)
    (h : item.Access types inner path) :
    (Datum.aggregate items).Access types ty (index :: path) := by
  cases h with
  | component has got changes =>
    refine .component (component.mpr has) ((get_aggregate hitem path).trans got) fun value => ?_
    obtain ⟨changed, hset⟩ := changes value
    exact ⟨_, by rw [set_aggregate hitem, hset]; rfl⟩
  | scalar enters got fails =>
    refine .scalar (scalar.mpr enters) ((get_aggregate hitem path).trans got) fun value => ?_
    rw [set_aggregate hitem, fails]
    rfl
  | outside hasNot entersNot got fails =>
    refine .outside (hasNot ∘ component.mp) (entersNot ∘ scalar.mp)
      ((get_aggregate hitem path).trans got) fun value => ?_
    rw [set_aggregate hitem, fails]
    rfl

theorem beyond (hitem : items[index]? = none) (component : ¬ty.HasComponent types (index :: path))
    (scalar : ¬ty.EntersScalar types (index :: path)) :
    (Datum.aggregate items).Access types ty (index :: path) :=
  .outside component scalar (by simp [Datum.get, hitem]) fun value => by simp [Datum.set, hitem]

end Access

/-- In a datum of a type that holds no values, a path does what the type says of it. -/
theorem Fits.access {types : Registry} {leads : Address → Ty → Prop} {datum : Datum} {ty : Ty}
    (h : datum.Fits types leads ty) (unset : datum.Unset) (path : List Nat) :
    datum.Access types ty path := by
  induction path generalizing datum ty with
  | nil =>
    have got : datum.get [] = .ok datum := by cases datum <;> rfl
    exact .component (by simp [Ty.HasComponent]) got fun value => ⟨value, by simp [Datum.set]⟩
  | cons index path ih =>
    cases h with
    | int | float | address => cases unset
    | @undefined ty scalar =>
      refine .scalar ?_ rfl fun value => rfl
      cases ty <;> simp_all [Ty.EntersScalar, Ty.isScalar]
    | @array items element hitems =>
      cases unset with
      | aggregate parts =>
        cases hitem : items[index]? with
        | none =>
          have := List.getElem?_eq_none_iff.mp hitem
          refine .beyond hitem ?_ ?_ <;> simp only [Ty.HasComponent, Ty.EntersScalar] <;> omega
        | some item =>
          have hlt := (List.getElem?_eq_some_iff.mp hitem).1
          have mem := List.mem_of_getElem? hitem
          refine .step hitem ?_ ?_ (ih (hitems item mem) (parts item mem))
          · simp [Ty.HasComponent, hlt]
          · simp [Ty.EntersScalar, hlt]
    | @struct name struct fields items hstruct hfields hlength hitems =>
      cases unset with
      | aggregate parts =>
        cases hitem : items[index]? with
        | none =>
          have hfield : fields[index]? = none := by
            rw [List.getElem?_eq_none_iff] at hitem ⊢
            omega
          refine .beyond hitem ?_ ?_
          · simp [Ty.HasComponent, hstruct, hfields, hfield]
          · simp [Ty.EntersScalar, hstruct, hfields, hfield]
        | some item =>
          have hlt : index < fields.length := hlength ▸ (List.getElem?_eq_some_iff.mp hitem).1
          have hfield := List.getElem?_eq_getElem hlt
          refine .step hitem ?_ ?_
            (ih (hitems index item _ hitem hfield) (parts item (List.mem_of_getElem? hitem)))
          · simp [Ty.HasComponent, hstruct, hfields, hfield]
          · simp [Ty.EntersScalar, hstruct, hfields, hfield]
    | @enum leaf name kind hleaf =>
      cases unset with
      | aggregate parts =>
        cases index with
        | succ index => exact .beyond rfl (by simp [Ty.HasComponent]) (by simp [Ty.EntersScalar])
        | zero =>
          refine .step rfl ?_ ?_ (ih hleaf (parts leaf (by simp)))
          · cases path <;> simp [Ty.HasComponent]
          · cases path <;> simp [Ty.EntersScalar]

end Datum

namespace Program

variable (program : Program)

/-- What reads and writes into an object of a type answer while it is blank. -/
structure BlankAccess (machine : Machine) (root : Root) (ty : Ty) : Prop where
  component : ∀ path, ty.HasComponent program.types path →
    (∃ found, program.read machine ⟨root, path⟩ = .ok found) ∧
      ∀ datum, ∃ later, (program.write ⟨root, path⟩ datum).outcome machine = (.ok (), later)
  /-- Nothing else can be written. -/
  unwritable : ∀ path, ¬ty.HasComponent program.types path → ∀ datum, ∃ later,
    (program.write ⟨root, path⟩ datum).outcome machine = (.error .outOfObject, later)
  /-- Below a scalar everything reads as undefined. -/
  undefined : ∀ path, ty.EntersScalar program.types path →
    ¬ty.HasComponent program.types path ∧ program.read machine ⟨root, path⟩ = .ok .undefined
  /-- Nothing else can be read. -/
  unreadable : ∀ path, ¬ty.HasComponent program.types path → ¬ty.EntersScalar program.types path →
    program.read machine ⟨root, path⟩ = .error .outOfObject

variable {program}

theorem blankAccess_of_object {machine : Machine} {root : Root} {ty : Ty} {datum : Datum}
    (blank : ty.blank program.types = .ok datum)
    (object : program.object machine root = .ok datum) : program.BlankAccess machine root ty := by
  have fits : datum.Fits program.types (fun _ _ => False) ty := Ty.fits_blankWithin blank
  have access (path : List Nat) : datum.Access program.types ty path :=
    fits.access (Ty.unset_blankWithin blank) path
  have read (path : List Nat) : program.read machine ⟨root, path⟩ = datum.get path := by
    simp only [Program.read]
    rw [object]
    rfl
  have refused (path : List Nat) (value : Datum)
      (fails : Datum.set value datum path = .error .outOfObject) :
      (program.write ⟨root, path⟩ value).outcome machine =
        (.error .outOfObject, machine.setObject root datum) := by
    rw [outcome_write, object]
    dsimp only
    rw [fails]
  refine ⟨fun path has => ?_, fun path hasNot value => ?_, fun path enters => ?_,
    fun path hasNot entersNot => ?_⟩
  · cases access path with
    | component _ got changes =>
      refine ⟨⟨_, (read path).trans got⟩, fun value => ?_⟩
      obtain ⟨changed, hset⟩ := changes value
      exact ⟨_, outcome_write_ok object hset⟩
    | scalar enters => exact absurd has enters.not_hasComponent
    | outside hasNot => exact absurd has hasNot
  · cases access path with
    | component has => exact absurd has hasNot
    | scalar _ _ fails | outside _ _ _ fails => exact ⟨_, refused path value (fails value)⟩
  · cases access path with
    | component has => exact absurd has enters.not_hasComponent
    | scalar _ got => exact ⟨enters.not_hasComponent, (read path).trans got⟩
    | outside _ entersNot => exact absurd enters entersNot
  · cases access path with
    | component has => exact absurd has hasNot
    | scalar enters => exact absurd enters entersNot
    | outside _ _ got => exact (read path).trans got

/-- Blank memory of a type that has a shape can be read and written at the components of the type,
right after a slot was allocated for it as well as in a global without an initializer that nothing
was written to. Elsewhere nothing can be written, and nothing can be read but undefined values
below a scalar. -/
theorem blank_access {program : Program} {ty : Ty} {datum : Datum}
    (shaped : ty.blank program.types = .ok datum) :
    (∀ machine id name, ∃ later,
      (program.step id (.alloca ty name)).outcome machine = (.ok (), later) ∧
        program.BlankAccess later (.stack id) ty) ∧
    ∀ (machine : Machine) id g, program.module.global? id = some g → g.ty = ty → g.init? = none →
      machine.object? (.global id) = none → program.BlankAccess machine (.global id) ty := by
  constructor
  · intro machine id name
    refine ⟨(machine.setObject (.stack id) datum).setValue id (.address ⟨.stack id, []⟩), ?_, ?_⟩
    · rw [outcome_step, outcome_alloca, shaped]
    · refine blankAccess_of_object shaped ?_
      change program.object (machine.setObject (.stack id) datum) (.stack id) = .ok datum
      rw [object_setObject, if_pos rfl]
  · rintro machine id ⟨name, _, linkage, isConstant, _, address⟩ hg rfl rfl untouched
    refine blankAccess_of_object shaped ?_
    simp only [Program.object]
    rw [untouched]
    simp only [Program.initial]
    rw [hg]
    exact shaped

/-- Reads are less strict than writes: right after its allocation an integer has no component, but
reading one does not trap. -/
theorem scalar_entered : ¬∀ (program : Program) (ty : Ty) (machine later : Machine) (id : ValueId)
    (name : String), (program.step id (.alloca ty name)).outcome machine = (.ok (), later) →
    ∀ path datum,
      (ty.HasComponent program.types path →
        (∃ found, program.read later ⟨.stack id, path⟩ = .ok found) ∧
        ∃ last, (program.write ⟨.stack id, path⟩ datum).outcome later = (.ok (), last)) ∧
      (¬ty.HasComponent program.types path →
        (∃ trap, program.read later ⟨.stack id, path⟩ = .error trap) ∧
        ∃ trap last, (program.write ⟨.stack id, path⟩ datum).outcome later = (.error trap, last)) := by
  intro claim
  let stepped := ((default : Program).step ⟨0⟩ (.alloca (.primitive .int) "x")).outcome {}
  obtain ⟨-, outside⟩ := claim default (.primitive .int) {} stepped.2 ⟨0⟩ "x" rfl [0] .undefined
  obtain ⟨⟨trap, fails⟩, -⟩ := outside (by simp [Ty.HasComponent])
  cases fails

/-- A struct of an array of two integers and an enum: the last element and the enum's leaf can be
written, an element too far cannot, and below an element everything reads as undefined. -/
theorem nested_blank_access :
    let types : Registry := ⟨[⟨"s", some [⟨"a", .array 2 (.primitive .int)⟩, ⟨"e", .enum "e"⟩], []⟩], []⟩
    let program : Program := ⟨default, types⟩
    let machine := ((program.step ⟨0⟩ (.alloca (.struct "s") "x")).outcome {}).2
    (∃ later, (program.write ⟨.stack ⟨0⟩, [0, 1]⟩ (.int 7)).outcome machine = (.ok (), later)) ∧
      (∃ later, (program.write ⟨.stack ⟨0⟩, [1, 0]⟩ (.int 7)).outcome machine = (.ok (), later)) ∧
      program.read machine ⟨.stack ⟨0⟩, [0, 2]⟩ = .error .outOfObject ∧
      program.read machine ⟨.stack ⟨0⟩, [0, 1, 5]⟩ = .ok .undefined := by
  intro types program machine
  have shaped : (Ty.struct "s").blank program.types =
      .ok (.aggregate [.aggregate [.undefined, .undefined], .aggregate [.undefined]]) := rfl
  obtain ⟨allocated, -⟩ := blank_access shaped
  obtain ⟨later, stepped, access⟩ := allocated {} ⟨0⟩ "x"
  obtain rfl : machine = later := congrArg Prod.snd stepped
  have field (index : Nat) (field : Field) (path : List Nat)
      (found : [Field.mk "a" (.array 2 (.primitive .int)), ⟨"e", .enum "e"⟩][index]? = some field) :
      (field.ty.HasComponent types path → (Ty.struct "s").HasComponent types (index :: path)) ∧
        (field.ty.EntersScalar types path → (Ty.struct "s").EntersScalar types (index :: path)) :=
    ⟨fun has => ⟨_, _, field, rfl, rfl, found, has⟩,
      fun enters => ⟨_, _, field, rfl, rfl, found, enters⟩⟩
  refine ⟨(access.component [0, 1] ((field 0 _ [1] rfl).1 ?_)).2 (.int 7),
    (access.component [1, 0] ((field 1 _ [0] rfl).1 ?_)).2 (.int 7),
    access.unreadable [0, 2] ?_ ?_, (access.undefined [0, 1, 5] ((field 0 _ [1, 5] rfl).2 ?_)).2⟩
  · simp [Ty.HasComponent]
  · simp [Ty.HasComponent]
  · rintro ⟨_, _, _, ⟨⟩, ⟨⟩, ⟨⟩, has⟩
    simp [Ty.HasComponent] at has
  · rintro ⟨_, _, _, ⟨⟩, ⟨⟩, ⟨⟩, enters⟩
    simp [Ty.EntersScalar] at enters
  · simp [Ty.EntersScalar]

end Program
end FormLowering
