import FormLowering.Proofs.Execution.Outcome
import FormLowering.Proofs.Execution.Shape

/-!
Safety of typed code. All that a machine holds fits its type, and every address leads into an
object that is there. An instruction whose operands are computed keeps this, and traps only at an
undefined pointer, an array without elements or a type without a shape.
-/

namespace FormLowering

/-- A constant of the shape of a type; none has the shape of a pointer. -/
def Constant.Fits (constant : Constant) (types : Registry) (ty : Ty) : Prop :=
  (Datum.ofConstant constant).Fits types (fun _ _ => False) ty

namespace Machine

variable (machine : Machine)

/-- The later machine still has every object and every value of the earlier one, perhaps changed. -/
structure Keeps (before after : Machine) : Prop where
  object : ∀ {root}, (before.object? root).isSome → (after.object? root).isSome
  value : ∀ {id}, (before.values.lookup id).isSome → (after.values.lookup id).isSome

theorem keeps_refl : machine.Keeps machine := ⟨id, id⟩

theorem Keeps.trans {a b c : Machine} (hab : a.Keeps b) (hbc : b.Keeps c) : a.Keeps c :=
  ⟨fun h => hbc.object (hab.object h), fun h => hbc.value (hab.value h)⟩

theorem keeps_setObject (root : Root) (object : Datum) :
    machine.Keeps (machine.setObject root object) := by
  refine ⟨fun {other} h => ?_, id⟩
  rw [object?_setObject]
  split
  · rfl
  · exact h

theorem keeps_setValue (id : ValueId) (datum : Datum) :
    machine.Keeps (machine.setValue id datum) := by
  refine ⟨fun h => h, ?_⟩
  intro other h
  rw [lookup_setValue]
  split
  · rfl
  · exact h

end Machine

namespace Program

variable (program : Program)

/-- The type of the variable that an object belongs to. -/
def rootType? : Root → Option Ty
  | .stack slot =>
    match program.module.instruction? slot with
    | some (.alloca ty _) => some ty
    | _ => none
  | .global id => (program.module.global? id).map (·.ty)

/-- The address descends into a variable, whose slot was made if it is on the stack. -/
structure Leads (machine : Machine) (address : Address) (ty : Ty) : Prop where
  present : ∀ slot, address.root = .stack slot → (machine.object? address.root).isSome
  descends : ∃ outer, program.rootType? address.root = some outer ∧
    outer.Descends program.types address.path ty

/-- The datum has the shape of a type, and its addresses lead where the type says. -/
def Shaped (machine : Machine) (datum : Datum) (ty : Ty) : Prop :=
  datum.Fits program.types (program.Leads machine) ty

/-- All computed values and all objects in memory have the shape of their types. -/
structure Safe (machine : Machine) : Prop where
  values : ∀ {id datum ty}, machine.values.lookup id = some datum →
    program.module.typeOf? id = some ty → program.Shaped machine datum ty
  memory : ∀ {root object ty}, machine.object? root = some object →
    program.rootType? root = some ty → program.Shaped machine object ty

/-- The code is typed, and globals start in the shape of their types. -/
structure Sound : Prop where
  typed : program.module.Typed program.types
  globals : ∀ {id found init}, program.module.global? id = some found →
    found.init? = some init → init.Fits program.types found.ty

/-- A variable or a field of a struct has an array without elements. -/
def HasEmptyArray : Prop :=
  (∃ root ty, program.rootType? root = some ty ∧ ty.hasEmptyArray) ∨ program.types.HasEmptyArray

end Program

/-- The traps that typed code may run into: a pointer that was never set, an array without
elements, and a type without a shape. -/
def Trap.Excused (program : Program) (machine : Machine) : Trap → Prop
  | .undefined _ => False
  | .notAPointer pointer => program.value machine pointer = .ok .undefined
  | .outOfObject => program.HasEmptyArray
  | .notAggregate => False
  | .unshaped _ => True

namespace Program

variable {program : Program} {machine later : Machine}

theorem rootType?_stack {slot : ValueId} {allocated ty : Ty} {name : String}
    {block? : Option BlockId} (h : program.module.value? slot =
      some ⟨.instruction (.alloca allocated name), ty, block?⟩) :
    program.rootType? (.stack slot) = some allocated := by
  unfold rootType? Module.instruction?
  dsimp only
  rw [h]

theorem rootType?_global {id : GlobalId} {found : Global}
    (h : program.module.global? id = some found) :
    program.rootType? (.global id) = some found.ty :=
  congrArg (Option.map Global.ty) h

theorem Leads.keeps {address : Address} {ty : Ty} (h : program.Leads machine address ty)
    (keeps : machine.Keeps later) : program.Leads later address ty :=
  ⟨fun slot hslot => keeps.object (h.present slot hslot), h.descends⟩

theorem Shaped.keeps {datum : Datum} {ty : Ty} (h : program.Shaped machine datum ty)
    (keeps : machine.Keeps later) : program.Shaped later datum ty :=
  h.mono fun _ _ leads => leads.keeps keeps

/-- An object of the shape of its variable can be put into memory. -/
theorem Safe.setObject (safe : program.Safe machine) {root : Root} {object : Datum}
    (h : ∀ ty, program.rootType? root = some ty →
      program.Shaped (machine.setObject root object) object ty) :
    program.Safe (machine.setObject root object) := by
  have keeps := machine.keeps_setObject root object
  constructor
  · intro id datum ty hvalue hty
    exact (safe.values hvalue hty).keeps keeps
  · intro other found ty hfound hty
    rw [Machine.object?_setObject] at hfound
    split at hfound
    · rename_i same
      cases hfound
      exact h ty (same ▸ hty)
    · exact (safe.memory hfound hty).keeps keeps

/-- A datum of the type of its instruction can be recorded. -/
theorem Safe.setValue (safe : program.Safe machine) {id : ValueId} {datum : Datum} {ty : Ty}
    (hty : program.module.typeOf? id = some ty) (h : program.Shaped machine datum ty) :
    program.Safe (machine.setValue id datum) := by
  have keeps := machine.keeps_setValue id datum
  constructor
  · intro other found ty' hfound hty'
    rw [Machine.lookup_setValue] at hfound
    split at hfound
    · rename_i same
      cases hfound
      rw [same, hty] at hty'
      cases hty'
      exact h.keeps keeps
    · exact (safe.values hfound hty').keeps keeps
  · intro root object ty' hobject hty'
    exact (safe.memory hobject hty').keeps keeps

/-- The object of a variable has the shape of the variable, unless that has no shape. -/
theorem Safe.object (safe : program.Safe machine) (sound : program.Sound) {root : Root} {ty : Ty}
    (hty : program.rootType? root = some ty)
    (present : ∀ slot, root = .stack slot → (machine.object? root).isSome) :
    (∃ object, program.object machine root = .ok object ∧ program.Shaped machine object ty) ∨
      ∃ part, program.object machine root = .error (.unshaped part) := by
  simp only [Program.object]
  cases hobject : machine.object? root with
  | some object => exact .inl ⟨object, rfl, safe.memory hobject hty⟩
  | none =>
    cases root with
    | stack slot =>
      have := present slot rfl
      rw [hobject] at this
      cases this
    | global id =>
      obtain ⟨found, hfound, rfl⟩ := Option.map_eq_some_iff.mp hty
      obtain ⟨name, ty, linkage, isConstant, init?, address⟩ := found
      unfold initial
      dsimp only
      rw [hfound]
      cases init? with
      | some init =>
        have fits := sound.globals hfound rfl
        exact .inl ⟨_, rfl, Datum.Fits.mono (fun _ _ none => none.elim) fits⟩
      | none =>
        dsimp only
        cases hblank : ty.blank program.types with
        | ok blank => exact .inl ⟨blank, rfl, Ty.fits_blankWithin hblank⟩
        | error trap =>
          obtain ⟨part, rfl⟩ := Ty.unshaped_of_blankWithin hblank
          exact .inr ⟨part, rfl⟩

/-- An array without elements in a variable, or in what the variable is made of. -/
theorem hasEmptyArray_of_root {root : Root} {ty : Ty} (hty : program.rootType? root = some ty)
    (h : ty.hasEmptyArray ∨ program.types.HasEmptyArray) : program.HasEmptyArray :=
  h.imp_left fun inRoot => ⟨root, ty, hty, inRoot⟩

/-- What an address leads to has the shape that it says. -/
theorem Safe.read (safe : program.Safe machine) (sound : program.Sound) {address : Address} {ty : Ty}
    (leads : program.Leads machine address ty) :
    (∃ datum, program.read machine address = .ok datum ∧ program.Shaped machine datum ty) ∨
      ∃ trap, program.read machine address = .error trap ∧ trap.Excused program machine := by
  obtain ⟨outer, hroot, descends⟩ := leads.descends
  simp only [Program.read]
  rcases safe.object sound hroot leads.present with ⟨object, hobject, fits⟩ | ⟨part, hobject⟩
  · rw [hobject]
    rcases Datum.Fits.get fits descends with ⟨datum, hget, fits⟩ | ⟨hget, empty⟩
    · exact .inl ⟨datum, hget, fits⟩
    · exact .inr ⟨_, hget, hasEmptyArray_of_root hroot empty⟩
  · rw [hobject]
    exact .inr ⟨_, rfl, trivial⟩

/-- A value that is there has the shape of its type. -/
theorem Safe.value (safe : program.Safe machine) (sound : program.Sound) {id : ValueId} {datum : Datum}
    {ty : Ty} (h : program.value machine id = .ok datum)
    (hty : program.module.typeOf? id = some ty) : program.Shaped machine datum ty := by
  obtain ⟨v, hv, rfl⟩ := Option.map_eq_some_iff.mp hty
  have typed := sound.typed id v hv
  unfold Program.value at h
  rw [hv] at h
  cases typed with
  | constant literal =>
    cases h
    cases literal with
    | int bits value kind => exact .int value kind
    | float kind value ty => exact .float value ty
    | enum bits value name => exact .enum name .int (.int value .int)
  | @globalAddress global found hfound =>
    cases h
    exact .address false ⟨nofun, found.ty, rootType?_global hfound, .here _⟩
  | instruction block? typed =>
    dsimp only at h
    split at h
    · rename_i found hfound
      cases h
      exact safe.values hfound hty
    · cases h

/-- A computed pointer is an address that leads where its type says, unless it is undefined. -/
theorem Safe.addressIn (safe : program.Safe machine) (sound : program.Sound) {pointer : ValueId}
    {ty : Ty} {isConst : Bool} (hty : program.module.typeOf? pointer = some (.pointer ty isConst))
    (computed : ∃ datum, program.value machine pointer = .ok datum) :
    (∃ address, program.addressIn machine pointer = .ok address ∧
        program.Leads machine address ty) ∨
      (program.addressIn machine pointer = .error (.notAPointer pointer) ∧
        program.value machine pointer = .ok .undefined) := by
  obtain ⟨datum, hdatum⟩ := computed
  have shaped := safe.value sound hdatum hty
  simp only [Program.addressIn]
  rw [hdatum]
  cases shaped with
  | undefined _ => exact .inr ⟨rfl, rfl⟩
  | @address address _ _ leads => exact .inl ⟨address, rfl, leads⟩

end Program
end FormLowering
