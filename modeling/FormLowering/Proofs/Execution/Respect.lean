import FormLowering.Proofs.Code.Constness
import FormLowering.Proofs.Execution.Safety
import FormLowering.Proofs.Meaning.Known

/-!
Addresses and the types where they stand. Every address that a machine holds leads where the type
of its place says, and one into a constant global is only held as a pointer to constant characters.
This asks nothing of the shape of data, and no constant global is ever brought into memory.
-/

namespace FormLowering

namespace Datum

theorem get_append {datum found : Datum} {path : List Nat} (h : datum.get path = .ok found)
    (rest : List Nat) : datum.get (path ++ rest) = found.get rest := by
  induction path generalizing datum with
  | nil =>
    unfold get at h
    cases h
    rfl
  | cons index path ih =>
    cases datum with
    | aggregate items =>
      cases hitem : items[index]? with
      | none =>
        simp only [get, hitem] at h
        cases h
      | some item =>
        rw [get_aggregate hitem] at h
        rw [List.cons_append, get_aggregate hitem]
        exact ih h
    | undefined =>
      cases h
      cases rest <;> rfl
    | int => cases h
    | float => cases h
    | address => cases h

/-- A leaf of a changed datum is in what was put in, or it was there before. -/
theorem get_set {datum value changed leaf : Datum} {path place : List Nat}
    (hset : Datum.set value datum path = .ok changed) (hget : changed.get place = .ok leaf)
    (isLeaf : ∀ items, leaf ≠ .aggregate items) :
    (∃ rest, place = path ++ rest ∧ value.get rest = .ok leaf) ∨ datum.get place = .ok leaf := by
  induction path generalizing datum changed place with
  | nil =>
    cases hset
    exact .inl ⟨place, rfl, hget⟩
  | cons index path ih =>
    obtain ⟨items, item, part, rfl, hitem, inner, rfl⟩ := set_cons_eq_ok.mp hset
    have hlt : index < items.length := (List.getElem?_eq_some_iff.mp hitem).1
    cases place with
    | nil =>
      cases hget
      exact absurd rfl (isLeaf _)
    | cons other place =>
      by_cases same : index = other
      · subst same
        rw [get_aggregate (List.getElem?_set_self hlt)] at hget
        rcases ih inner hget with ⟨rest, rfl, found⟩ | found
        · exact .inl ⟨rest, rfl, found⟩
        · exact .inr ((get_aggregate hitem place).trans found)
      · right
        simp only [get] at hget ⊢
        rwa [List.getElem?_set_ne same] at hget

end Datum

/-- A path through a part goes on from the part. -/
theorem Ty.Descends.of_append {types : Registry} {outer mid inner : Ty} {path rest : List Nat}
    (h : outer.Descends types path mid) (whole : outer.Descends types (path ++ rest) inner) :
    mid.Descends types rest inner := by
  induction h with
  | here ty => exact whole
  | element _ _ ih =>
    cases whole with
    | element _ whole => exact ih whole
  | field hstruct hfields hfield _ ih =>
    cases whole with
    | field hstruct' hfields' hfield' whole =>
      cases hstruct.symm.trans hstruct'
      cases hfields.symm.trans hfields'
      cases hfield.symm.trans hfield'
      exact ih whole

namespace Program

variable (program : Program)

/-- The root is a constant global. -/
def IsConstant (root : Root) : Prop :=
  ∃ id found, root = .global id ∧ program.module.global? id = some found ∧ found.isConstant

/-- The address leads where a pointer of the type says. -/
def Reaches (address : Address) (ty : Ty) : Prop :=
  ∃ pointee isConst outer, ty = .pointer pointee isConst ∧
    program.rootType? address.root = some outer ∧
    outer.Descends program.types address.path pointee

/-- Besides, an address into a constant global is a pointer to constant characters. -/
structure Admits (address : Address) (ty : Ty) : Prop where
  reaches : program.Reaches address ty
  const : program.IsConstant address.root → ty = .constPointerTo .char

/-- Every address in the datum is admitted by the part of the type where it stands. -/
def Respects (datum : Datum) (ty : Ty) : Prop :=
  ∀ path address, datum.get path = .ok (.address address) →
    ∃ inner, ty.Descends program.types path inner ∧ program.Admits address inner

/-- All values and all objects respect their types, and no constant global was written to. -/
structure Respected (machine : Machine) : Prop where
  values : ∀ {id datum ty}, machine.values.lookup id = some datum →
    program.module.typeOf? id = some ty → program.Respects datum ty
  memory : ∀ {root object ty}, machine.object? root = some object →
    program.rootType? root = some ty → program.Respects object ty
  untouched : ∀ {root}, program.IsConstant root → machine.object? root = none

variable {program : Program} {machine : Machine}

theorem respects_of_not_holds {datum : Datum} (h : ∀ address, ¬ datum.Holds address) (ty : Ty) :
    program.Respects datum ty :=
  fun _ address hget => absurd (Datum.holds_of_get hget (.here address)) (h address)

theorem respects_address {address : Address} {ty : Ty} (h : program.Admits address ty) :
    program.Respects (.address address) ty := by
  intro path other hget
  cases path with
  | nil =>
    cases hget
    exact ⟨ty, .here ty, h⟩
  | cons index path => cases hget

theorem Respects.admits {address : Address} {ty : Ty} (h : program.Respects (.address address) ty) :
    program.Admits address ty := by
  obtain ⟨inner, descends, admits⟩ := h [] address rfl
  cases descends
  exact admits

theorem Respects.get {datum found : Datum} {ty inner : Ty} {path : List Nat}
    (h : program.Respects datum ty) (descends : ty.Descends program.types path inner)
    (hget : datum.get path = .ok found) : program.Respects found inner := by
  intro rest address hrest
  have hwhole := (Datum.get_append hget rest).trans hrest
  obtain ⟨last, whole, admits⟩ := h (path ++ rest) address hwhole
  exact ⟨last, descends.of_append whole, admits⟩

theorem Respects.set {datum value changed : Datum} {ty inner : Ty} {path : List Nat}
    (h : program.Respects datum ty) (hvalue : program.Respects value inner)
    (descends : ty.Descends program.types path inner)
    (hset : Datum.set value datum path = .ok changed) : program.Respects changed ty := by
  intro place address hget
  rcases Datum.get_set hset hget nofun with ⟨rest, rfl, new⟩ | old
  · obtain ⟨last, within, admits⟩ := hvalue rest address new
    exact ⟨last, descends.append within, admits⟩
  · exact h place address old

/-- A pointer may be kept as one of another right to write, unless it is to constant characters. -/
theorem Respects.similar {datum : Datum} {a b : Ty} (h : program.Respects datum a)
    (similar : a.Similar b) (kept : a = .constPointerTo .char → b = a) :
    program.Respects datum b := by
  rcases similar.eq_or_pointer with rfl | ⟨pointee, flag, other, rfl, rfl⟩
  · exact h
  · intro path address hget
    obtain ⟨inner, descends, ⟨_, _, outer, hty, hroot, within⟩, const⟩ := h path address hget
    cases descends
    cases hty
    refine ⟨_, .here _, ⟨pointee, other, outer, rfl, hroot, within⟩, fun isConstant => ?_⟩
    have same := const isConstant
    exact (kept same).trans same

theorem respected_empty (program : Program) : program.Respected {} :=
  ⟨nofun, nofun, fun _ => rfl⟩

namespace Respected

/-- An object other than a constant global can be put into memory. -/
theorem setObject (h : program.Respected machine) {root : Root} {object : Datum}
    (written : ¬ program.IsConstant root)
    (respects : ∀ ty, program.rootType? root = some ty → program.Respects object ty) :
    program.Respected (machine.setObject root object) where
  values := h.values
  memory {other found ty} hfound hty := by
    rw [Machine.object?_setObject] at hfound
    split at hfound
    · rename_i same
      cases hfound
      exact respects ty (same ▸ hty)
    · exact h.memory hfound hty
  untouched {other} isConstant := by
    rw [Machine.object?_setObject, if_neg]
    · exact h.untouched isConstant
    · rintro rfl
      exact written isConstant

theorem setValue (h : program.Respected machine) {id : ValueId} {datum : Datum} {ty : Ty}
    (hty : program.module.typeOf? id = some ty) (respects : program.Respects datum ty) :
    program.Respected (machine.setValue id datum) where
  values {other found ty'} hfound hty' := by
    rw [Machine.lookup_setValue] at hfound
    split at hfound
    · rename_i same
      cases hfound
      rw [same, hty] at hty'
      cases hty'
      exact respects
    · exact h.values hfound hty'
  memory := h.memory
  untouched := h.untouched

theorem object (h : program.Respected machine) {root : Root} {ty : Ty} {object : Datum}
    (hty : program.rootType? root = some ty) (hobject : program.object machine root = .ok object) :
    program.Respects object ty := by
  simp only [Program.object] at hobject
  split at hobject
  · rename_i found hfound
    cases hobject
    exact h.memory hfound hty
  · refine respects_of_not_holds ?_ ty
    unfold initial at hobject
    split at hobject
    · cases hobject
      rintro _ ⟨⟩
    · split at hobject
      · cases hobject
        exact Datum.not_holds_ofConstant _
      · exact (Ty.fits_blankWithin hobject).not_holds
      · cases hobject
        rintro _ ⟨⟩

theorem read (h : program.Respected machine) {address : Address} {pointee : Ty} {isConst : Bool}
    {datum : Datum} (reaches : program.Reaches address (.pointer pointee isConst))
    (hread : program.read machine address = .ok datum) : program.Respects datum pointee := by
  obtain ⟨_, _, outer, hty, hroot, descends⟩ := reaches
  cases hty
  obtain ⟨object, hobject, hget⟩ := of_read hread
  exact (h.object hroot hobject).get descends hget

/-- A value respects its type, unless it is the address of a literal. -/
theorem value (h : program.Respected machine) {id : ValueId} {ty : Ty} {datum : Datum}
    (typed : program.module.Typed program.types) (ordinary : program.module.Ordinary id ty)
    (hvalue : program.value machine id = .ok datum) : program.Respects datum ty := by
  obtain ⟨v, hv, rfl⟩ := Option.map_eq_some_iff.mp ordinary.typed
  have typed := typed id v hv
  unfold Program.value at hvalue
  rw [hv] at hvalue
  cases typed with
  | constant literal =>
    cases hvalue
    exact respects_of_not_holds (Datum.not_holds_ofConstant _) _
  | @globalAddress global found hfound =>
    cases hvalue
    refine respects_address ⟨⟨found.ty, false, found.ty, rfl, rootType?_global hfound, .here _⟩, ?_⟩
    rintro ⟨_, other, same, hother, isConstant⟩
    cases same
    exact absurd ⟨_, _, _, hv, rfl, hother, isConstant⟩ ordinary.ordinary
  | instruction block? typed =>
    dsimp only at hvalue
    split at hvalue
    · rename_i found hfound
      cases hvalue
      exact h.values hfound ordinary.typed
    · cases hvalue

/-- The address that a value is leads where its type says, and is admitted there unless it is that
of a literal. -/
theorem addressIn (h : program.Respected machine) (typed : program.module.Typed program.types)
    {pointer : ValueId} {ty : Ty} {address : Address}
    (hty : program.module.typeOf? pointer = some ty)
    (haddress : program.addressIn machine pointer = .ok address) :
    program.Reaches address ty ∧
      (program.module.Ordinary pointer ty → program.Admits address ty) := by
  have hvalue := value_of_addressIn haddress
  have admits : program.module.Ordinary pointer ty → program.Admits address ty := fun ordinary =>
    (h.value typed ordinary hvalue).admits
  refine ⟨?_, admits⟩
  by_cases literal : program.module.IsLiteral pointer
  · obtain ⟨v, global, found, hv, hkind, hfound, -⟩ := literal
    cases hty.symm.trans (Module.typeOf?_of_value? hv)
    have typed := typed pointer v hv
    unfold Program.value at hvalue
    rw [hv] at hvalue
    cases typed with
    | constant => cases hkind
    | instruction => cases hkind
    | @globalAddress _ other hother =>
      cases hkind
      cases hvalue
      exact ⟨other.ty, false, other.ty, rfl, rootType?_global hother, .here _⟩
  · exact (admits ⟨hty, literal⟩).reaches

end Respected
end Program
end FormLowering
