import FormLowering.Proofs.Execution.Respect
import FormLowering.Proofs.Execution.Run

/-!
The integers of a run. Code computes none: one that stands at a place of a primitive kind is a
constant of that kind, or it stood at such a place in the initializer of a global. So what holds of
those holds of all that a run ever has, in whatever order the code runs and wherever it stops.
-/

namespace FormLowering

/-- Nothing but undefined values. -/
inductive Datum.Blank : Datum → Prop
  | undefined : Blank .undefined
  | aggregate {items : List Datum} : (∀ item ∈ items, Blank item) → Blank (.aggregate items)

theorem Datum.Blank.get {datum found : Datum} {path : List Nat} (h : datum.Blank)
    (hget : datum.get path = .ok found) : found.Blank := by
  induction path generalizing datum with
  | nil =>
    unfold Datum.get at hget
    cases hget
    exact h
  | cons index path ih =>
    cases h with
    | undefined =>
      cases hget
      exact .undefined
    | @aggregate items blank =>
      cases hitem : items[index]? with
      | none =>
        simp only [Datum.get, hitem] at hget
        cases hget
      | some item =>
        rw [get_aggregate hitem] at hget
        exact ih (blank item (List.mem_of_getElem? hitem)) hget

theorem Ty.blank_blankWithin {types : Registry} {depth : Nat} {ty : Ty} {datum : Datum}
    (h : ty.blankWithin types depth = .ok datum) : datum.Blank := by
  induction depth generalizing ty datum with
  | zero => cases h
  | succ depth ih =>
    cases ty with
    | primitive | pointer | param =>
      cases h
      exact .undefined
    | enum name =>
      cases h
      refine .aggregate fun item mem => ?_
      cases List.mem_singleton.mp mem
      exact .undefined
    | array length element =>
      unfold blankWithin at h
      split at h
      · cases h
      · cases hblank : element.blankWithin types depth with
        | error trap =>
          rw [hblank] at h
          cases h
        | ok item =>
          rw [hblank] at h
          cases h
          refine .aggregate fun other mem => ?_
          cases List.eq_of_mem_replicate mem
          exact ih hblank
    | struct name =>
      unfold blankWithin at h
      split at h
      · rename_i fields _
        cases hblank : fields.mapM fun field => field.ty.blankWithin types depth with
        | error trap =>
          rw [hblank] at h
          cases h
        | ok items =>
          rw [hblank] at h
          cases h
          obtain ⟨hlength, hget⟩ := List.getElem?_of_mapM_ok hblank
          refine .aggregate fun item mem => ?_
          obtain ⟨index, hindex⟩ := List.mem_iff_getElem?.mp mem
          have hlt : index < fields.length := by
            rw [← hlength]
            exact (List.getElem?_eq_some_iff.mp hindex).1
          exact ih (hget index item _ hindex (List.getElem?_eq_getElem hlt))
      · cases h

namespace Program

variable (program : Program) (good : Primitive → Int → Prop)

/-- What may stand at a place of the type: an integer only if it is good for the kind, and an
address only if it leads where a pointer of the type says. -/
structure Allows (leaf : Datum) (ty : Ty) : Prop where
  int : ∀ {value kind}, leaf = .int value → ty = .primitive kind → good kind value
  address : ∀ {address}, leaf = .address address → program.Reaches address ty

/-- Wherever a path into the type leads in the datum, there stands what may stand there. -/
def Fills (datum : Datum) (ty : Ty) : Prop :=
  ∀ path inner leaf, ty.Descends program.types path inner → datum.get path = .ok leaf →
    program.Allows good leaf inner

/-- All values and all objects fill their types. -/
structure Filled (machine : Machine) : Prop where
  values : ∀ {id datum ty}, machine.values.lookup id = some datum →
    program.module.typeOf? id = some ty → program.Fills good datum ty
  memory : ∀ {root object ty}, machine.object? root = some object →
    program.rootType? root = some ty → program.Fills good object ty

/-- The code is typed, and all integers that it starts from are good for the kinds of their
places. -/
structure Supplies : Prop where
  typed : program.module.Typed program.types
  constants : ∀ {id bits value kind block?}, program.module.value? id =
    some ⟨.constant (.int bits value), .primitive kind, block?⟩ → good kind value
  globals : ∀ {id found init path kind value}, program.module.global? id = some found →
    found.init? = some init → found.ty.Descends program.types path (.primitive kind) →
    (Datum.ofConstant init).get path = .ok (.int value) → good kind value

variable {program : Program} {good : Primitive → Int → Prop} {machine : Machine}

theorem allows_aggregate (items : List Datum) (ty : Ty) :
    program.Allows good (.aggregate items) ty :=
  ⟨nofun, nofun⟩

theorem Fills.allows {leaf : Datum} {ty : Ty} (h : program.Fills good leaf ty) :
    program.Allows good leaf ty :=
  h [] ty leaf (.here ty) (by unfold Datum.get; rfl)

theorem fills_address {address : Address} {ty : Ty} (h : program.Reaches address ty) :
    program.Fills good (.address address) ty := by
  intro path inner leaf descends hget
  cases path with
  | nil =>
    cases hget
    cases descends
    exact ⟨nofun, fun same => Datum.address.inj same ▸ h⟩
  | cons index path => cases hget

theorem fills_of_blank {datum : Datum} (h : datum.Blank) (ty : Ty) :
    program.Fills good datum ty := by
  intro path inner leaf _ hget
  cases h.get hget with
  | undefined => exact ⟨nofun, nofun⟩
  | aggregate => exact allows_aggregate _ inner

theorem Fills.get {datum found : Datum} {ty inner : Ty} {path : List Nat}
    (h : program.Fills good datum ty) (descends : ty.Descends program.types path inner)
    (hget : datum.get path = .ok found) : program.Fills good found inner := by
  intro rest last leaf within hrest
  have hwhole := (Datum.get_append hget rest).trans hrest
  exact h (path ++ rest) last leaf (descends.append within) hwhole

theorem Fills.set {datum value changed : Datum} {ty inner : Ty} {path : List Nat}
    (h : program.Fills good datum ty) (hvalue : program.Fills good value inner)
    (descends : ty.Descends program.types path inner)
    (hset : Datum.set value datum path = .ok changed) : program.Fills good changed ty := by
  intro place last leaf within hget
  -- Above the path there stand only aggregates, which may stand anywhere.
  by_cases isLeaf : ∀ items, leaf ≠ .aggregate items
  · rcases Datum.get_set hset hget isLeaf with ⟨rest, rfl, new⟩ | old
    · exact hvalue rest last leaf (descends.of_append within) new
    · exact h place last leaf within old
  · obtain ⟨items, same⟩ := Classical.not_forall.mp isLeaf
    rw [Classical.not_not.mp same]
    exact allows_aggregate items last

/-- The right to write through a pointer says nothing of where it leads. -/
theorem Fills.similar {datum : Datum} {a b : Ty} (h : program.Fills good datum a)
    (similar : a.Similar b) : program.Fills good datum b := by
  rcases similar.eq_or_pointer with rfl | ⟨pointee, flag, other, rfl, rfl⟩
  · exact h
  · intro path inner leaf descends hget
    cases descends
    refine ⟨nofun, fun {address} same => ?_⟩
    obtain ⟨_, _, outer, hty, hroot, within⟩ := (h [] _ leaf (.here _) hget).address same
    cases hty
    exact ⟨pointee, other, outer, rfl, hroot, within⟩

theorem filled_empty (program : Program) (good : Primitive → Int → Prop) :
    program.Filled good {} :=
  ⟨nofun, nofun⟩

namespace Filled

theorem setObject (h : program.Filled good machine) {root : Root} {object : Datum}
    (fills : ∀ ty, program.rootType? root = some ty → program.Fills good object ty) :
    program.Filled good (machine.setObject root object) where
  values := h.values
  memory {other found ty} hfound hty := by
    rw [Machine.object?_setObject] at hfound
    split at hfound
    · rename_i same
      cases hfound
      exact fills ty (same ▸ hty)
    · exact h.memory hfound hty

theorem setValue (h : program.Filled good machine) {id : ValueId} {datum : Datum} {ty : Ty}
    (hty : program.module.typeOf? id = some ty) (fills : program.Fills good datum ty) :
    program.Filled good (machine.setValue id datum) where
  values {other found ty'} hfound hty' := by
    rw [Machine.lookup_setValue] at hfound
    split at hfound
    · rename_i same
      cases hfound
      rw [same, hty] at hty'
      cases hty'
      exact fills
    · exact h.values hfound hty'
  memory := h.memory

section Supplied

variable (h : program.Filled good machine) (supplies : program.Supplies good)

include h supplies

theorem object {root : Root} {ty : Ty} {object : Datum} (hty : program.rootType? root = some ty)
    (hobject : program.object machine root = .ok object) : program.Fills good object ty := by
  simp only [Program.object] at hobject
  split at hobject
  · rename_i found hfound
    cases hobject
    exact h.memory hfound hty
  · unfold initial at hobject
    split at hobject
    · cases hobject
      exact fills_of_blank .undefined ty
    · split at hobject
      · rename_i hfound
        cases hobject
        cases hty.symm.trans (rootType?_global hfound)
        refine fun path inner leaf descends hget => ⟨fun int primitive => ?_, fun address => ?_⟩
        · subst int primitive
          exact supplies.globals hfound rfl descends hget
        · subst address
          have holds := Datum.holds_of_get hget (.here _)
          exact absurd holds (Datum.not_holds_ofConstant _ _)
      · exact fills_of_blank (Ty.blank_blankWithin hobject) ty
      · cases hobject
        exact fills_of_blank .undefined ty

theorem read {address : Address} {pointee : Ty} {isConst : Bool} {datum : Datum}
    (reaches : program.Reaches address (.pointer pointee isConst))
    (hread : program.read machine address = .ok datum) : program.Fills good datum pointee := by
  obtain ⟨_, _, outer, hty, hroot, descends⟩ := reaches
  cases hty
  obtain ⟨object, hobject, hget⟩ := of_read hread
  exact (h.object supplies hroot hobject).get descends hget

theorem value {id : ValueId} {ty : Ty} {datum : Datum} (hty : program.module.typeOf? id = some ty)
    (hvalue : program.value machine id = .ok datum) : program.Fills good datum ty := by
  obtain ⟨v, hv, rfl⟩ := Option.map_eq_some_iff.mp hty
  have typed := supplies.typed id v hv
  unfold Program.value at hvalue
  rw [hv] at hvalue
  cases typed with
  | constant literal =>
    cases hvalue
    refine fun path inner leaf descends hget => ⟨fun int primitive => ?_, fun address => ?_⟩
    · subst int primitive
      cases literal with
      | int bits found kind =>
        cases descends
        cases hget
        exact supplies.constants hv
      | float =>
        cases descends
        cases hget
      | enum => cases descends
    · subst address
      exact absurd (Datum.holds_of_get hget (.here _)) (Datum.not_holds_ofConstant _ _)
  | @globalAddress global found hfound =>
    cases hvalue
    exact fills_address ⟨found.ty, false, found.ty, rfl, rootType?_global hfound, .here _⟩
  | instruction block? typed =>
    dsimp only at hvalue
    split at hvalue
    · rename_i found hfound
      cases hvalue
      exact h.values hfound hty
    · cases hvalue

theorem addressIn {pointer : ValueId} {ty : Ty} {address : Address}
    (hty : program.module.typeOf? pointer = some ty)
    (haddress : program.addressIn machine pointer = .ok address) : program.Reaches address ty := by
  have hvalue := value_of_addressIn haddress
  exact (h.value supplies hty hvalue).allows.address rfl

theorem write {address : Address} {stored : Ty} {isConst : Bool} {datum : Datum}
    (reaches : program.Reaches address (.pointer stored isConst))
    (fills : program.Fills good datum stored) :
    program.Filled good ((program.write address datum).outcome machine).2 := by
  obtain ⟨_, _, outer, hty, hroot, descends⟩ := reaches
  cases hty
  rw [outcome_write]
  cases hobject : program.object machine address.root with
  | error trap => exact h
  | ok object =>
    dsimp only
    have old := h.object supplies hroot hobject
    have loaded : program.Filled good (machine.setObject address.root object) := by
      refine h.setObject fun ty hty => ?_
      cases hroot.symm.trans hty
      exact old
    cases hset : Datum.set datum object address.path with
    | error trap => exact loaded
    | ok changed =>
      refine loaded.setObject fun ty hty => ?_
      cases hroot.symm.trans hty
      exact old.set fills descends hset

end Supplied
end Filled

/-! ## Instructions -/

/-- What an instruction leaves fills its types, and so does its answer, if any. -/
def EndsFilled (program : Program) (good : Primitive → Int → Prop) (ty : Ty)
    (ended : Except Trap Datum × Machine) : Prop :=
  program.Filled good ended.2 ∧ ∀ datum, ended.1 = .ok datum → program.Fills good datum ty

section Execute

variable {id : ValueId} (h : program.Filled good machine)

include h

theorem alloca_endsFilled {allocated : Ty} {name : String} {block? : Option BlockId}
    (hv : program.module.value? id =
      some ⟨.instruction (.alloca allocated name), .pointerTo allocated, block?⟩) :
    program.EndsFilled good (.pointerTo allocated)
      ((program.execute id (.alloca allocated name)).outcome machine) := by
  have hroot := rootType?_stack hv
  rw [outcome_alloca]
  cases hblank : allocated.blank program.types with
  | error trap => exact ⟨h, nofun⟩
  | ok slot =>
    refine ⟨h.setObject fun ty _ => ?_, fun datum hdatum => ?_⟩
    · exact fills_of_blank (Ty.blank_blankWithin hblank) ty
    · cases hdatum
      exact fills_address ⟨allocated, false, allocated, rfl, hroot, .here _⟩

variable (supplies : program.Supplies good)

include supplies

theorem load_endsFilled {pointer : ValueId} {ty : Ty} {isConst : Bool}
    (hty : program.module.typeOf? pointer = some (.pointer ty isConst)) :
    program.EndsFilled good ty ((program.execute id (.load pointer)).outcome machine) := by
  rw [outcome_load]
  cases haddress : program.addressIn machine pointer with
  | error trap => exact ⟨h, nofun⟩
  | ok address =>
    refine ⟨h, fun datum hdatum => ?_⟩
    exact h.read supplies (h.addressIn supplies hty haddress) hdatum

theorem store_endsFilled {value pointer : ValueId} {source stored : Ty} {isConst : Bool}
    (hp : program.module.typeOf? pointer = some (.pointer stored isConst))
    (hs : program.module.typeOf? value = some source) (similar : source.Similar stored) :
    program.EndsFilled good .void
      ((program.execute id (.store value pointer)).outcome machine) := by
  rw [outcome_store]
  cases haddress : program.addressIn machine pointer with
  | error trap => exact ⟨h, nofun⟩
  | ok address =>
    cases hdatum : program.value machine value with
    | error trap => exact ⟨h, nofun⟩
    | ok datum =>
      have fills := (h.value supplies hs hdatum).similar similar
      have later := h.write supplies (h.addressIn supplies hp haddress) fills
      dsimp only
      revert later
      rcases (program.write address datum).outcome machine with ⟨trap | _, after⟩
      · exact fun later => ⟨later, nofun⟩
      · refine fun later => ⟨later, fun found hfound => ?_⟩
        cases hfound
        exact fills_of_blank .undefined .void

theorem gep_endsFilled {pointer : ValueId} {outer inner : Ty} {isConst : Bool} {index : Nat}
    (hty : program.module.typeOf? pointer = some (.pointer outer isConst))
    (descends : outer.Descends program.types [index] inner) (flag : Bool) :
    program.EndsFilled good (.pointer inner flag)
      ((program.execute id (.gep pointer [0, index])).outcome machine) := by
  rw [outcome_gep]
  cases haddress : program.addressIn machine pointer with
  | error trap => exact ⟨h, nofun⟩
  | ok address =>
    refine ⟨h, fun datum hdatum => ?_⟩
    cases hdatum
    obtain ⟨_, _, whole, houter, hroot, above⟩ := h.addressIn supplies hty haddress
    cases houter
    exact fills_address ⟨inner, flag, whole, rfl, hroot, above.append descends⟩

theorem execute_endsFilled {instruction : Instruction} {ty : Ty} {block? : Option BlockId}
    (hv : program.module.value? id = some ⟨.instruction instruction, ty, block?⟩) :
    program.EndsFilled good ty ((program.execute id instruction).outcome machine) := by
  have typing := supplies.typed id _ hv
  cases typing with
  | instruction _ typing =>
    cases typing with
    | alloca allocated name => exact alloca_endsFilled h hv
    | load hp => exact load_endsFilled h supplies hp
    | store hp hs similar => exact store_endsFilled h supplies hp hs similar
    | @element pointer length element isConst flag hp =>
      have descends := Ty.descends_first program.types length element
      exact gep_endsFilled h supplies hp descends flag
    | @field pointer name struct fields index field isConst hp hstruct hfields hfield =>
      have descends := Ty.descends_field hstruct hfields hfield
      exact gep_endsFilled h supplies hp descends false

theorem filled_step {instruction : Instruction}
    (hi : program.module.instruction? id = some instruction) :
    program.Filled good ((program.step id instruction).outcome machine).2 := by
  obtain ⟨ty, block?, hv⟩ := Module.value?_of_instruction? hi
  have executed := execute_endsFilled h supplies hv
  rw [outcome_step]
  revert executed
  rcases (program.execute id instruction).outcome machine with ⟨trap | datum, later⟩
  · exact fun executed => executed.1
  · exact fun executed => executed.1.setValue (Module.typeOf?_of_value? hv) (executed.2 datum rfl)

end Execute

/-- After any functions, and at any point of one more. -/
theorem Supplies.filled (supplies : program.Supplies good) (earlier : List FunctionId)
    (function : FunctionId) (count : Nat) :
    program.Filled good ((program.execution ((program.code function).take count)).outcome
      (program.machineAfter earlier)).2 := by
  have step {id : ValueId} {instruction : Instruction} {machine : Machine}
      (hi : program.module.instruction? id = some instruction)
      (h : program.Filled good machine) :
      program.Filled good ((program.step id instruction).outcome machine).2 :=
    filled_step h supplies hi
  have before : program.Filled good (program.machineAfter earlier) :=
    preserved_machineAfter step (program.filled_empty good) earlier
  refine preserved_execution step (fun entry mem => ?_) before
  exact instruction?_of_mem_code (List.mem_of_mem_take mem)

end Program
end FormLowering
