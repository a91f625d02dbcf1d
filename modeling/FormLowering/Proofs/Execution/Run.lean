import FormLowering.Proofs.Code.Order
import FormLowering.Proofs.Execution.Safety

/-!
Runs of typed code. One instruction keeps a machine safe, and by induction so does any code in
which every instruction comes after its operands.
-/

namespace FormLowering
namespace Program

variable {program : Program} {machine : Machine} {α : Type}

/-- A run ends in a safe machine, loses nothing, and was stopped only by an excused trap. -/
structure EndsSafely (program : Program) (machine : Machine) (ended : Except Trap α × Machine) :
    Prop where
  safe : program.Safe ended.2
  keeps : machine.Keeps ended.2
  excused : ∀ trap, ended.1 = .error trap → trap.Excused program ended.2

/-- The value is there: it is a constant or an address, or its instruction ran. -/
def Computed (program : Program) (machine : Machine) (id : ValueId) : Prop :=
  ∃ datum, program.value machine id = .ok datum

theorem EndsSafely.ok (safe : program.Safe machine) (a : α) :
    program.EndsSafely machine (.ok a, machine) :=
  ⟨safe, machine.keeps_refl, nofun⟩

theorem EndsSafely.error (safe : program.Safe machine) {trap : Trap}
    (h : trap.Excused program machine) :
    program.EndsSafely machine ((.error trap : Except Trap α), machine) := by
  refine ⟨safe, machine.keeps_refl, ?_⟩
  intro other hother
  cases hother
  exact h

theorem write_endsSafely (safe : program.Safe machine) (sound : program.Sound) {address : Address}
    {ty : Ty} (leads : program.Leads machine address ty) {datum : Datum}
    (shaped : program.Shaped machine datum ty) :
    program.EndsSafely machine ((program.write address datum).outcome machine) := by
  obtain ⟨outer, hroot, descends⟩ := leads.descends
  rw [outcome_write]
  rcases safe.object sound hroot leads.present with ⟨object, hobject, fits⟩ | ⟨part, hobject⟩
  · rw [hobject]
    dsimp only
    have loaded := machine.keeps_setObject address.root object
    have safe : program.Safe (machine.setObject address.root object) := by
      apply safe.setObject
      intro ty hty
      cases hroot.symm.trans hty
      exact fits.keeps loaded
    rcases Datum.Fits.set fits shaped descends with ⟨changed, hset, fits⟩ | ⟨hset, empty⟩
    · rw [hset]
      have stored := (machine.setObject address.root object).keeps_setObject address.root changed
      refine ⟨safe.setObject fun ty hty => ?_, loaded.trans stored, nofun⟩
      cases hroot.symm.trans hty
      exact Shaped.keeps fits (loaded.trans stored)
    · rw [hset]
      refine ⟨safe, loaded, ?_⟩
      intro trap htrap
      cases htrap
      exact hasEmptyArray_of_root hroot empty
  · rw [hobject]
    exact .error safe trivial

section Execute

variable (safe : program.Safe machine) (sound : program.Sound) {id : ValueId}

include safe

theorem alloca_endsSafely {ty : Ty} {name : String} {block? : Option BlockId}
    (hv : program.module.value? id =
      some ⟨.instruction (.alloca ty name), .pointerTo ty, block?⟩) :
    let ended := (program.execute id (.alloca ty name)).outcome machine
    program.EndsSafely machine ended ∧
      ∀ datum, ended.1 = .ok datum → program.Shaped ended.2 datum (.pointerTo ty) := by
  intro ended
  have hended : ended = (program.execute id (.alloca ty name)).outcome machine := rfl
  rw [outcome_alloca] at hended
  have hroot := rootType?_stack hv
  cases hblank : ty.blank program.types with
  | error trap =>
    obtain ⟨part, rfl⟩ := Ty.unshaped_of_blankWithin hblank
    rw [hblank] at hended
    rw [hended]
    exact ⟨.error safe trivial, nofun⟩
  | ok slot =>
    rw [hblank] at hended
    rw [hended]
    have keeps := machine.keeps_setObject (.stack id) slot
    refine ⟨⟨safe.setObject fun other hother => ?_, keeps, nofun⟩, fun datum hdatum => ?_⟩
    · cases hroot.symm.trans hother
      exact Ty.fits_blankWithin hblank
    · cases hdatum
      refine .address false ⟨fun other hother => ?_, ty, hroot, .here ty⟩
      rw [Machine.object?_setObject, if_pos rfl]
      rfl

include sound

theorem load_endsSafely {pointer : ValueId} {ty : Ty} {isConst : Bool}
    (hty : program.module.typeOf? pointer = some (.pointer ty isConst))
    (computed : program.Computed machine pointer) :
    let ended := (program.execute id (.load pointer)).outcome machine
    program.EndsSafely machine ended ∧
      ∀ datum, ended.1 = .ok datum → program.Shaped ended.2 datum ty := by
  intro ended
  have hended : ended = (program.execute id (.load pointer)).outcome machine := rfl
  rw [outcome_load] at hended
  rcases safe.addressIn sound hty computed with ⟨address, haddress, leads⟩ | ⟨haddress, undefined⟩
  · rw [haddress] at hended
    rcases safe.read sound leads with ⟨datum, hread, shaped⟩ | ⟨trap, hread, excused⟩
    · have hended : ended = (.ok datum, machine) := hended.trans (congrArg (·, machine) hread)
      rw [hended]
      refine ⟨.ok safe datum, ?_⟩
      intro found hfound
      cases hfound
      exact shaped
    · have hended : ended = (.error trap, machine) := hended.trans (congrArg (·, machine) hread)
      rw [hended]
      exact ⟨.error safe excused, nofun⟩
  · rw [haddress] at hended
    rw [hended]
    exact ⟨.error safe undefined, nofun⟩

theorem store_endsSafely {value pointer : ValueId} {source stored : Ty} {isConst : Bool}
    (hpointer : program.module.typeOf? pointer = some (.pointer stored isConst))
    (hsource : program.module.typeOf? value = some source) (similar : source.Similar stored)
    (computed : ∀ operand ∈ [value, pointer], program.Computed machine operand) :
    let ended := (program.execute id (.store value pointer)).outcome machine
    program.EndsSafely machine ended ∧
      ∀ datum, ended.1 = .ok datum → program.Shaped ended.2 datum .void := by
  intro ended
  have hended : ended = (program.execute id (.store value pointer)).outcome machine := rfl
  rw [outcome_store] at hended
  rcases safe.addressIn sound hpointer (computed pointer (by simp)) with
    ⟨address, haddress, leads⟩ | ⟨haddress, undefined⟩
  · obtain ⟨datum, hdatum⟩ := computed value (by simp)
    rw [haddress, hdatum] at hended
    dsimp only at hended
    have shaped := Datum.Fits.similar (safe.value sound hdatum hsource) similar
    have written := write_endsSafely safe sound leads shaped
    revert hended written
    rcases (program.write address datum).outcome machine with ⟨trap | _, later⟩
    · intro hended written
      rw [hended]
      exact ⟨⟨written.safe, written.keeps, fun other hother => written.excused other (by cases hother; rfl)⟩, nofun⟩
    · intro hended written
      rw [hended]
      refine ⟨⟨written.safe, written.keeps, nofun⟩, ?_⟩
      intro found hfound
      cases hfound
      exact .undefined rfl
  · rw [haddress] at hended
    rw [hended]
    exact ⟨.error safe undefined, nofun⟩

/-- A component of what a pointer leads to is addressed by one more index. -/
theorem gep_endsSafely {pointer : ValueId} {outer inner : Ty} {isConst : Bool} {index : Nat}
    (hty : program.module.typeOf? pointer = some (.pointer outer isConst))
    (descends : outer.Descends program.types [index] inner) (flag : Bool)
    (computed : program.Computed machine pointer) :
    let ended := (program.execute id (.gep pointer [0, index])).outcome machine
    program.EndsSafely machine ended ∧
      ∀ datum, ended.1 = .ok datum → program.Shaped ended.2 datum (.pointer inner flag) := by
  intro ended
  have hended : ended = (program.execute id (.gep pointer [0, index])).outcome machine := rfl
  rw [outcome_gep] at hended
  rcases safe.addressIn sound hty computed with ⟨address, haddress, leads⟩ | ⟨haddress, undefined⟩
  · rw [haddress] at hended
    rw [hended]
    refine ⟨.ok safe _, ?_⟩
    intro datum hdatum
    cases hdatum
    obtain ⟨root, hroot, above⟩ := leads.descends
    exact .address flag ⟨leads.present, root, hroot, above.append descends⟩
  · rw [haddress] at hended
    rw [hended]
    exact ⟨.error safe undefined, nofun⟩

/-- Executing a typed instruction on computed operands ends safely, with a value of its type. -/
theorem execute_endsSafely {instruction : Instruction} {ty : Ty} {block? : Option BlockId}
    (hv : program.module.value? id = some ⟨.instruction instruction, ty, block?⟩)
    (computed : ∀ operand ∈ instruction.operands, program.Computed machine operand) :
    let ended := (program.execute id instruction).outcome machine
    program.EndsSafely machine ended ∧
      ∀ datum, ended.1 = .ok datum → program.Shaped ended.2 datum ty := by
  have typed := sound.typed id _ hv
  cases typed with
  | instruction _ typed =>
    cases typed with
    | alloca allocated name => exact alloca_endsSafely safe hv
    | load hp => exact load_endsSafely safe sound hp (computed _ (by simp [Instruction.operands]))
    | store hp hs similar => exact store_endsSafely safe sound hp hs similar computed
    | @element pointer length element isConst flag hp =>
      have descends := Ty.descends_first program.types length element
      exact gep_endsSafely safe sound hp descends flag (computed _ (by simp [Instruction.operands]))
    | @field pointer name struct fields index field isConst hp hstruct hfields hfield =>
      have descends := Ty.descends_field hstruct hfields hfield
      exact gep_endsSafely safe sound hp descends false (computed _ (by simp [Instruction.operands]))

/-- A step of the machine also records the value. -/
theorem step_endsSafely {instruction : Instruction} {ty : Ty} {block? : Option BlockId}
    (hv : program.module.value? id = some ⟨.instruction instruction, ty, block?⟩)
    (computed : ∀ operand ∈ instruction.operands, program.Computed machine operand) :
    let ended := (program.step id instruction).outcome machine
    program.EndsSafely machine ended ∧ (ended.1 = .ok () → program.Computed ended.2 id) := by
  intro ended
  have hended : ended = (program.step id instruction).outcome machine := rfl
  rw [outcome_step] at hended
  obtain ⟨executed, shaped⟩ := execute_endsSafely safe sound hv computed
  revert hended executed shaped
  rcases (program.execute id instruction).outcome machine with ⟨trap | datum, later⟩
  · intro hended executed _
    rw [hended]
    exact ⟨⟨executed.safe, executed.keeps, fun other hother => executed.excused other (by cases hother; rfl)⟩, nofun⟩
  · intro hended executed shaped
    rw [hended]
    have recorded := later.keeps_setValue id datum
    have hty : program.module.typeOf? id = some ty := Module.typeOf?_of_value? hv
    refine ⟨⟨executed.safe.setValue hty (shaped datum rfl), executed.keeps.trans recorded, nofun⟩, ?_⟩
    intro _
    refine ⟨datum, ?_⟩
    simp only [Program.value]
    rw [hv]
    dsimp only
    rw [Machine.lookup_setValue, if_pos rfl]

end Execute

theorem Computed.keeps {later : Machine} {id : ValueId} (h : program.Computed machine id)
    (keeps : machine.Keeps later) : program.Computed later id := by
  obtain ⟨datum, hdatum⟩ := h
  simp only [Computed, Program.value] at *
  split at hdatum
  · exact ⟨_, rfl⟩
  · exact ⟨_, rfl⟩
  · split at hdatum
    · rename_i found hfound
      have kept : (later.values.lookup id).isSome := keeps.value (by rw [hfound]; rfl)
      obtain ⟨other, hother⟩ := Option.isSome_iff_exists.mp kept
      rw [hother]
      exact ⟨other, rfl⟩
    · cases hdatum

theorem computed_of_fixed {id : ValueId} (h : program.module.Fixed id) (machine : Machine) :
    program.Computed machine id := by
  obtain ⟨⟨kind, ty, block?⟩, hv, hkind⟩ := h
  simp only [Computed, Program.value]
  rw [hv]
  cases kind with
  | constant constant => exact ⟨_, rfl⟩
  | globalAddress global => exact ⟨_, rfl⟩
  | instruction instruction => exact absurd rfl (hkind instruction)

/-- Code in order ends safely: when an instruction is reached, its operands are computed. -/
theorem execution_endsSafely (sound : program.Sound) {ready ids : List ValueId}
    (ordered : program.module.Ordered ready ids) (safe : program.Safe machine)
    (computed : ∀ id ∈ ready, program.Computed machine id) :
    program.EndsSafely machine ((program.execution
      (ids.filterMap fun id => (program.module.instruction? id).map (id, ·))).outcome machine) := by
  induction ids generalizing ready machine with
  | nil => exact .ok safe ()
  | cons id rest ih =>
    obtain ⟨⟨instruction, ty, block?, hv, operands⟩, hrest⟩ := ordered
    have found := Module.instruction?_eq_some hv
    rw [List.filterMap_cons, found]
    change program.EndsSafely machine ((program.execution ((id, instruction) :: _)).outcome machine)
    rw [outcome_execution_cons]
    have operands : ∀ operand ∈ instruction.operands, program.Computed machine operand := by
      intro operand hoperand
      rcases operands operand hoperand with fixed | old
      · exact computed_of_fixed fixed machine
      · exact computed operand old
    obtain ⟨stepped, hcomputed⟩ := step_endsSafely safe sound hv operands
    revert stepped hcomputed
    rcases (program.step id instruction).outcome machine with ⟨trap | _, later⟩
    · intro stepped _
      exact ⟨stepped.safe, stepped.keeps, stepped.excused⟩
    · intro stepped hcomputed
      have rested := ih hrest stepped.safe fun other hother => by
        rcases List.mem_cons.mp hother with rfl | old
        · exact hcomputed rfl
        · exact (computed other old).keeps stepped.keeps
      exact ⟨rested.safe, stepped.keeps.trans rested.keeps, rested.excused⟩

/-- So does a function, whose blocks run one after the other. -/
theorem run_endsSafely (sound : program.Sound)
    (ordered : ∀ block b, program.module.block? block = some b →
      program.module.Ordered [] b.instructions)
    (safe : program.Safe machine) (function : FunctionId) :
    program.EndsSafely machine ((program.run function).outcome machine) := by
  rw [run_eq]
  simp only [code]
  split
  · rename_i found _
    induction found.blocks generalizing machine with
    | nil => exact .ok safe ()
    | cons block rest ih =>
      rw [List.flatMap_cons, outcome_execution_append]
      have first : program.EndsSafely machine
          ((program.execution (program.module.instructions block)).outcome machine) := by
        simp only [Module.instructions]
        split
        · rename_i b hb
          exact execution_endsSafely sound (ordered block b hb) safe nofun
        · exact .ok safe ()
      revert first
      rcases (program.execution (program.module.instructions block)).outcome machine with
        ⟨trap | _, later⟩
      · intro first
        exact ⟨first.safe, first.keeps, first.excused⟩
      · intro first
        have rested := ih first.safe
        exact ⟨rested.safe, first.keeps.trans rested.keeps, rested.excused⟩
  · exact .ok safe ()

theorem safe_empty (program : Program) : program.Safe {} :=
  ⟨nofun, nofun⟩

/-- The machine after functions ran one after the other, each to its end or to a trap. -/
def machineAfter (program : Program) (functions : List FunctionId) : Machine :=
  functions.foldl (fun machine function => ((program.run function).outcome machine).2) {}

theorem safe_machineAfter (sound : program.Sound)
    (ordered : ∀ block b, program.module.block? block = some b →
      program.module.Ordered [] b.instructions) (functions : List FunctionId) :
    program.Safe (program.machineAfter functions) := by
  simp only [machineAfter]
  have step : ∀ machine, program.Safe machine → ∀ function,
      program.Safe ((program.run function).outcome machine).2 := fun machine safe function =>
    (run_endsSafely sound ordered safe function).safe
  generalize h : ({} : Machine) = start
  have safe : program.Safe start := h ▸ program.safe_empty
  clear h
  induction functions generalizing start with
  | nil => exact safe
  | cons function rest ih => exact ih _ (step start safe function)

/-! ## What every step preserves -/

theorem instruction?_of_mem_code {function : FunctionId} {entry : ValueId × Instruction}
    (mem : entry ∈ program.code function) :
    program.module.instruction? entry.1 = some entry.2 := by
  simp only [code] at mem
  split at mem
  · obtain ⟨block, -, mem⟩ := List.mem_flatMap.mp mem
    simp only [Module.instructions] at mem
    split at mem
    · obtain ⟨id, -, found⟩ := List.mem_filterMap.mp mem
      obtain ⟨instruction, hi, rfl⟩ := Option.map_eq_some_iff.mp found
      exact hi
    · cases mem
  · cases mem

section Preserved

variable {P : Machine → Prop} (step : ∀ {id instruction machine},
  program.module.instruction? id = some instruction → P machine →
  P ((program.step id instruction).outcome machine).2)

include step

/-- Code preserves it too, wherever it stops. -/
theorem preserved_execution {code : List (ValueId × Instruction)}
    (known : ∀ entry ∈ code, program.module.instruction? entry.1 = some entry.2)
    (start : P machine) : P ((program.execution code).outcome machine).2 := by
  induction code generalizing machine with
  | nil => exact start
  | cons entry rest ih =>
    obtain ⟨id, instruction⟩ := entry
    have stepped := step (known _ (List.mem_cons_self ..)) start
    rw [outcome_execution_cons]
    revert stepped
    rcases (program.step id instruction).outcome machine with ⟨trap | _, later⟩
    · exact fun stepped => stepped
    · exact ih fun entry mem => known entry (List.mem_cons_of_mem _ mem)

theorem preserved_machineAfter (empty : P {}) (functions : List FunctionId) :
    P (program.machineAfter functions) := by
  simp only [machineAfter]
  generalize ({} : Machine) = start at empty
  induction functions generalizing start with
  | nil => exact empty
  | cons function rest ih =>
    exact ih _ (preserved_execution step (fun _ => instruction?_of_mem_code) empty)

end Preserved

end Program
end FormLowering
