import FormLowering.Proofs.Execution.Respect
import FormLowering.Proofs.Execution.Run

/-!
Const-correct code leaves constant globals alone: nothing is stored through a pointer to constant
characters. This does not ask for the order of the instructions, so it holds however the code runs
and wherever it stops.
-/

namespace FormLowering
namespace Program

variable {program : Program} {machine : Machine}

/-- What is not a constant global can be written, with what respects the type of the place. -/
theorem Respected.write (h : program.Respected machine) {address : Address} {stored : Ty}
    {isConst : Bool} {datum : Datum} (reaches : program.Reaches address (.pointer stored isConst))
    (written : ¬ program.IsConstant address.root) (respects : program.Respects datum stored) :
    program.Respected ((program.write address datum).outcome machine).2 := by
  obtain ⟨_, _, outer, hty, hroot, descends⟩ := reaches
  cases hty
  rw [outcome_write]
  cases hobject : program.object machine address.root with
  | error trap => exact h
  | ok object =>
    dsimp only
    have old := h.object hroot hobject
    have loaded : program.Respected (machine.setObject address.root object) := by
      refine h.setObject written fun ty hty => ?_
      cases hroot.symm.trans hty
      exact old
    cases hset : Datum.set datum object address.path with
    | error trap => exact loaded
    | ok changed =>
      refine loaded.setObject written fun ty hty => ?_
      cases hroot.symm.trans hty
      exact old.set respects descends hset

/-- The machine that an instruction leaves respects the types, and so does the answer, if any. -/
def EndsRespected (program : Program) (ty : Ty) (ended : Except Trap Datum × Machine) : Prop :=
  program.Respected ended.2 ∧ ∀ datum, ended.1 = .ok datum → program.Respects datum ty

section Execute

variable {id : ValueId} (h : program.Respected machine)

include h

theorem alloca_endsRespected {allocated : Ty} {name : String} {block? : Option BlockId}
    (hv : program.module.value? id =
      some ⟨.instruction (.alloca allocated name), .pointerTo allocated, block?⟩) :
    program.EndsRespected (.pointerTo allocated)
      ((program.execute id (.alloca allocated name)).outcome machine) := by
  have hroot := rootType?_stack hv
  have onStack : ¬ program.IsConstant (.stack id) := nofun
  rw [outcome_alloca]
  cases hblank : allocated.blank program.types with
  | error trap => exact ⟨h, nofun⟩
  | ok slot =>
    refine ⟨h.setObject onStack fun ty _ => ?_, fun datum hdatum => ?_⟩
    · exact respects_of_not_holds (Ty.fits_blankWithin hblank).not_holds ty
    · cases hdatum
      exact respects_address ⟨⟨allocated, false, allocated, rfl, hroot, .here _⟩,
        fun isConstant => (onStack isConstant).elim⟩

variable (typed : program.module.Typed program.types)

include typed

theorem load_endsRespected {pointer : ValueId} {ty : Ty} {isConst : Bool}
    (hty : program.module.typeOf? pointer = some (.pointer ty isConst)) :
    program.EndsRespected ty ((program.execute id (.load pointer)).outcome machine) := by
  rw [outcome_load]
  cases haddress : program.addressIn machine pointer with
  | error trap => exact ⟨h, nofun⟩
  | ok address => exact ⟨h, fun datum hdatum => h.read (h.addressIn typed hty haddress).1 hdatum⟩

theorem store_endsRespected {value pointer : ValueId} {source stored : Ty} {isConst : Bool}
    (hp : program.module.Ordinary pointer (.pointer stored isConst))
    (hs : program.module.Ordinary value source) (similar : source.Similar stored)
    (writable : Ty.pointer stored isConst ≠ .constPointerTo .char)
    (kept : source = .constPointerTo .char → stored = source) :
    program.EndsRespected .void ((program.execute id (.store value pointer)).outcome machine) := by
  rw [outcome_store]
  cases haddress : program.addressIn machine pointer with
  | error trap => exact ⟨h, nofun⟩
  | ok address =>
    cases hdatum : program.value machine value with
    | error trap => exact ⟨h, nofun⟩
    | ok datum =>
      obtain ⟨reaches, admits⟩ := h.addressIn typed hp.typed haddress
      have written : ¬ program.IsConstant address.root := fun isConstant =>
        writable ((admits hp).const isConstant)
      have respects := (h.value typed hs hdatum).similar similar kept
      have later := h.write reaches written respects
      dsimp only
      revert later
      rcases (program.write address datum).outcome machine with ⟨trap | _, after⟩
      · exact fun later => ⟨later, nofun⟩
      · refine fun later => ⟨later, fun found hfound => ?_⟩
        cases hfound
        refine respects_of_not_holds ?_ _
        exact nofun

/-- A component is where its whole is, and no address into a literal is one of a whole. -/
theorem gep_endsRespected {pointer : ValueId} {outer inner : Ty} {isConst flag : Bool} {index : Nat}
    (hty : program.module.typeOf? pointer = some (.pointer outer isConst))
    (descends : outer.Descends program.types [index] inner)
    (correct :
      (Instruction.gep pointer [0, index]).ConstCorrect program.module (.pointer inner flag)) :
    program.EndsRespected (.pointer inner flag)
      ((program.execute id (.gep pointer [0, index])).outcome machine) := by
  rw [outcome_gep]
  cases haddress : program.addressIn machine pointer with
  | error trap => exact ⟨h, nofun⟩
  | ok address =>
    refine ⟨h, fun datum hdatum => ?_⟩
    cases hdatum
    obtain ⟨⟨_, _, whole, houter, hroot, above⟩, admits⟩ := h.addressIn typed hty haddress
    cases houter
    refine respects_address ⟨⟨inner, flag, whole, rfl, hroot, above.append descends⟩, ?_⟩
    intro isConstant
    rcases correct.of_gep with ⟨found, ordinary⟩ | same
    · cases hty.symm.trans ordinary.typed
      cases (admits ordinary).const isConstant
      cases descends
    · exact same

/-- Executing a typed and const-correct instruction respects the types. -/
theorem execute_endsRespected {instruction : Instruction} {ty : Ty} {block? : Option BlockId}
    (hv : program.module.value? id = some ⟨.instruction instruction, ty, block?⟩)
    (correct : instruction.ConstCorrect program.module ty) :
    program.EndsRespected ty ((program.execute id instruction).outcome machine) := by
  have typing := typed id _ hv
  cases typing with
  | instruction _ typing =>
    cases typing with
    | alloca allocated name => exact alloca_endsRespected h hv
    | load hp => exact load_endsRespected h typed hp
    | store hp hs similar =>
      cases correct with
      | store _ ordinary ordinary' writable kept =>
        cases hp.symm.trans ordinary.typed
        cases hs.symm.trans ordinary'.typed
        refine store_endsRespected h typed ordinary ordinary' similar writable fun same => ?_
        exact Option.some.inj (kept same)
    | @element pointer length element isConst flag hp =>
      have descends := Ty.descends_first program.types length element
      exact gep_endsRespected h typed hp descends correct
    | @field pointer name struct fields index field isConst hp hstruct hfields hfield =>
      have descends := Ty.descends_field hstruct hfields hfield
      exact gep_endsRespected h typed hp descends correct

theorem respected_step {instruction : Instruction} (correct : program.module.ConstCorrect)
    (hi : program.module.instruction? id = some instruction) :
    program.Respected ((program.step id instruction).outcome machine).2 := by
  obtain ⟨ty, block?, hv⟩ := Module.value?_of_instruction? hi
  have executed := execute_endsRespected h typed hv (correct.instruction hv)
  rw [outcome_step]
  revert executed
  rcases (program.execute id instruction).outcome machine with ⟨trap | datum, later⟩
  · exact fun executed => executed.1
  · exact fun executed => executed.1.setValue (Module.typeOf?_of_value? hv) (executed.2 datum rfl)

/-- Code of the module respects the types, wherever it stops. -/
theorem respected_execution (correct : program.module.ConstCorrect)
    {code : List (ValueId × Instruction)}
    (known : ∀ entry ∈ code, program.module.instruction? entry.1 = some entry.2) :
    program.Respected ((program.execution code).outcome machine).2 :=
  preserved_execution (P := program.Respected)
    (fun hi h => respected_step h typed correct hi) known h

end Execute

/-- In whatever order the functions run, and wherever each of them stops. -/
theorem respected_machineAfter (typed : program.module.Typed program.types)
    (correct : program.module.ConstCorrect) (functions : List FunctionId) :
    program.Respected (program.machineAfter functions) :=
  preserved_machineAfter (P := program.Respected)
    (fun hi h => respected_step h typed correct hi) program.respected_empty functions

/-- A constant global reads as its initializer. -/
theorem Respected.read_constant (h : program.Respected machine) {id : GlobalId} {found : Global}
    {init : Constant} (hfound : program.module.global? id = some found)
    (isConstant : found.isConstant) (hinit : found.init? = some init) (path : List Nat) :
    program.read machine ⟨.global id, path⟩ = (Datum.ofConstant init).get path := by
  have untouched := h.untouched ⟨id, found, rfl, hfound, isConstant⟩
  obtain ⟨name, ty, linkage, isConstant, init?, address⟩ := found
  cases hinit
  simp only [Program.read, Program.object]
  rw [untouched]
  simp only [Program.initial]
  rw [hfound]
  rfl

end Program
end FormLowering
