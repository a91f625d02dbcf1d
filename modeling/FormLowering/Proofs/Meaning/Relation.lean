import Mathlib.Data.List.Forall2
import FormLowering.Proofs.Code.Order
import FormLowering.Proofs.Code.WellFormed
import FormLowering.Proofs.Execution.Outcome
import FormLowering.Proofs.Form.Outcome
import FormLowering.Proofs.Meaning.Direct
import FormLowering.Proofs.Meaning.Known
import FormLowering.Proofs.Unit.Operation

/-!
How a unit, the machine that runs its code, and direct evaluation correspond. The same names mean
the same objects, memory is the same, and code that was added leads from one correspondence to the
next or goes wrong together with direct evaluation.
-/

namespace FormLowering

def Module.Defines (module : Module) (id : ValueId) : Prop := (module.value? id).isSome

theorem Module.Extends.defines {module later : Module} (h : module.Extends later) {id : ValueId}
    (defines : module.Defines id) : later.Defines id := by
  obtain ⟨v, hv⟩ := Option.isSome_iff_exists.mp defines
  exact Option.isSome_iff_exists.mpr ⟨v, h.value hv⟩

theorem Module.Extends.instruction? {module later : Module} (h : module.Extends later) {id : ValueId}
    {instruction : Instruction} (hi : module.instruction? id = some instruction) :
    later.instruction? id = some instruction := by
  unfold Module.instruction? at hi
  split at hi
  · rename_i hv
    cases hi
    exact Module.instruction?_eq_some (h.value hv)
  · cases hi

namespace Builder

/-- The later builder has one more instruction at the insertion point; it may also have a fault. -/
structure Pushes (builder later : Builder) (instruction : Instruction) : Prop where
  module : ∃ ty, later.module = (builder.pushInstruction instruction ty).2.module
  point : later.point = builder.point

variable (builder : Builder)

end Builder

namespace CompilationUnit

/-- The block takes the next instruction. -/
structure Open (unit : CompilationUnit) (block : BlockId) : Prop where
  hasBlock : unit.HasBlock block
  here : unit.builder.At block

/-- The later unit has more code at the end of the block. -/
structure Emits (unit later : CompilationUnit) (block : BlockId)
    (code : List (ValueId × Instruction)) : Prop where
  grows : unit.module.Extends later.module
  types : later.types = unit.types
  point : later.builder.point = unit.builder.point
  block : ∀ {b}, unit.module.block? block = some b → later.module.block? block =
    some { b with instructions := b.instructions ++ code.map (·.1) }
  instructions : ∀ {id instruction}, (id, instruction) ∈ code →
    later.module.instruction? id = some instruction

variable {unit mid later : CompilationUnit} {block : BlockId}
  {code rest : List (ValueId × Instruction)}

theorem Emits.open (h : unit.Emits later block code) (isOpen : unit.Open block) : later.Open block :=
  ⟨h.grows.hasBlock isOpen.hasBlock, isOpen.here.later isOpen.hasBlock h.grows h.point⟩

theorem Emits.trans (h : unit.Emits mid block code) (hrest : mid.Emits later block rest) :
    unit.Emits later block (code ++ rest) where
  grows := h.grows.trans hrest.grows
  types := hrest.types.trans h.types
  point := hrest.point.trans h.point
  block hb := by
    rw [hrest.block (h.block hb)]
    simp
  instructions hi := by
    rcases List.mem_append.mp hi with old | new
    · exact hrest.grows.instruction? (h.instructions old)
    · exact hrest.instructions new

/-- What is made outside the blocks is no code. -/
theorem Emits.nil (grows : unit.module.Extends later.module) (types : later.types = unit.types)
    (point : later.builder.point = unit.builder.point)
    (same : later.module.block? block = unit.module.block? block) :
    unit.Emits later block [] where
  grows := grows
  types := types
  point := point
  block {b} hb := by
    rw [same, hb]
    simp
  instructions hi := nomatch hi

end CompilationUnit

namespace Program

variable (program : Program)

/-- The later machine has the same values for all that the module defines. -/
def Kept (module : Module) (before after : Machine) : Prop :=
  ∀ id, module.Defines id → program.value after id = program.value before id

variable {program} {module later : Module} {a b c : Machine}

theorem Kept.refl : program.Kept module a a := fun _ _ => rfl

theorem Kept.trans (hab : program.Kept module a b) (hm : module.Extends later)
    (hbc : program.Kept later b c) : program.Kept module a c :=
  fun id hid => (hbc id (hm.defines hid)).trans (hab id hid)

end Program

def Global.definition (global : Global) : Definition := ⟨global.name, global.ty, global.init?⟩

/-- The variable and the binding are of one name, and mean the same object. -/
structure Variable.Denotes (x : Variable) (program : Program) (module : Module) (machine : Machine)
    (binding : Binding) : Prop where
  name : x.name = binding.name
  ty : x.ty = binding.ty
  defined : module.Defines x.storage
  value : program.value machine x.storage = .ok (.address ⟨binding.root, []⟩)

/-- The machine, after the unit's code so far, and the store of direct evaluation are in the same
state. -/
structure Related (program : Program) (unit : CompilationUnit) (machine : Machine) (store : Store) :
    Prop where
  module : unit.module.Extends program.module
  runs : program.types = unit.types
  types : unit.types = store.types
  target : unit.target = store.target
  layout : unit.layout = store.layout
  nextName : unit.nextName = store.nextName
  scopes : List.Forall₂ (List.Forall₂ fun x => x.Denotes program unit.module machine)
    unit.scopes.scopes store.scopes
  globals : List.Forall₂ (fun x => x.Denotes program unit.module machine) unit.globals store.globals
  definitions : store.definitions = unit.module.globals.toList.map Global.definition
  tabled : unit.module.names = unit.module.namedGlobals
  memory : ∀ root, store.memory.lookup root = machine.memory.lookup root
  values : ∀ {id datum}, unit.module.Defines id → program.value machine id = .ok datum →
    datum.Known unit.module.globals.size
  objects : ∀ {root object}, machine.memory.lookup root = some object →
    object.Known unit.module.globals.size

/-- Running the code leads to a corresponding state, or goes wrong just as direct evaluation
does. -/
def Simulated {β : Type} (program : Program) (unit later : CompilationUnit) (machine : Machine)
    (code : List (ValueId × Instruction)) (direct : Option (β × Store))
    (post : β → Machine → Prop) : Prop :=
  match (program.execution code).outcome machine with
  | (.ok _, after) => ∃ b next, direct = some (b, next) ∧ Related program later after next ∧
      program.Kept unit.module machine after ∧ post b after
  | (.error _, _) => direct = none

section Simulated

variable {β γ : Type} {program : Program} {unit mid later : CompilationUnit} {machine : Machine}
  {store : Store} {code rest : List (ValueId × Instruction)}

theorem Simulated.pure {b : β} {next : Store} {post : β → Machine → Prop}
    (related : Related program later machine next) (h : post b machine) :
    Simulated program unit later machine [] (some (b, next)) post :=
  ⟨b, next, rfl, related, .refl, h⟩

/-- Code after code is evaluation after evaluation. -/
theorem Simulated.bind {d : Direct β} {f : β → Direct γ} {Q : β → Machine → Prop}
    {post : γ → Machine → Prop} (grows : unit.module.Extends mid.module)
    (first : Simulated program unit mid machine code (d store) Q)
    (next : ∀ b after store, Related program mid after store →
      program.Kept unit.module machine after → Q b after →
      Simulated program mid later after rest (f b store) post) :
    Simulated program unit later machine (code ++ rest) ((d >>= f) store) post := by
  have opened : (d >>= f) store = (d store).bind fun p => f p.1 p.2 := rfl
  simp only [Simulated] at first ⊢
  rw [Program.outcome_execution_append, opened]
  revert first
  rcases (program.execution code).outcome machine with ⟨trap | _, after⟩
  · intro first
    dsimp only at first ⊢
    rw [first]
    rfl
  · rintro ⟨b, store', hd, related, kept, hQ⟩
    have second := next b after store' related kept hQ
    unfold Simulated at second
    dsimp only
    rw [hd]
    revert second
    rcases (program.execution rest).outcome after with ⟨trap | _, last⟩
    · exact fun second => second
    · rintro ⟨c, final, hf, related, kept', hpost⟩
      exact ⟨c, final, hf, related, kept.trans grows kept', hpost⟩

theorem Simulated.map {d : Direct β} {g : β → γ} {Q : β → Machine → Prop}
    {post : γ → Machine → Prop} (first : Simulated program unit later machine code (d store) Q)
    (imp : ∀ b after, program.Kept unit.module machine after → Q b after → post (g b) after) :
    Simulated program unit later machine code ((d >>= fun b => Pure.pure (g b)) store) post := by
  have opened : (d >>= fun b => Pure.pure (g b)) store =
      (d store).bind fun p => some (g p.1, p.2) := rfl
  simp only [Simulated] at first ⊢
  rw [opened]
  revert first
  rcases (program.execution code).outcome machine with ⟨trap | _, after⟩
  · intro first
    dsimp only at first ⊢
    rw [first]
    rfl
  · rintro ⟨b, next, hd, related, kept, hQ⟩
    dsimp only
    rw [hd]
    exact ⟨g b, next, rfl, related, kept, imp b after kept hQ⟩

theorem Simulated.mono {direct : Option (β × Store)} {post wider : β → Machine → Prop}
    (h : Simulated program unit later machine code direct post)
    (imp : ∀ b after, program.Kept unit.module machine after → post b after → wider b after) :
    Simulated program unit later machine code direct wider := by
  simp only [Simulated] at h ⊢
  revert h
  rcases (program.execution code).outcome machine with ⟨trap | _, after⟩
  · exact id
  · rintro ⟨b, next, hd, related, kept, hpost⟩
    exact ⟨b, next, hd, related, kept, imp b after kept hpost⟩

end Simulated

end FormLowering
