import FormLowering.Proofs.Execution.Routines
import FormLowering.Proofs.Meaning.Script
import FormLowering.Proofs.Unit.Namespace

/-!
Compilation preserves meaning. A routine that was built by a script does, when it is run, what the
script does directly: both go wrong, or they end with the same answers and the same memory.
-/

namespace FormLowering

def Variable.root (x : Variable) (module : Module) : Root :=
  match module.value? x.storage with
  | some ⟨.globalAddress id, _, _⟩ => .global id
  | _ => .stack x.storage

def Variable.binding (x : Variable) (module : Module) : Binding := ⟨x.name, x.root module, x.ty⟩

/-- What a unit is to direct evaluation. -/
def CompilationUnit.store (unit : CompilationUnit) : Store where
  types := unit.types
  target := unit.target
  layout := unit.layout
  nextName := unit.nextName
  scopes := unit.scopes.scopes.map (·.map (·.binding unit.module))
  globals := unit.globals.map (·.binding unit.module)
  definitions := unit.module.globals.toList.map Global.definition

variable {program : Program} {unit later : CompilationUnit}

theorem Variable.InModule.denotes {x : Variable} (h : x.InModule unit.module)
    (hm : unit.module.Extends program.module) (machine : Machine) :
    x.Denotes program unit.module machine (x.binding unit.module) := by
  obtain ⟨id, hv⟩ := h
  refine ⟨rfl, rfl, Option.isSome_iff_exists.mpr ⟨_, hv⟩, ?_⟩
  simp only [Program.value, Variable.binding, Variable.root]
  rw [hm.value hv, hv]

/-- A run and a direct evaluation both go wrong, or they end with the same answers and the same
memory. -/
def Agrees (program : Program) (answers : List (Option TypedValue))
    (ended : Except Trap Unit × Machine) (direct : Option (List (Option Evaluated) × Store)) : Prop :=
  match ended, direct with
  | (.ok _, machine), some (meant, store) =>
    List.Forall₂ (Option.Rel (·.Means program program.module machine)) answers meant ∧
      ∀ address, store.read address = (program.read machine address).toOption
  | (.error _, _), none => True
  | _, _ => False

end FormLowering
