import FormLowering.Proofs.Form.Application
import FormLowering.Proofs.Meaning.Tokens
import FormLowering.Proofs.Typing.Evaluation

/-!
Forms. Each form translates its arguments in the order in which direct evaluation takes them, and
between them it adds the reads, components and writes that direct evaluation makes.
-/

namespace FormLowering

variable {unit later : CompilationUnit} {request : Request} {result : TypedValue}

/-- From a state in which the answer is known, the code between two units does what is done with
the direct answer. -/
def Continues (block : BlockId) (unit later : CompilationUnit) (answer result : TypedValue)
    (next : Evaluated → Direct Evaluated) : Prop :=
  ∃ code, unit.Emits later block code ∧
    ∀ {program : Program} {machine : Machine} {store : Store} {meant : Evaluated},
      later.module.Extends program.module → Related program unit machine store →
      answer.Means program unit.module machine meant →
      Simulated program unit later machine code (next meant store) fun meant after =>
        result.Means program later.module after meant

theorem Realizes.bind {block : BlockId} {unit mid later : CompilationUnit}
    {answer result : TypedValue} {direct : Direct Evaluated} {next : Evaluated → Direct Evaluated}
    (first : Realizes block unit mid answer direct)
    (rest : Continues block mid later answer result next) :
    Realizes block unit later result (direct >>= next) := by
  obtain ⟨code, emits, simulated⟩ := first
  obtain ⟨more, emitsMore, simulatedMore⟩ := rest
  refine ⟨code ++ more, emits.trans emitsMore, ?_⟩
  intro program machine store hm related
  apply (simulated (emitsMore.grows.trans hm) related).bind emits.grows
  exact fun meant after store related _ means => simulatedMore hm related means

/-- What is computed from the answer alone needs no code. -/
theorem Continues.pure {block : BlockId} {unit : CompilationUnit} {answer result : TypedValue}
    {next : Evaluated → Direct Evaluated}
    (h : ∀ {program machine meant}, answer.Means program unit.module machine meant →
      ∃ value : Evaluated, (∀ store, next meant store = some (value, store)) ∧
        result.Means program unit.module machine value) :
    Continues block unit unit answer result next := by
  refine ⟨[], .nil (.refl _) rfl rfl rfl, ?_⟩
  intro program machine store meant hm related means
  obtain ⟨value, same, meansValue⟩ := h means
  rw [same]
  exact .pure related meansValue

namespace Node

end Node

namespace Node

end Node

end FormLowering
