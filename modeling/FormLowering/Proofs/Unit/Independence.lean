import FormLowering.Proofs.Form.Independence
import FormLowering.Proofs.Typing.Reachable

/-!
Reachable units answer by what they were told and not by what they have emitted. Two of them that
know the same types and the same variables give the same answers, and an attempt that is rolled back
has no influence on the next one.
-/

namespace FormLowering
namespace CompilationUnit

variable {unit other : CompilationUnit}

/-! ## Measurements -/

theorem Settled.define (h : unit.Settled) (registration : Registration) :
    (unit.define (registration.register unit.types)).Settled := by
  have settled := LayoutSession.Settled.step h (.register registration)
  simp only [LayoutSession.step] at settled
  cases registered : registration.register unit.types with
  | ok types =>
    rw [registered] at settled
    exact settled
  | error error => exact h

/-- The memo stays sound for the types, whatever is done to the unit. -/
theorem Settled.perform (h : unit.Settled) (operation : Operation) :
    (unit.perform operation).Settled := by
  cases operation with
  | enterFunction | pushScope | popScope | fail | rollback => exact h
  | declareStruct name => exact LayoutSession.Settled.step h (.register (.declareStruct name))
  | defineStruct name params fields => exact h.define (.defineStruct name params fields)
  | defineEnum name underlying members => exact h.define (.defineEnum name underlying members)
  | declareLocal name ty =>
    simp only [CompilationUnit.perform]
    rw [FormM.outcome_declareLocal]
    split
    · exact h
    · exact h
  | declareGlobal name ty linkage init? =>
    simp only [CompilationUnit.perform, FormM.declareGlobal]
    rw [FormM.outcome_registerGlobal]
    split
    · exact h
    · split
      · exact h
      · exact h
  | evaluate evaluation request => exact (evaluation.makes_action request unit).settled h
  | parseType node =>
    have changes : Changes True unit (unit.perform (.parseType node)) :=
      FormM.Makes.parseType node unit
    exact changes.settled h
  | alignment ty => exact LayoutSession.Settled.step h (.ask (.alignment ty))
  | size ty => exact LayoutSession.Settled.step h (.ask (.size ty))
  | fieldOffset ty index => exact LayoutSession.Settled.step h (.ask (.fieldOffset ty index))

end CompilationUnit

theorem Reachable.settled {unit : CompilationUnit} (h : Reachable unit) : unit.Settled := by
  induction h with
  | new name target limit => exact LayoutSession.settled_new target {}
  | perform operation reachable admissible ih => exact ih.perform operation

namespace CompilationUnit

variable {unit other : CompilationUnit}

/-! ## Answers -/

/-- What was tried before, and taken out of the log again, leaves the unit as it was to whoever
asks. -/
theorem Settled.alike_retried (h : unit.Settled) {α : Type} {tried : FormM α}
    (makes : FormM.Makes True tried) :
    ((tried.outcome unit).2.rollback unit.log.checkpoint).Alike unit := by
  have changes : Changes True unit ((tried.outcome unit).2.rollback unit.log.checkpoint) :=
    (makes unit).tail (.report _)
  exact {
    target := changes.target
    types := by
      rw [changes.types]
      exact .refl _
    names := fun name plain => by rw [changes.lookup plain]
    settled := changes.settled h
    settled' := h }

/-- From two reachable units with the same target and types, in which every name that is not of the
generated form is a variable of one type or in neither unit a variable, an evaluation of nodes that
mention no name of that form has answers that agree, in any two blocks: results of one type with
places of one type, or the same failure. So an alternative answers after any attempt that was rolled
back as it would have before. -/
theorem answers_independent (reachable : Reachable unit) (reachable' : Reachable other)
    (target : unit.target = other.target) (types : unit.types.Same other.types)
    (names : ∀ name, isGenerated name = false →
      (unit.lookup? name).map (·.ty) = (other.lookup? name).map (·.ty))
    {evaluation : Evaluation} (plain : ∀ node ∈ evaluation.nodes, node.Plain)
    (request : Request) (block : BlockId) :
    Coincide TypedValue.Same ((evaluation.action .core request).outcome unit).1
        ((evaluation.action .core (request.at block)).outcome other).1 ∧
      ∀ (tried : Evaluation) (before : Request),
        Coincide TypedValue.Same
          ((evaluation.action .core request).outcome
            (((tried.action .core before).outcome unit).2.rollback unit.log.checkpoint)).1
          ((evaluation.action .core request).outcome unit).1 := by
  refine ⟨?_, fun tried before => ?_⟩
  · exact evaluation.parallel_action plain request block unit other
      ⟨target, types, names, reachable.settled, reachable'.settled⟩
  · exact evaluation.parallel_action plain request request.block _ unit
      (reachable.settled.alike_retried (tried.makes_action before))

/-- Two routines and a variable. -/
def twoRoutines : CompilationUnit :=
  (((new "m" .x86_64 0).perform (.enterFunction "f")).perform (.enterFunction "g")).perform
    (.declareLocal "x" .char)

/-- Then a string was stored, and a name was not found. -/
def wornRoutines : CompilationUnit :=
  (twoRoutines.perform (.evaluate (.any (.atom ⟨.string, "hi", .dummy⟩)) { block := ⟨1⟩ })).perform
    (.evaluate (.any (.atom ⟨.identifier, "y", .dummy⟩)) { block := ⟨1⟩ })

/-- The first character of a string is assigned: `(setf x (@ "s"))`. -/
def firstCharacter : Evaluation :=
  let name (text : String) : Node := .atom ⟨.identifier, text, .dummy⟩
  .any (.list [name "setf", name "x",
    .list [name "@", .atom ⟨.string, "s", .dummy⟩] .dummy] .dummy)

/-- The string gets another name there, and the report and the code are others, yet the answer is
the same. -/
theorem wornRoutines_independent :
    (twoRoutines.unusedNumber, wornRoutines.unusedNumber) = (0, 1) ∧
      twoRoutines.log.entries.length < wornRoutines.log.entries.length ∧
      Coincide TypedValue.Same
        ((firstCharacter.action .core { block := ⟨0⟩ }).outcome twoRoutines).1
        ((firstCharacter.action .core { block := ⟨1⟩ }).outcome wornRoutines).1 := by
  have reachable : Reachable twoRoutines :=
    .perform _ (.perform _ (.perform _ (.new "m" .x86_64 0) trivial) trivial) trivial
  have hasBlock : twoRoutines.HasBlock ⟨1⟩ := by
    unfold HasBlock
    decide +kernel
  have stored := Evaluation.makes_action (.any (.atom ⟨.string, "hi", .dummy⟩)) { block := ⟨1⟩ }
    twoRoutines
  have reachable' : Reachable wornRoutines :=
    .perform _ (.perform _ reachable hasBlock) (Changes.grows stored |>.hasBlock hasBlock)
  have changes : Changes True twoRoutines wornRoutines :=
    stored.trans (Evaluation.makes_action _ _ _)
  have types : twoRoutines.types.Same wornRoutines.types := by
    rw [changes.types]
    exact .refl _
  have plain : ∀ node ∈ firstCharacter.nodes, node.Plain := by
    have names : ∀ name ∈ ["setf", "x", "@"], isGenerated name = false := by decide +kernel
    simpa [firstCharacter, Evaluation.nodes] using names
  obtain ⟨agree, -⟩ := answers_independent reachable reachable' changes.target.symm types
    (fun name plain => by rw [changes.lookup plain]) plain { block := ⟨0⟩ } ⟨1⟩
  exact ⟨by decide +kernel, by decide +kernel, agree⟩

end CompilationUnit
end FormLowering
