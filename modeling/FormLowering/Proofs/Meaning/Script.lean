import FormLowering.Proofs.Meaning.Forms
import FormLowering.Proofs.Typing.Reachable

/-!
Scripts. A routine is built by steps that declare variables, open and close scopes and evaluate
nodes, and direct evaluation can carry out the same steps.
-/

namespace FormLowering

inductive Step where
  | declareLocal (name : String) (ty : Ty)
  | declareGlobal (name : String) (ty : Ty) (linkage : Linkage) (init? : Option Constant)
  | pushScope
  | popScope
  | evaluate (node : Node) (request : Request)

namespace Step

/-- The step on the unit. A declaration answers with the address of what it declares. -/
def translate (block : BlockId) : Step → FormM (Option TypedValue)
  | .declareLocal name ty => do
    let x ← FormM.declareLocal name ty
    return some { block, value := x.storage, ty := .pointerTo ty }
  | .declareGlobal name ty linkage init? => do
    let x ← FormM.declareGlobal name ty linkage init?
    return some { block, value := x.storage, ty := .pointerTo ty }
  | .pushScope => do
    modify (·.pushScope)
    return none
  | .popScope => do
    modify (·.popScope)
    return none
  | .evaluate node request => return some (← node.resolve .core request)

/-- The step on objects; the first of the slots is for a local that it declares. -/
noncomputable def direct (slots : List ValueId) : Step → Direct (Option Evaluated)
  | .declareLocal name ty => do
    let slot ← Direct.ofOption slots.head?
    let place ← Direct.allocate slot ty
    modify (·.bind ⟨name, .stack slot, ty⟩)
    return some ⟨place, .pointerTo ty, none⟩
  | .declareGlobal name ty _ init? => do
    let store ← get
    set (store.define name ty init?)
    return some ⟨.address ⟨.global ⟨store.definitions.length⟩, []⟩, .pointerTo ty, none⟩
  | .pushScope => do
    modify fun store => { store with scopes := [] :: store.scopes }
    return none
  | .popScope => do
    modify fun store => { store with scopes := store.scopes.tail }
    return none
  | .evaluate node request => return some (← node.direct request)

/-- The slots that were made for the step, if this is how it was answered. -/
def ownSlots : Step → Option TypedValue → List ValueId
  | .declareLocal _ _, some answer => [answer.value]
  | _, _ => []

/-- The slots of the locals in the order of their declarations. -/
def slots (steps : List Step) (answers : List (Option TypedValue)) : List ValueId :=
  (List.zipWith ownSlots steps answers).flatten

end Step

variable {program : Program} {unit later : CompilationUnit} {machine : Machine} {store : Store}
  {block : BlockId}

theorem Related.rescope (related : Related program unit machine store) {scopes : ScopeStack}
    {inner : List (List Binding)}
    (h : List.Forall₂ (List.Forall₂ fun x => x.Denotes program unit.module machine) scopes.scopes
      inner) : Related program { unit with scopes } machine { store with scopes := inner } :=
  { related with scopes := h }

theorem ScopeStack.bind?_of_canBind {stack : ScopeStack} {x : Variable} (h : stack.canBind x.name) :
    ∃ scope rest, stack.scopes = scope :: rest ∧
      stack.bind? x = some ⟨(scope ++ [x]) :: rest⟩ := by
  obtain ⟨scopes⟩ := stack
  cases scopes with
  | nil => cases h
  | cons scope rest =>
    refine ⟨scope, rest, rfl, ?_⟩
    simp only [bind?]
    exact if_pos h

/-- A variable that is bound where there is room is bound in the innermost scope. -/
theorem Related.bind (related : Related program unit machine store) {x : Variable} {binding : Binding}
    (denotes : x.Denotes program unit.module machine binding) (room : unit.scopes.canBind x.name) :
    Related program { unit with scopes := (unit.scopes.bind? x).getD unit.scopes } machine
      (store.bind binding) := by
  obtain ⟨scope, rest, hscopes, hbound⟩ := ScopeStack.bind?_of_canBind room
  rw [hbound, Option.getD_some]
  apply related.rescope
  have scopes := related.scopes
  rw [hscopes] at scopes
  cases hstore : store.scopes with
  | nil =>
    rw [hstore] at scopes
    cases scopes
  | cons inner outer =>
    rw [hstore] at scopes
    cases scopes with
    | cons head tail => exact .cons (List.rel_append head (.cons denotes .nil)) tail

namespace Step

variable {answer : Option TypedValue}

end Step

end FormLowering
