import FormLowering.Proofs.Code.Constness
import FormLowering.Proofs.Typing.Evaluation

/-!
What evaluation comes to, and the two ways around the const flag: to name a stored string by its
generated name, and to take the address of what a pointer to constant characters leads to. An
evaluation is careful if it comes to neither.
-/

namespace FormLowering

/-- A node that is evaluated, for a request and at a unit. -/
structure Task where
  node : Node
  request : Request
  unit : CompilationUnit

namespace Task

/-- An assignment evaluates its target. If that is an address to write to, it evaluates its value,
with the stored type as the hint. -/
inductive OfAssignment (target value : Node) (request : Request) (unit : CompilationUnit) :
    Task → Prop
  | target : OfAssignment target value request unit ⟨target, request.nested true, unit⟩
  | value {place : TypedValue} {stored : Ty} {later : CompilationUnit} :
      (target.resolve .core (request.nested true)).outcome unit = (.ok place, later) →
      place.ty = .pointerTo stored →
      OfAssignment target value request unit ⟨value, request.nested false (some stored), later⟩

/-- One task has another one done. Layout queries and the names of fields are no tasks. -/
inductive Asks : Task → Task → Prop
  | field {items : List Node} {span : Span} {request : Request} {unit : CompilationUnit}
      {base field : Node} {name : String} : Node.Calls items ":" [base, field] →
      field.fieldName = .ok name →
      Asks ⟨.list items span, request, unit⟩ ⟨base, request.nested true, unit⟩
  | assign {items : List Node} {span : Span} {request : Request} {unit : CompilationUnit}
      {target value : Node} {part : Task} : Node.Calls items "setf" [target, value] →
      OfAssignment target value request unit part → Asks ⟨.list items span, request, unit⟩ part
  | addressOf {items : List Node} {span : Span} {request : Request} {unit : CompilationUnit}
      {operand : Node} : Node.Calls items "#" [operand] → request.address = false →
      Asks ⟨.list items span, request, unit⟩ ⟨operand, request.nested false, unit⟩
  | dereference {items : List Node} {span : Span} {request : Request} {unit : CompilationUnit}
      {operand : Node} : Node.Calls items "@" [operand] →
      Asks ⟨.list items span, request, unit⟩ ⟨operand, request.nested false, unit⟩

/-- The task is what a pointer to constant characters leads to. -/
inductive FollowsConst : Task → Prop
  | dereference {items : List Node} {span : Span} {request : Request} {unit later : CompilationUnit}
      {operand : Node} {pointer : TypedValue} : Node.Calls items "@" [operand] →
      (operand.resolve .core (request.nested false)).outcome unit = (.ok pointer, later) →
      pointer.ty = .constPointerTo .char → FollowsConst ⟨.list items span, request, unit⟩

/-- The task goes around the const flag. -/
inductive Strips : Task → Prop
  | name {token : Token} {request : Request} {unit : CompilationUnit} {x : Variable} :
      token.kind = .identifier → unit.lookup? token.text = some x →
      unit.module.IsLiteral x.storage → Strips ⟨.atom token, request, unit⟩
  | addressOf {items : List Node} {span : Span} {request : Request} {unit : CompilationUnit}
      {operand : Node} : Node.Calls items "#" [operand] → request.address = false →
      FollowsConst ⟨operand, request.nested false, unit⟩ → Strips ⟨.list items span, request, unit⟩

/-- Neither the task nor one that comes of it goes around the const flag. -/
def Careful (task : Task) : Prop := ∀ part, Relation.ReflTransGen Asks task part → ¬ part.Strips

theorem Careful.here {task : Task} (h : task.Careful) : ¬ task.Strips := h task .refl

theorem Careful.part {task part : Task} (h : task.Careful) (asks : task.Asks part) : part.Careful :=
  fun last path => h last (.head asks path)

theorem careful_of_parts {task : Task} (here : ¬ task.Strips)
    (parts : ∀ part, task.Asks part → part.Careful) : task.Careful := by
  intro last path
  rcases path.cases_head with rfl | ⟨part, asks, rest⟩
  · exact here
  · exact parts part asks last rest

/-- Both parts of an assignment are evaluated in its block and in the same scopes. -/
theorem OfAssignment.ready {target value : Node} {request : Request} {unit : CompilationUnit}
    {part : Task} (asked : OfAssignment target value request unit part)
    (ready : unit.Ready request.block) :
    part.unit.Ready request.block ∧ part.unit.scopes = unit.scopes := by
  cases asked with
  | target => exact ⟨ready, rfl⟩
  | value hplace =>
    obtain ⟨effects, -⟩ := target.evaluates_resolve (request.nested true) ready
    rw [hplace] at effects
    exact ⟨effects.ready ready, effects.scopes⟩

/-- The name of a local is careful, and so is a token that is no name. -/
theorem careful_atom {token : Token} {request : Request} {unit : CompilationUnit}
    (typed : unit.Typed)
    (h : token.kind = .identifier → (unit.scopes.lookup? token.text).isSome) :
    (Task.mk (.atom token) request unit).Careful := by
  refine careful_of_parts ?_ nofun
  rintro ⟨hkind, hx, v, global, found, hv, hglobal, -⟩
  obtain ⟨x, hlocal⟩ := Option.isSome_iff_exists.mp (h hkind)
  unfold CompilationUnit.lookup? at hx
  rw [hlocal] at hx
  cases hx
  obtain ⟨label, block?, hv'⟩ := typed.locals (ScopeStack.mem_of_lookup? hlocal)
  cases hv.symm.trans hv'
  cases hglobal

/-- To follow a careful pointer is careful. -/
theorem careful_dereference {items : List Node} {span : Span} {request : Request}
    {unit : CompilationUnit} {operand : Node} (calls : Node.Calls items "@" [operand])
    (h : (Task.mk operand (request.nested false) unit).Careful) :
    (Task.mk (.list items span) request unit).Careful := by
  refine careful_of_parts ?_ fun part asks => ?_
  · intro strips
    cases strips with
    | addressOf other => exact absurd (calls.unique other).1 (by decide)
  · cases asks with
    | field other | assign other | addressOf other =>
      exact absurd (calls.unique other).1 (by decide)
    | dereference other =>
      cases (calls.unique other).2
      exact h

end Task

/-- The tasks that an evaluation starts with. -/
inductive Evaluation.Starts (request : Request) (unit : CompilationUnit) : Evaluation → Task → Prop
  | any (node : Node) : Starts request unit (.any node) ⟨node, request, unit⟩
  | token (token : Token) : Starts request unit (.token (.atom token)) ⟨.atom token, request, unit⟩
  | member {base field : Node} {name : String} : field.fieldName = .ok name →
      Starts request unit (.member base field) ⟨base, request.nested true, unit⟩
  | assign {target value : Node} {part : Task} : Task.OfAssignment target value request unit part →
      Starts request unit (.assign target value) part

/-- Nothing in the evaluation goes around the const flag. -/
def Evaluation.Careful (evaluation : Evaluation) (request : Request) (unit : CompilationUnit) :
    Prop :=
  ∀ task, Starts request unit evaluation task → task.Careful

end FormLowering
